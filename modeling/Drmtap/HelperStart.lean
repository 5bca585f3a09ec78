import Drmtap.HelperServer

/-! The start of `main` in drmtap-helper.c: how a privileged process locks itself in before it
serves anyone. -/
namespace Drmtap

open Memory Effect

/-! The filter of system calls -/

inductive Syscall where
  | read
  | write
  | close
  | sendto
  | sendmsg
  | recvfrom
  | mmap
  | munmap
  | brk
  | fstat
  | newfstatat
  | fcntl
  | exitGroup
  | exit
  | rtSigreturn
  | clockGettime

/-- What `seccomp_rule_add` adds: a call that is let through, or an ioctl by its request. -/
inductive Rule where
  | allow (call : Syscall)
  | ioctlMasked (mask datum : UInt64)
  | ioctlEq (request : UInt64)

inductive CapFlag where
  | permitted
  | effective

inductive StartOp where
  | getFdFlags (fd : ℤ)
  | getPeerCred (sock : ℤ)
  | getuid
  | realpath (path : String)
  | setNoNewPrivs
  | openReadOnly (path : String)
  | dropMaster (fd : ℕ)
  | setUniversalPlanes (fd : ℕ)
  | getVersion (fd : ℕ)
  | capInit
  | capSetFlag (flag : CapFlag) (cap : ℕ)
  | capSetProc
  | capFree
  | seccompInit
  | seccompRuleAdd (rule : Rule)
  | seccompLoad
  | seccompRelease

/-- A `Bool` is whether the call succeeded. -/
@[reducible] def StartAns : StartOp → Type
  | .getFdFlags _ => Bool
  | .getPeerCred _ => Option UInt32
  | .getuid => UInt32
  | .realpath _ => Option String
  | .setNoNewPrivs => Bool
  | .openReadOnly _ => Option ℕ
  | .dropMaster _ => Bool
  | .setUniversalPlanes _ => Unit
  | .getVersion _ => Option String
  | .capInit => Bool
  | .capSetFlag _ _ => Bool
  | .capSetProc => Bool
  | .capFree => Unit
  | .seccompInit => Bool
  | .seccompRuleAdd _ => Bool
  | .seccompLoad => Bool
  | .seccompRelease => Unit

end Drmtap
