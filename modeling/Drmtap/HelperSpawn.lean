import Drmtap.HelperStart

/-! How the library starts a helper, in privilege_helper.c: the search for the binary, the fork, and
what the child hands on to the program that it becomes. -/
namespace Drmtap

open Effect

/-! What the start asks of the system -/

/-- What the child of a fork needs of its parent: the two ends of the socket, by their
descriptors, and what to execute. -/
structure ChildStart where
  ours : ℕ
  theirs : ℕ
  path : String
  device : String

inductive SpawnOp where
  | access (path : String)
  | socketpair
  | fork (child : ChildStart)
  | close (fd : ℕ)
  | dup2 (old new : ℕ)
  | clearFdFlags (fd : ℕ)
  | sysconfOpenMax
  | execl (path : String) (args : List String)

/-- `execl` answers only where it fails. -/
abbrev SpawnAns : SpawnOp → Type
  | .access _ => Bool
  | .socketpair => Except Errno (ℕ × ℕ)
  | .fork _ => Except Errno ℕ
  | .close _ => Unit
  | .dup2 _ _ => Bool
  | .clearFdFlags _ => Unit
  | .sysconfOpenMax => ℤ
  | .execl _ _ => Unit

/-- The end of the loop: `maxfd` as an int, with a bound for a query that fails. -/
def inheritedEnd (openMax : ℤ) : ℕ :=
  (Int32.ofInt (if openMax < 0 then 65536 else openMax)).toInt.toNat

inductive OpenFile where
  | other (id : ℕ)
  | ours
  | theirs

structure Descriptor where
  file : OpenFile
  cloexec : Bool

abbrev Table := ℕ → Option Descriptor

/-- What a program that is executed is left of the descriptors. -/
def Table.image (t : Table) : ℕ → Option OpenFile := fun fd =>
  match t fd with
  | some d => if d.cloexec then none else some d.file
  | none => none

/-- A process, and the child that it forked with a copy of its table. -/
structure Spawning where
  table : Table
  child : Option (Table × ChildStart)

def Spawning.setTable (s : Spawning) (t : Table) : Spawning := { s with table := t }

/-- A machine, as the start of a helper sees it: what may be executed, and the limit of the
descriptors, which is an int where it is known. -/
structure SpawnHost where
  executable : String → Bool
  openMax : ℤ
  int : openMax < 2 ^ 31

/-- Descriptors are below the limit. -/
def SpawnHost.bound (host : SpawnHost) : ℕ := inheritedEnd host.openMax

/-- The system under a process that executes nothing but what it may. -/
abbrev SpawnHost.env (host : SpawnHost)
    (may : (ℕ → Option OpenFile) → String → List String → Prop) : Effect.Env SpawnOp SpawnAns where
  State := Spawning
  legal s
    | .execl path args => may s.table.image path args
    | _ => True
  step s
    | .access path, r, s' => r = host.executable path ∧ s' = s
    | .socketpair, r, s' =>
      match r with
      | .error _ => s' = s
      | .ok socks => socks.1 ≠ socks.2 ∧ s.table socks.1 = none ∧ s.table socks.2 = none ∧
        socks.1 < host.bound ∧ socks.2 < host.bound ∧
        s' = s.setTable (Function.update (Function.update s.table socks.1 (some ⟨.ours, true⟩))
          socks.2 (some ⟨.theirs, true⟩))
    | .fork start, r, s' =>
      match r with
      | .error _ => s' = s
      | .ok _ => s' = ⟨s.table, some (s.table, start)⟩
    | .close fd, _, s' => s' = s.setTable (Function.update s.table fd none)
    | .dup2 old new, r, s' =>
      if r then ∃ d, s.table old = some d ∧
        s' = s.setTable (Function.update s.table new (some ⟨d.file, false⟩))
      else s' = s
    | .clearFdFlags fd, _, s' =>
      s' = s.setTable (Function.update s.table fd ((s.table fd).map fun d => ⟨d.file, false⟩))
    | .sysconfOpenMax, r, s' => r = host.openMax ∧ s' = s
    | .execl _ _, _, s' => s' = s

/-! What a helper inherits -/

section Steps
variable {host : SpawnHost} {may : (ℕ → Option OpenFile) → String → List String → Prop}
  {s : Spawning} {t : Table} {u : Unit}

/-- What the library holds, with the two ends of a new socket. -/
def paired (t : Table) (start : ChildStart) : Table :=
  Function.update (Function.update t start.ours (some ⟨.ours, true⟩)) start.theirs
    (some ⟨.theirs, true⟩)

end Steps

end Drmtap
