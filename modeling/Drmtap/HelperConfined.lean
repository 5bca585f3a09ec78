import Drmtap.HelperLedger
import Drmtap.HelperStart

/-! What a helper that serves is locked into, and what it does there. -/
namespace Drmtap

open Memory Effect

/-! The process -/

structure CapSet where
  permitted : List ℕ
  effective : List ℕ

def CapSet.empty : CapSet := ⟨[], []⟩

def CapSet.add (s : CapSet) (cap : ℕ) : CapFlag → CapSet
  | .permitted => { s with permitted := cap :: s.permitted }
  | .effective => { s with effective := cap :: s.effective }

/-- The helper as the kernel sees it. -/
structure Process where
  uid : UInt32
  /-- the user at the other end of the socket -/
  peer : Option UInt32
  /-- the canonical paths it was told -/
  resolved : List String
  device : Option String
  noNewPrivs : Bool
  /-- the capabilities that are being put together -/
  pending : CapSet
  /-- the capabilities it set itself, if it did -/
  caps : Option CapSet
  /-- the filter that is being put together -/
  rules : List Rule
  filter : Option (List Rule)
  serves : Bool

namespace Process

def after (p : Process) : (o : StartOp) → StartAns o → Process
  | .realpath _, r => { p with resolved := r.toList ++ p.resolved }
  | .setNoNewPrivs, r => { p with noNewPrivs := p.noNewPrivs || r }
  | .openReadOnly path, some _ => { p with device := some path }
  | .capInit, _ => { p with pending := .empty }
  | .capSetFlag flag cap, r => { p with pending := if r then p.pending.add cap flag else p.pending }
  | .capSetProc, r => { p with caps := if r then some p.pending else p.caps }
  | .seccompInit, _ => { p with rules := [] }
  | .seccompRuleAdd rule, r => { p with rules := if r then p.rules ++ [rule] else p.rules }
  | .seccompLoad, r => { p with filter := if r then some p.rules else p.filter }
  | _, _ => p

/-- What the kernel says of users is true. -/
def Tells (p : Process) : (o : StartOp) → StartAns o → Prop
  | .getuid, r => r = p.uid
  | .getPeerCred _, r => r = none ∨ r = p.peer
  | _, _ => True

end Process

/-! What the main loop asks of the system -/

/-- The operations of a helper that serves: the ioctls on its device, memory that is mapped,
descriptors that are closed, and its socket, on which it receives bytes only. -/
def HelperOp : Op → Prop
  | .getPlaneResources | .getPlane _ | .getResources | .getCrtc _ | .getConnectorCurrent _
  | .objectGetProperties _ _ | .getProperty _ | .getPropertyBlob _ | .setClientCap _ | .getFB2 _
  | .gemClose _ | .primeHandleToFD _ | .virtTransferFromHost _ _ _ | .virtWait _
  | .virtGetParam3D | .modeMapDumb _ | .mmap _ _ _ | .munmap _ | .close _ | .dmabufSyncStart _
  | .dmabufSyncEnd _ | .send _ _ | .sendmsg _ _ _ | .recv _ _ | .clockMs => True
  | _ => False

theorem HelperOp.of_kms {o : Op} (ho : KmsOp o) : HelperOp o := by
  cases o <;> first | exact ho.elim | trivial

section Uses
variable {α : Type} {sock : ℤ} {isVirtio : Bool}

end Uses

/-! The start -/

section Start
variable {build : Build} {st : Helper} {p : Process}

end Start

end Drmtap
