import Drmtap.CardSelection
import Drmtap.System

/-! `drmtap_open` and `drmtap_list_devices` of drmtap.c: what they do to the descriptors of the
process, and to the mastership of the devices. -/
namespace Drmtap

open Effect

inductive DeviceCap where
  | universalPlanes
  | atomic
  | cursorPlaneHotspot

inductive DeviceOp where
  | calloc
  | capget
  | dupFd (fd least : ℤ)
  | dropMaster (fd : ℤ)
  | getVersion (fd : ℤ)
  | getDevice2 (fd : ℤ)
  | setClientCap (fd : ℤ) (cap : DeviceCap)

/-- `capget` tells the first word of the effective set, `getDevice2` the render node. -/
abbrev DeviceAns : DeviceOp → Type
  | .calloc => Bool
  | .capget => Option UInt32
  | .dupFd _ _ => ℤ
  | .dropMaster _ => Bool
  | .getVersion _ => Option String
  | .getDevice2 _ => Option (Option String)
  | .setClientCap _ _ => Bool

abbrev OpenM := Cmd OpenCtx (CardOp ⊕ DeviceOp) (Sum.elim CardAns DeviceAns)

def onCard (o : CardOp) : OpenM (CardAns o) := Cmd.call (Sum.inl o : CardOp ⊕ DeviceOp)

def onDevice (o : DeviceOp) : OpenM (DeviceAns o) := Cmd.call (Sum.inr o : CardOp ⊕ DeviceOp)

/-- The string that is left of another in a buffer of this size. -/
def snprintf (size : ℕ) (s : String) : String := String.ofList (s.toList.take (size - 1))

structure DrmtapConfig where
  devicePath : Option String
  helperPath : Option String
  crtcId : UInt32

/-- What an open context holds on to, beside the state that its calls work on. -/
structure Opened where
  drmFd : ℤ
  devicePath : String
  helperPath : String
  ctx : Ctx

def hasSysAdmin (effective : UInt32) : Bool := effective &&& ((1 : UInt32) <<< 21) ≠ 0

/-- Where `capget` is not to be had the users decide. -/
def haveCapSysAdmin : OpenM Bool := do
  match ← onDevice .capget with
  | some effective => pure (hasSysAdmin effective)
  | none => do
    let euid ← onCard .geteuid
    if euid = 0 then pure true
    else do
      let uid ← onCard .getuid
      pure (uid = 0)

/-- Mastership is given up by a caller that can do without it. -/
def giveUpMaster (fd : ℤ) : OpenM Unit := do
  let able ← haveCapSysAdmin
  if able then do
    let _ ← onDevice (.dropMaster fd)
    pure ()
  else pure ()

def openChosen : OpenM ℤ := do
  let c ← get
  if c.devicePath ≠ "" then onCard (.openNode c.devicePath)
  else Cmd.zoom id (fun _ c => c) openDrmAuto

/-- A descriptor out of the way of those that are opened and closed at the low end. -/
def raiseFd (fd : ℤ) : OpenM ℤ := do
  let high ← onDevice (.dupFd fd 100)
  if 0 ≤ high then do
    onCard (.close fd)
    pure high
  else pure fd

def detectDriver (fd : ℤ) : OpenM String := do
  match ← onDevice (.getVersion fd) with
  | some name => pure (snprintf 64 name)
  | none => pure ""

/-- The device is set up: what cannot be had is done without. -/
def setUpDevice (fd : ℤ) : OpenM String := do
  giveUpMaster fd
  let driver ← detectDriver fd
  let _ ← onDevice (.setClientCap fd .universalPlanes)
  let _ ← onDevice (.setClientCap fd .atomic)
  let _ ← onDevice (.setClientCap fd .cursorPlaneHotspot)
  pure driver

/-- `none` for NULL. Where it fails there is no descriptor to close. -/
def drmtapOpen (config : Option DrmtapConfig) : OpenM (Option Opened) := do
  let ctx ← onDevice .calloc
  if ¬ ctx then pure none
  else do
    set (OpenCtx.mk (snprintf 256 ((config.bind (·.devicePath)).getD "")))
    let fd ← openChosen
    if fd < 0 then pure none
    else do
      let fd ← raiseFd fd
      let driver ← setUpDevice fd
      let c ← get
      pure (some ⟨fd, c.devicePath, snprintf 512 ((config.bind (·.helperPath)).getD ""),
        .opened driver ((config.map (·.crtcId)).getD 0)⟩)

/-- `drmtap_device` -/
structure DrmtapDevice where
  path : String
  renderNode : String
  driver : String
  displayCount : UInt32

def deviceDriver (fd : ℤ) : OpenM String := do
  match ← onDevice (.getVersion fd) with
  | some name => pure (snprintf 32 name)
  | none => pure ""

def deviceRenderNode (fd : ℤ) : OpenM String := do
  match ← onDevice (.getDevice2 fd) with
  | some (some node) => pure (snprintf 64 node)
  | _ => pure ""

/-- A card that has no KMS resources is no device. -/
def listDevice (i : ℕ) : OpenM (Option DrmtapDevice) := do
  let fd ← onCard (.openNode (cardPath i))
  if fd < 0 then pure none
  else do
    giveUpMaster fd
    match ← onCard (.getResources fd) with
    | none => do
      onCard (.close fd)
      pure none
    | some crtcs => do
      let active ← Cmd.zoom id (fun _ c => c) (countActive fd crtcs 0)
      let driver ← deviceDriver fd
      let node ← deviceRenderNode fd
      onCard (.close fd)
      pure (some ⟨cardPath i, node, driver, .ofNat active⟩)

/-- The loop of `drmtap_list_devices`, with the devices so far. -/
def listFrom (maxCount : ℕ) : List ℕ → List DrmtapDevice → OpenM (List DrmtapDevice)
  | [], out => pure out
  | i :: rest, out =>
    if out.length < maxCount then do
      let device ← listDevice i
      listFrom maxCount rest (out ++ device.toList)
    else pure out

/-- The array that is filled, with -EINVAL where there is none or it has no room. -/
def drmtapListDevices (out : Bool) (maxCount : ℤ) : OpenM (Except ℤ (List DrmtapDevice)) :=
  if ¬ out ∨ maxCount ≤ 0 then pure (.error (-EINVAL))
  else do
    let devices ← listFrom maxCount.toNat (List.range 16) []
    pure (.ok devices)

/-! The files of the process -/

/-- Descriptors, the open files behind them, and which of these are master of their device. -/
structure Files where
  next : ℕ
  file : ℤ → Option ℕ
  path : ℕ → String
  master : Set ℕ
  /-- the files that the kernel made master when it opened them -/
  granted : Set ℕ
  file_lt : ∀ fd f, file fd = some f → f < next
  master_lt : ∀ f ∈ master, f < next
  granted_lt : ∀ f ∈ granted, f < next

namespace Files
variable (t : Files)

/-- What the kernel answers for a descriptor, by the path behind it. -/
def behind {α : Type} (fd : ℤ) (answer : String → Option α) : Option α :=
  (t.file fd).bind fun f => answer (t.path f)

def opened (fd : ℤ) (path : String) (grant : Prop) : Files where
  next := t.next + 1
  file := Function.update t.file fd (some t.next)
  path := Function.update t.path t.next path
  master := t.master ∪ {f | f = t.next ∧ grant}
  granted := t.granted ∪ {f | f = t.next ∧ grant}
  file_lt n f h := by
    by_cases hn : n = fd
    · subst hn
      rw [Function.update_self] at h
      cases h
      exact Nat.lt_succ_self _
    · rw [Function.update_of_ne hn] at h
      exact (t.file_lt n f h).trans (Nat.lt_succ_self _)
  master_lt f h := by
    rcases h with h | h
    · exact (t.master_lt f h).trans (Nat.lt_succ_self _)
    · exact h.1 ▸ Nat.lt_succ_self _
  granted_lt f h := by
    rcases h with h | h
    · exact (t.granted_lt f h).trans (Nat.lt_succ_self _)
    · exact h.1 ▸ Nat.lt_succ_self _

/-- A file goes with the last of its descriptors, and its mastership with it. -/
def closed (fd : ℤ) : Files where
  next := t.next
  file := Function.update t.file fd none
  path := t.path
  master := {f ∈ t.master | t.file fd = some f → ∃ n, n ≠ fd ∧ t.file n = some f}
  granted := t.granted
  file_lt n f h := by
    by_cases hn : n = fd
    · subst hn
      rw [Function.update_self] at h
      cases h
    · rw [Function.update_of_ne hn] at h
      exact t.file_lt n f h
  master_lt f h := t.master_lt f h.1
  granted_lt := t.granted_lt

def duped (fd high : ℤ) : Files where
  next := t.next
  file := Function.update t.file high (t.file fd)
  path := t.path
  master := t.master
  granted := t.granted
  file_lt n f h := by
    by_cases hn : n = high
    · subst hn
      rw [Function.update_self] at h
      exact t.file_lt fd f h
    · rw [Function.update_of_ne hn] at h
      exact t.file_lt n f h
  master_lt := t.master_lt
  granted_lt := t.granted_lt

def dropped (fd : ℤ) : Files where
  next := t.next
  file := t.file
  path := t.path
  master := {f ∈ t.master | t.file fd ≠ some f}
  granted := t.granted
  file_lt := t.file_lt
  master_lt f h := t.master_lt f h.1
  granted_lt := t.granted_lt

end Files

/-- A call is about an open file. -/
def Files.Knows (t : Files) : CardOp → Prop
  | .close fd | .getResources fd | .getCrtc fd _ => (t.file fd).isSome
  | _ => True

/-- A machine with its cards, as a process with these rights sees it. -/
structure DeviceHost extends CardHost where
  effective : Option UInt32
  /-- there is memory for a context -/
  memory : Bool
  /-- a descriptor from 100 on is free -/
  room : Bool
  driver : String → Option String
  renderNode : String → Option (Option String)
  /-- `count_crtcs` is an int. -/
  few : ∀ path card crtcs, node path = some card → card.resources = some crtcs →
    crtcs.length < 2 ^ 31

namespace DeviceHost
variable (host : DeviceHost)

/-- `drmModeGetFB2` does without mastership. -/
def SysAdmin : Prop :=
  match host.effective with
  | some effective => hasSysAdmin effective
  | none => host.euid = 0 ∨ host.uid = 0

/-- The kernel makes a file master if no other is. -/
def cardStep (t : Files) : (o : CardOp) → CardAns o → Files → Prop
  | .getuid, r, t' => r = host.uid ∧ t' = t
  | .geteuid, r, t' => r = host.euid ∧ t' = t
  | .secureGetenv _, r, t' => r = host.drmDevice ∧ t' = t
  | .openNode path, fd, t' =>
    match host.node path with
    | none => fd < 0 ∧ t' = t
    | some _ => 0 ≤ fd ∧ t.file fd = none ∧ ∃ grant, t' = t.opened fd path grant
  | .close fd, _, t' => t' = t.closed fd
  | .getResources fd, r, t' => r = (t.behind fd host.node).bind Card.resources ∧ t' = t
  | .getCrtc fd id, r, t' => r = (t.behind fd host.node).bind (·.crtc id) ∧ t' = t

def deviceStep (t : Files) : (o : DeviceOp) → DeviceAns o → Files → Prop
  | .calloc, r, t' => r = host.memory ∧ t' = t
  | .capget, r, t' => r = host.effective ∧ t' = t
  | .dupFd fd least, high, t' =>
    if host.room then least ≤ high ∧ t.file high = none ∧ t' = t.duped fd high
    else high < 0 ∧ t' = t
  | .dropMaster fd, _, t' => t' = t.dropped fd
  | .getVersion fd, r, t' => r = t.behind fd host.driver ∧ t' = t
  | .getDevice2 fd, r, t' => r = t.behind fd host.renderNode ∧ t' = t
  | .setClientCap _ _, _, t' => t' = t

/-- A caller that cannot do without its mastership must keep it. -/
def deviceLegal (t : Files) : DeviceOp → Prop
  | .dupFd fd _ | .getVersion fd | .getDevice2 fd | .setClientCap fd _ => (t.file fd).isSome
  | .dropMaster fd => (t.file fd).isSome ∧ host.SysAdmin
  | _ => True

abbrev files : Effect.Env (CardOp ⊕ DeviceOp) (Sum.elim CardAns DeviceAns) where
  State := Files
  legal t
    | .inl o => t.Knows o
    | .inr o => host.deviceLegal t o
  step t
    | .inl o => host.cardStep t o
    | .inr o => host.deviceStep t o

end DeviceHost

end Drmtap
