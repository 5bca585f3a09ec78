import Drmtap.Grab
import Drmtap.HelperClient

/-! cursor.c: the cursor plane, read directly or through the helper. -/
namespace Drmtap

open Memory Effect

/-! Hotspot provenance -/

/-- `drmtap_cursor_set_hot_provenance` -/
def CursorInfo.setHotProvenance (cursor : CursorInfo) (measured : Bool) : CursorInfo :=
  { cursor with hot := some measured }

def drmtapCursorHotspotValid (cursor : CursorInfo) : Except ℤ Bool :=
  match cursor.hot with
  | none => .error (- ENOTSUP)
  | some measured => .ok measured

/-! The cursor plane -/

/-- The type of a plane is read, and says CURSOR. -/
def planeTypeIsCursor (planeId : UInt32) : M Bool := do
  let (type, found) ← getPropValFound planeId .plane "type"
  pure (found && type = drmPlaneTypeCursor)

/-- The first cursor plane that is bound to the CRTC, or to any when there is no target. -/
def searchCursorPlane (targetCrtc : UInt32) : List UInt32 → M UInt32
  | [] => pure 0
  | id :: ids => do
    match ← sys (.getPlane id) with
    | none => searchCursorPlane targetCrtc ids
    | some plane =>
      if (if targetCrtc ≠ 0 then plane.crtcId = targetCrtc else plane.crtcId ≠ 0) then do
        let isCursor ← planeTypeIsCursor plane.planeId
        if isCursor then pure plane.planeId else searchCursorPlane targetCrtc ids
      else searchCursorPlane targetCrtc ids

def findCursorPlane : M UInt32 := do
  match ← sys .getPlaneResources with
  | .error _ => pure 0
  | .ok planes => do
    let ctx ← getCtx
    searchCursorPlane ctx.crtcId planes

/-! Its pixels -/

/-- A hardware cursor is small; the width is bounded before it is multiplied. -/
def CursorFits (fb2 : Fb2) : Prop :=
  fb2.width ≤ 256 ∧ fb2.height ≤ 256 ∧ fb2.pitches 0 ≠ 0 ∧ fb2.width * 4 ≤ fb2.pitches 0

instance (fb2 : Fb2) : Decidable (CursorFits fb2) := by
  unfold CursorFits
  infer_instance

/-- The rows of the source, packed. -/
def packRows (pixels mapped : Slice) (width height stride : ℕ) : Heap → Option Heap :=
  forUpTo height fun y h => h.memcpy pixels (y * width * 4) mapped (y * stride) (width * 4)

/-- A packed copy of the mapped cursor, if there is memory for one. -/
def copyCursor (mapped : Slice) (fb2 : Fb2) : M (Option Slice) := do
  match ← malloc (fb2.width.toNat * fb2.height.toNat * 4) with
  | none => pure none
  | some pixels => do
    onHeap fun h => (packRows pixels mapped fb2.width.toNat fb2.height.toNat
      (fb2.pitches 0).toNat h).map ((), ·)
    pure (some pixels)

/-- The copy is made between the two halves of a sync, if the first one took. -/
def readMappedCursor (mapped : Slice) (primeFd : ℤ) (fb2 : Fb2) : M (Option Slice) := do
  let started ← sys (.dmabufSyncStart primeFd)
  let pixels ← copyCursor mapped fb2
  if started then do
    sys (.dmabufSyncEnd primeFd)
    pure pixels
  else pure pixels

def mapAndReadCursor (primeFd : ℤ) (fb2 : Fb2) : M (Option Slice) :=
  if CursorFits fb2 then do
    match ← mmap (.fd primeFd) ((fb2.pitches 0).toNat * fb2.height.toNat) 0 with
    | .error _ => pure none
    | .ok mapped => do
      let pixels ← readMappedCursor mapped primeFd fb2
      munmap mapped
      pure pixels
  else pure none

/-- The pixels of a framebuffer whose handle was given out. -/
def exportCursor (fb2 : Fb2) : M (Option Slice) :=
  if fb2.handles 0 ≠ 0 then do
    match ← sys (.primeHandleToFD (fb2.handles 0)) with
    | .error _ => pure none
    | .ok primeFd => do
      let pixels ← mapAndReadCursor primeFd fb2
      sys (.close primeFd)
      pure pixels
  else pure none

/-! The call -/

def drmtapCursorNeedsHelper (fb2Ok : Bool) (err : ℤ) (hadHandle : Bool) : Bool :=
  if fb2Ok then !hadHandle else err = EACCES || err = EPERM

/-- A visible cursor with its place and its hotspot. -/
def readPlacement (planeId : UInt32) : M CursorInfo := do
  let (crtcX, _) ← getPropValFound planeId .plane "CRTC_X"
  let (crtcY, _) ← getPropValFound planeId .plane "CRTC_Y"
  let (hotX, haveHotX) ← getPropValFound planeId .plane "HOTSPOT_X"
  let (hotY, haveHotY) ← getPropValFound planeId .plane "HOTSPOT_Y"
  let cursor := { CursorInfo.cleared with
    visible := true, x := .ofUInt32 crtcX.toUInt32, y := .ofUInt32 crtcY.toUInt32,
    hotX := .ofUInt32 hotX.toUInt32, hotY := .ofUInt32 hotY.toUInt32 }
  pure (cursor.setHotProvenance (wireHotMeasured haveHotX haveHotY ≠ 0))

/-- The framebuffer of a visible cursor. The helper is asked when privilege is all that is
missing. -/
def readCursorFb (fbId : UInt32) (cursor : CursorInfo) : M (ℤ × CursorInfo) := do
  match ← sys (.getFB2 fbId) with
  | .error e =>
    if drmtapCursorNeedsHelper false e.code false then drmtapHelperGetCursor
    else pure (0, { cursor with pixels := none })
  | .ok fb2 => do
    let pixels ← exportCursor fb2
    drmtapGemClose (fb2.handles 0)
    if pixels.isNone && drmtapCursorNeedsHelper true 0 (fb2.handles 0 ≠ 0) then
      drmtapHelperGetCursor
    else pure (0, { cursor with width := fb2.width, height := fb2.height, pixels := pixels })

def getCursorDirect : M (ℤ × CursorInfo) := do
  let cursorPlaneId ← findCursorPlane
  if cursorPlaneId = 0 then pure (0, CursorInfo.cleared.setHotProvenance false)
  else
    match ← sys (.getPlane cursorPlaneId) with
    | none => pure (- ENODEV, .cleared)
    | some plane =>
      if plane.fbId = 0 then pure (0, CursorInfo.cleared.setHotProvenance false)
      else do
        let cursor ← readPlacement cursorPlaneId
        readCursorFb plane.fbId cursor

def drmtapGetCursor : M (ℤ × CursorInfo) := do
  let ctx ← getCtx
  if 0 ≤ ctx.helperFd then drmtapHelperGetCursor else getCursorDirect

def drmtapCursorRelease (cursor : CursorInfo) : M CursorInfo := do
  freeBuf cursor.pixels
  pure { cursor with pixels := none, hot := none }

/-! The search for the plane and the look at its properties read, and change nothing. -/

section Reads

theorem searchCursorPlane_reads (targetCrtc : UInt32) (ids : List UInt32) :
    Cmd.Reads KmsOp (searchCursorPlane targetCrtc ids) := by
  induction ids with
  | nil => exact .pure _
  | cons id ids ih =>
    apply Cmd.Reads.bind (.call trivial)
    rintro (_ | plane)
    · exact ih
    · refine .ite (.bind ?_ fun isCursor => .ite (.pure _) ih) ih
      exact .bind (getPropValFound_reads _ _ _) fun _ => .pure _

theorem findCursorPlane_reads : Cmd.Reads KmsOp findCursorPlane := by
  apply Cmd.Reads.bind (.call trivial)
  rintro (e | planes)
  · exact .pure _
  · exact .bind (fun m => rfl) fun ctx => searchCursorPlane_reads _ _

theorem readPlacement_reads (planeId : UInt32) : Cmd.Reads KmsOp (readPlacement planeId) := by
  have hprop (name : String) : Cmd.Reads KmsOp (getPropValFound (S := Machine) planeId .plane name) :=
    getPropValFound_reads planeId .plane name
  exact .bind (hprop _) fun _ => .bind (hprop _) fun _ => .bind (hprop _) fun _ =>
    .bind (hprop _) fun _ => .pure _

end Reads

end Drmtap
