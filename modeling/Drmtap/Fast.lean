import Drmtap.Grab

/-! The fast path: each framebuffer that comes up gets a slot, whose mapping is kept. -/
namespace Drmtap

open Memory Effect

abbrev SlotId := Fin drmtapFastSlots

namespace Ctx

def setSlot (c : Ctx) (i : SlotId) (slot : FastSlot) : Ctx :=
  { c with fastSlots := Function.update c.fastSlots i slot }

def setFastPlane (c : Ctx) (planeId : UInt32) : Ctx := { c with fastPlaneId := planeId }

def setFastLast (c : Ctx) (fbId : UInt32) : Ctx := { c with fastLastFbId := fbId }

def setFastNoCpuMap (c : Ctx) : Ctx := { c with fastNoCpuMap := true }

def setFastNoPrivilege (c : Ctx) : Ctx := { c with fastNoPrivilege := true }

/-- `fast_no_privilege` is a property of the process, and stays. -/
def resetFast (c : Ctx) : Ctx :=
  { c with fastPlaneId := 0, fastLastFbId := 0, fastInitialized := false, fastNoCpuMap := false }

def initFast (c : Ctx) : Ctx :=
  { c with
    fastSlots := fun _ => .empty
    fastLastFbId := 0
    fastNoCpuMap := false
    fastInitialized := true }

/-- The plane layout that was captured with a slot. -/
def restage (c : Ctx) (slot : FastSlot) : Ctx :=
  { c with
    fb2NumPlanes := slot.fb2NumPlanes
    fb2Pitches := slot.fb2Pitches
    fb2Offsets := slot.fb2Offsets }

def findSlot (c : Ctx) (p : FastSlot → Bool) : Option SlotId :=
  (List.finRange drmtapFastSlots).find? fun i => p (c.fastSlots i)

end Ctx

namespace FastSlot

/-- The slot holds the mapping of this framebuffer. -/
def caches (slot : FastSlot) (fbId : UInt32) : Bool := slot.fbId = fbId ∧ slot.mmapPtr.isSome

def frame (slot : FastSlot) (fbId : UInt32) : FrameInfo where
  data := slot.mmapPtr
  dmaBufFd := slot.primeFd
  width := slot.width
  height := slot.height
  stride := slot.stride
  format := slot.format
  modifier := slot.modifier
  fbId := fbId
  priv := none

end FastSlot

def getSlot (i : SlotId) : M FastSlot := do return (← getCtx).fastSlots i

def setSlot (i : SlotId) (slot : FastSlot) : M Unit := modifyCtx (·.setSlot i slot)

/-- `for (i = 0; i < DRMTAP_FAST_SLOTS; i++)` -/
def forSlots (body : SlotId → M Unit) : List SlotId → M Unit
  | [] => pure ()
  | i :: rest => do
    body i
    forSlots body rest

/-! Windows -/

def closeWindow (i : SlotId) : M Unit := do
  let slot ← getSlot i
  if slot.syncStarted ∧ 0 ≤ slot.primeFd then do
    sys (.dmabufSyncEnd slot.primeFd)
    setSlot i { slot with syncStarted := false }
  else setSlot i { slot with syncStarted := false }

def fastSyncClose : M Unit := forSlots closeWindow (List.finRange drmtapFastSlots)

def fastSyncBegin (i : SlotId) : M Unit := do
  fastSyncClose
  let slot ← getSlot i
  if 0 ≤ slot.primeFd then do
    let started ← sys (.dmabufSyncStart slot.primeFd)
    setSlot i { slot with syncStarted := started }
  else pure ()

/-! Slots -/

def unmapSlot (slot : FastSlot) : M Unit :=
  match slot.mmapPtr with
  | some mapped => munmap ⟨mapped.base, slot.mmapSize⟩
  | none => pure ()

/-- Gives back what a slot holds, and clears it. -/
def dropSlot (i : SlotId) : M Unit := do
  let slot ← getSlot i
  unmapSlot slot
  closeFd slot.primeFd
  drmtapGemClose slot.gemHandle
  setSlot i .empty

def drmtapFastCleanup : M Unit := do
  fastSyncClose
  forSlots dropSlot (List.finRange drmtapFastSlots)
  modifyCtx Ctx.resetFast

/-- Evicts the oldest slot. -/
def evictSlot : M SlotId := do
  let slot ← getSlot 0
  if slot.syncStarted ∧ 0 ≤ slot.primeFd then do
    sys (.dmabufSyncEnd slot.primeFd)
    setSlot 0 { slot with syncStarted := false }
    dropSlot 0
    pure 0
  else do
    dropSlot 0
    pure 0

def findOrAllocSlot (fbId : UInt32) : M SlotId := do
  let ctx ← getCtx
  match ctx.findSlot fun slot => slot.fbId = fbId with
  | some i => pure i
  | none =>
    match ctx.findSlot fun slot => slot.fbId = 0 with
    | some i => pure i
    | none => evictSlot

/-! A grab -/

/-- Converts a frame, and names the plane it came from. -/
def processFast (frame : FrameInfo) : M (ℤ × FrameInfo) := do
  let (pr, frame) ← gpuAutoProcess wrap32 frame.data frame false
  if pr ≠ 0 then pure (pr, frame)
  else do
    let ctx ← getCtx
    modifyCtx (·.setGrabPlane ctx.fastPlaneId)
    pure (0, frame)

/-- Makes the bytes of a cached buffer current. -/
def refreshSlot (i : SlotId) : M (Option Errno) := do
  let ctx ← getCtx
  let slot := ctx.fastSlots i
  if isVirtioGpu ctx then do
    match ← virtioTransferFromHost slot.gemHandle slot.fbWidth slot.height with
    | some e => pure (some e)
    | none => do
      fastSyncClose
      pure none
  else do
    fastSyncBegin i
    pure none

/-- The frame of a cached buffer, under the plane layout that was captured with it. -/
def showSlot (i : SlotId) (fbId : UInt32) : M (ℤ × FrameInfo) := do
  let slot ← getSlot i
  modifyCtx (·.restage slot)
  processFast (slot.frame fbId)

/-- Step 3: the framebuffer is still the one of the last grab. -/
def fastSame (i : SlotId) (fbId : UInt32) (frame : FrameInfo) : M (ℤ × FrameInfo) := do
  match ← refreshSlot i with
  | some e => pure (e.neg, frame)
  | none => showSlot i fbId

/-- Another framebuffer, whose mapping is cached. -/
def fastHit (i : SlotId) (fbId : UInt32) (frame : FrameInfo) : M (ℤ × FrameInfo) := do
  match ← refreshSlot i with
  | some e => pure (e.neg, frame)
  | none => do
    modifyCtx (·.setFastLast fbId)
    showSlot i fbId

/-- Maps the buffer of a framebuffer, with whether CPU access to it was begun. -/
def mapFast (fb2 : Fb2) (primeFd : ℤ) : M (Option Slice × Bool) := do
  let size := (fb2.pitches 0).toNat * fb2.height.toNat
  match ← mapVirtio fb2 size with
  | some mapped => pure (some mapped, false)
  | none => do
    let ctx ← getCtx
    if ctx.fastNoCpuMap then pure (none, false)
    else do
      let started ← sys (.dmabufSyncStart primeFd)
      match ← mmap (.fd primeFd) size (fb2.offsets 0).toNat with
      | .ok mapped =>
        -- the test hook drops a mapping that was made
        if ← sys .forceMmapFail then do
          munmap mapped
          modifyCtx Ctx.setFastNoCpuMap
          pure (none, started)
        else pure (some mapped, started)
      | .error _ => do
        modifyCtx Ctx.setFastNoCpuMap
        pure (none, started)

/-- Gives back an exported buffer that no slot will hold. -/
def dropBuffer (primeFd : ℤ) (started : Bool) (handle : UInt32) : M Unit := do
  if started then do
    sys (.dmabufSyncEnd primeFd)
    sys (.close primeFd)
    drmtapGemClose handle
  else do
    sys (.close primeFd)
    drmtapGemClose handle

def frameOfFd (fb2 : Fb2) (fbId width : UInt32) (primeFd : ℤ) : FrameInfo where
  data := none
  dmaBufFd := primeFd
  width := width
  height := fb2.height
  stride := fb2.pitches 0
  format := fb2.pixelFormat
  modifier := fb2EffectiveModifier fb2
  fbId := fbId
  priv := none

/-- A buffer that cannot be mapped: the EGL backend reads it through its descriptor, or nobody
does. -/
def fastUnmapped (fb2 : Fb2) (fbId : UInt32) (primeFd : ℤ) (started : Bool) (frame : FrameInfo) :
    M (ℤ × FrameInfo) := do
  if ← sys .eglAvailable then do
    let width ← drmtapScanoutWidth fb2.width (fb2EffectiveModifier fb2)
    let (pr, frame) ← gpuAutoProcess wrap32 none (frameOfFd fb2 fbId width primeFd) false
    let pr := if pr = 0 ∧ frame.data = none then - EIO else pr
    dropBuffer primeFd started (fb2.handles 0)
    modifyCtx (·.setFastLast 0)
    if pr ≠ 0 then pure (pr, { frame with dmaBufFd := -1 })
    else do
      let ctx ← getCtx
      modifyCtx (·.setGrabPlane ctx.fastPlaneId)
      pure (0, { frame with dmaBufFd := -1 })
  else do
    dropBuffer primeFd started (fb2.handles 0)
    pure (- ENOMEM, frame)

/-- The slot of a new mapping. -/
def slotOfFb2 (fb2 : Fb2) (fbId width : UInt32) (primeFd : ℤ) (mapped : Slice) (started : Bool)
    (ctx : Ctx) : FastSlot where
  fbId := fbId
  gemHandle := fb2.handles 0
  primeFd := primeFd
  mmapPtr := some mapped
  mmapSize := (fb2.pitches 0).toNat * fb2.height.toNat
  width := width
  height := fb2.height
  stride := fb2.pitches 0
  fbWidth := fb2.width
  format := fb2.pixelFormat
  modifier := fb2EffectiveModifier fb2
  fb2NumPlanes := ctx.fb2NumPlanes
  fb2Pitches := ctx.fb2Pitches
  fb2Offsets := ctx.fb2Offsets
  syncStarted := started

/-- Keeps a new mapping. The width is the one scanned out now. -/
def storeSlot (i : SlotId) (fb2 : Fb2) (fbId : UInt32) (primeFd : ℤ) (mapped : Slice)
    (started : Bool) : M (ℤ × FrameInfo) := do
  let width ← drmtapScanoutWidth fb2.width (fb2EffectiveModifier fb2)
  let ctx ← getCtx
  let slot := slotOfFb2 fb2 fbId width primeFd mapped started ctx
  setSlot i slot
  modifyCtx (·.setFastLast fbId)
  processFast (slot.frame fbId)

/-- From the exported descriptor on. -/
def fastExported (i : SlotId) (fb2 : Fb2) (fbId : UInt32) (primeFd : ℤ) (frame : FrameInfo) :
    M (ℤ × FrameInfo) := do
  match ← mapFast fb2 primeFd with
  | (some mapped, started) => storeSlot i fb2 fbId primeFd mapped started
  | (none, started) => fastUnmapped fb2 fbId primeFd started frame

/-- A framebuffer that is seen for the first time. -/
def fastMiss (i : SlotId) (fbId : UInt32) (frame : FrameInfo) : M (ℤ × FrameInfo) := do
  match ← sys (.getFB2 fbId) with
  | .error e => pure (e.neg, frame)
  | .ok fb2 => do
    closeAuxiliaryGemHandles fb2
    if fb2.handles 0 = 0 then do
      modifyCtx Ctx.setFastNoPrivilege
      drmtapFastCleanup
      pure (- EACCES, frame)
    else do
      let ret := checkGeometry fb2.width fb2.height (fb2.pitches 0)
      if ret ≠ 0 then do
        drmtapGemClose (fb2.handles 0)
        pure (ret, frame)
      else do
        modifyCtx (·.stageFb2 fb2)
        match ← sys (.primeHandleToFD (fb2.handles 0)) with
        | .error e => do
          drmtapGemClose (fb2.handles 0)
          pure (e.neg, frame)
        | .ok primeFd => fastExported i fb2 fbId primeFd frame

/-- Step 4 -/
def fastFlip (fbId : UInt32) (frame : FrameInfo) : M (ℤ × FrameInfo) := do
  fastSyncClose
  let i ← findOrAllocSlot fbId
  let slot ← getSlot i
  if slot.caches fbId then fastHit i fbId frame else fastMiss i fbId frame

/-- The slot of the last grab, if this is its framebuffer. -/
def Ctx.lastSlot (c : Ctx) (fbId : UInt32) : Option SlotId :=
  if fbId = c.fastLastFbId then c.findSlot fun slot => slot.caches fbId else none

def fastFrame (fbId : UInt32) (frame : FrameInfo) : M (ℤ × FrameInfo) := do
  let ctx ← getCtx
  match ctx.lastSlot fbId with
  | some i => fastSame i fbId frame
  | none => fastFlip fbId frame

/-- Step 1: the plane is found once. False if there is none. -/
def startFast : M Bool := do
  let ctx ← getCtx
  if ctx.fastInitialized then pure true
  else do
    let planeId ← findPrimaryPlane
    modifyCtx (·.setFastPlane planeId)
    readHdrForCurrentCrtc
    if planeId = 0 then pure false
    else do
      modifyCtx Ctx.initFast
      pure true

/-- Step 2: the framebuffer on the plane, 0 if there is none. -/
def readFastFb : M UInt32 := do
  let ctx ← getCtx
  match ← sys (.getPlane ctx.fastPlaneId) with
  | none => pure 0
  | some plane => pure plane.fbId

def drmtapGrabMappedFast (frame : FrameInfo) : M (ℤ × FrameInfo) := do
  let ctx ← getCtx
  if ctx.isRenderOnly then pure (- ENOTSUP, frame)
  else if ctx.fastNoPrivilege then pure (- EACCES, frame)
  else if ¬ (← startFast) then pure (- ENODEV, frame)
  else do
    let fbId ← readFastFb
    if fbId = 0 then do
      drmtapFastCleanup
      pure (- ENODEV, frame)
    else fastFrame fbId frame

/-! The context -/

/-- What a context holds is given back: the slots, the EGL state of the thread, the helper, the
descriptor of the device, which is `drmFd` from the open to here, and the buffers. -/
def drmtapClose (drmFd : ℤ) : M Unit := do
  drmtapFastCleanup
  sys .eglThreadCleanup
  drmtapHelperStop
  closeFd drmFd
  let ctx ← getCtx
  freeBuf ctx.deswizzleBuf
  modifyCtx (·.setShadow none)
  freeBuf ctx.pixelBuf
  modifyCtx (·.setPixelBuf none)

def Ctx.setUserOut (c : Ctx) (out : Option Slice) : Ctx := { c with userOut := out }

/-- No destination goes back to the buffer of the context. -/
def drmtapSetOutputBuffer (dst : Option Slice) : M ℤ :=
  match dst with
  | none => do
    modifyCtx (·.setUserOut none)
    pure 0
  | some out =>
    if out.len = 0 then pure (- EINVAL)
    else do
      modifyCtx (·.setUserOut (some out))
      pure 0

end Drmtap
