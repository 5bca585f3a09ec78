import Drmtap.AutoProcess
import Drmtap.HelperClient
import Drmtap.Scanout

/-! `do_grab` and its public forms: one frame of the captured CRTC, read directly or through
the helper. -/
namespace Drmtap

open Memory Effect

def drmtapGemClose (handle : UInt32) : M Unit :=
  if handle = 0 then pure () else sys (.gemClose handle)

/-- Closes the handle of one plane, unless an earlier plane has the same one. -/
def closeAuxiliary (fb2 : Fb2) (p : Fin 4) : M Unit :=
  if fb2.handles p = 0 ∨ fb2.handles p = fb2.handles 0 ∨
      ∃ q : Fin 4, 1 ≤ q.val ∧ q < p ∧ fb2.handles q = fb2.handles p then pure ()
  else drmtapGemClose (fb2.handles p)

def closeAuxiliaryGemHandles (fb2 : Fb2) : M Unit := do
  closeAuxiliary fb2 1
  closeAuxiliary fb2 2
  closeAuxiliary fb2 3

/-- The planes of a framebuffer: up to the last one with a handle or a pitch. -/
def Fb2.numPlanes (fb2 : Fb2) : ℕ :=
  (List.finRange 4).foldl
    (fun n p => if fb2.handles p ≠ 0 ∨ fb2.pitches p ≠ 0 then p.val + 1 else n) 0

namespace Ctx

/-- The plane layout of a framebuffer, for the EGL import. -/
def stageFb2 (c : Ctx) (fb2 : Fb2) : Ctx :=
  { c with fb2NumPlanes := fb2.numPlanes, fb2Pitches := fb2.pitches, fb2Offsets := fb2.offsets }

def setPixelBuf (c : Ctx) (buf : Option Slice) : Ctx := { c with pixelBuf := buf }

def setGrabPlane (c : Ctx) (planeId : UInt32) : Ctx := { c with grabPlaneId := planeId }

end Ctx

def readHdrForCurrentCrtc : M Unit := do
  let ctx ← getCtx
  readHdrMetadataDirect ctx.crtcId

/-! Releasing -/

/-- Unmaps the pixels, and ends the access that was begun on them. -/
def unmapPriv (priv : FramePriv) : M Unit :=
  match priv.mapped with
  | none => pure ()
  | some mapped =>
    if priv.mappedSize = 0 then pure ()
    else if priv.syncStarted ∧ 0 ≤ priv.primeFd then do
      sys (.dmabufSyncEnd priv.primeFd)
      munmap ⟨mapped.base, priv.mappedSize⟩
    else munmap ⟨mapped.base, priv.mappedSize⟩

def drmtapFrameRelease (frame : FrameInfo) : M FrameInfo :=
  match frame.priv with
  | none => pure .cleared
  | some priv => do
    unmapPriv priv
    closeFd priv.primeFd
    drmtapGemClose priv.gemHandle
    freePriv priv.self
    pure .cleared

/-- The `cleanup` label, for a frame that has no private data yet. -/
def grabCleanup (frame : FrameInfo) (pendingGem : UInt32) (primeFd : ℤ) (ret : ℤ) :
    M (ℤ × FrameInfo) := do
  closeFd primeFd
  drmtapGemClose pendingGem
  pure (ret, { frame with priv := none, dmaBufFd := -1 })

/-- The `cleanup` label, for one that has. -/
def grabCleanupPriv (frame : FrameInfo) (priv : FramePriv) (ret : ℤ) : M (ℤ × FrameInfo) := do
  closeFd priv.primeFd
  drmtapGemClose priv.gemHandle
  freePriv priv.self
  pure (ret, { frame with priv := none, dmaBufFd := -1 })

/-! What `do_grab` reads of the scanout. -/

/-- Steps 1 to 3: the plane, its framebuffer, and what GetFB2 says of it. -/
def readScanout : M (Except ℤ (UInt32 × UInt32 × Fb2)) := do
  let planeId ← findPrimaryPlane
  readHdrForCurrentCrtc
  if planeId = 0 then pure (.error (- ENODEV))
  else
    match ← sys (.getPlane planeId) with
    | none => pure (.error (- ENODEV))
    | some plane =>
      if plane.fbId = 0 then pure (.error (- ENODEV))
      else
        match ← sys (.getFB2 plane.fbId) with
        | .error e => pure (.error e.neg)
        | .ok fb2 => pure (.ok (planeId, plane.fbId, fb2))

/-- A frame on its way out of `do_grab`. -/
inductive Prepared where
  /-- nothing is left to do -/
  | done (ret : ℤ) (frame : FrameInfo)
  /-- the frame and its private data are filled -/
  | ready (planeId : UInt32) (frame : FrameInfo) (isVirgl : Bool)
  /-- so they are, but the buffer cannot be mapped -/
  | unmapped (planeId : UInt32) (frame : FrameInfo) (priv : FramePriv) (e : Errno)

/-! Through the helper -/

/-- The frame the helper describes. Its descriptor is 0 after the `memset`. -/
def frameOfWire (wire : GrabWire) (width : UInt32) : FrameInfo where
  data := none
  dmaBufFd := 0
  width := width
  height := wire.height
  stride := wire.stride
  format := wire.format
  modifier := wire.modifier
  fbId := wire.fbId
  priv := none

/-- The checks on what came over the wire. -/
def checkWireFrame (frame : FrameInfo) : ℤ :=
  if checkGeometry frame.width frame.height frame.stride ≠ 0 then
    checkGeometry frame.width frame.height frame.stride
  else if frame.stride.toNat < frame.width.toNat * formatMinBpp frame.format then -EINVAL
  else 0

def privOfHelper (self : Slice) : FramePriv where
  self := self
  primeFd := -1
  mapped := none
  mappedSize := 0
  gemHandle := 0
  usedDumbMap := true
  syncStarted := false

/-- V3: the helper passed a descriptor. -/
def preparePassed (planeId : UInt32) (self : Slice) (frame : FrameInfo) (wire : GrabWire)
    (dmabufFd : ℤ) : M Prepared := do
  let isVirgl : Bool := wire.flags &&& helperFlagVirgl ≠ 0
  let size := frame.stride.toNat * frame.height.toNat
  let priv := { privOfHelper self with primeFd := dmabufFd }
  match ← mmap (.fd dmabufFd) size 0 with
  | .ok mapped => do
    let started ← sys (.dmabufSyncStart dmabufFd)
    let priv := { priv with
      mapped := some mapped, mappedSize := size, usedDumbMap := false, syncStarted := started }
    pure (.ready planeId
      { frame with data := some mapped, dmaBufFd := dmabufFd, priv := some priv } isVirgl)
  | .error _ =>
    pure (.ready planeId { frame with data := none, dmaBufFd := dmabufFd, priv := some priv } isVirgl)

/-- V2: the helper sent the pixels. -/
def preparePixels (planeId : UInt32) (self pixelBuf : Slice) (frame : FrameInfo)
    (wire : GrabWire) : M Prepared := do
  if wire.dataSize.toNat ≠ frame.stride.toNat * frame.height.toNat then do
    freePriv self
    pure (.done (- EPROTO) frame)
  else
    pure (.ready planeId
      { frame with dmaBufFd := -1, data := some pixelBuf, priv := some (privOfHelper self) } false)

/-- The frame of a reply. -/
def prepareReply (planeId : UInt32) (self pixelBuf : Slice) (reply : HelperGrabResult) :
    M Prepared := do
  let wire := reply.wire
  let width ← drmtapScanoutWidth wire.width wire.modifier
  let frame := frameOfWire wire width
  modifyCtx (·.setHdr (wire.hdrEotf, wire.hdrMaxNits))
  let ret := checkWireFrame frame
  if ret ≠ 0 then do
    closeFd reply.dmabufFd
    freePriv self
    pure (.done ret frame)
  else if 0 ≤ reply.dmabufFd then preparePassed planeId self frame wire reply.dmabufFd
  else preparePixels planeId self pixelBuf frame wire

/-- A grab by the helper, into a buffer of the context. -/
def askHelper (planeId : UInt32) (frame : FrameInfo) (pixelBuf : Slice) (bufSize : ℕ) :
    M Prepared := do
  let (ret, reply) ← drmtapHelperGrab pixelBuf bufSize
  if ret < 0 then do
    let (ret, frame) ← grabCleanup frame 0 (-1) (- EACCES)
    pure (.done ret frame)
  else
    match ← callocPriv with
    | none => do
      closeFd reply.dmabufFd
      pure (.done (- ENOMEM) frame)
    | some self => prepareReply planeId self pixelBuf reply

def prepareByHelper (planeId : UInt32) (fb2 : Fb2) (frame : FrameInfo) : M Prepared := do
  let bufSize := (fb2.pitches 0).toNat * fb2.height.toNat
  let ctx ← getCtx
  let (ret, buf) ← drmtapEnsureBuf ctx.pixelBuf bufSize
  modifyCtx (·.setPixelBuf buf)
  match buf with
  | some pixelBuf =>
    if ret ≠ 0 then pure (.done ret frame) else askHelper planeId frame pixelBuf bufSize
  | none => pure (.done ret frame)

/-! Directly -/

/-- Fetches a virtio-gpu buffer from the host; an error if that fails. -/
def virtioTransferFromHost (handle width height : UInt32) : M (Option Errno) := do
  match ← sys (.virtTransferFromHost handle width height) with
  | some e => pure (some e)
  | none => sys (.virtWait handle)

def virtioDumbMmap (handle : UInt32) (size : ℕ) : M (Except Errno Slice) := do
  match ← sys (.modeMapDumb handle) with
  | .error e => pure (.error e)
  | .ok off => mmap .drm size off

def isVirtioGpu (ctx : Ctx) : Bool := ctx.driverName = "virtio_gpu"

/-- The dumb map of a virtio-gpu buffer. -/
def mapVirtio (fb2 : Fb2) (size : ℕ) : M (Option Slice) := do
  let ctx ← getCtx
  if isVirtioGpu ctx then do
    match ← virtioTransferFromHost (fb2.handles 0) fb2.width fb2.height with
    | some _ => pure none
    | none => do
      match ← virtioDumbMmap (fb2.handles 0) size with
      | .ok mapped => pure (some mapped)
      | .error _ => pure none
  else pure none

/-- Maps a framebuffer, with whether that is its dumb map. -/
def mapFramebuffer (fb2 : Fb2) (primeFd : ℤ) (size : ℕ) : M (Except Errno (Slice × Bool)) := do
  match ← mapVirtio fb2 size with
  | some mapped => pure (.ok (mapped, true))
  | none => do
    match ← mmap (.fd primeFd) size (fb2.offsets 0).toNat with
    | .ok mapped => pure (.ok (mapped, false))
    | .error e => pure (.error e)

def privOfDirect (self : Slice) (primeFd : ℤ) (gemHandle : UInt32) : FramePriv where
  self := self
  primeFd := primeFd
  mapped := none
  mappedSize := 0
  gemHandle := gemHandle
  usedDumbMap := false
  syncStarted := false

def frameOfFb2 (fb2 : Fb2) (fbId width : UInt32) (primeFd : ℤ) (priv : FramePriv) : FrameInfo where
  data := none
  dmaBufFd := primeFd
  width := width
  height := fb2.height
  stride := fb2.pitches 0
  format := fb2.pixelFormat
  modifier := fb2EffectiveModifier fb2
  fbId := fbId
  priv := some priv

/-- Step 6: the pixels of the buffer. -/
def prepareMapped (planeId : UInt32) (fb2 : Fb2) (frame : FrameInfo) (priv : FramePriv) :
    M Prepared := do
  let size := (fb2.pitches 0).toNat * fb2.height.toNat
  match ← mapFramebuffer fb2 priv.primeFd size with
  | .error e => pure (.unmapped planeId frame priv e)
  | .ok (mapped, dumb) => do
    let started ← sys (.dmabufSyncStart priv.primeFd)
    let priv := { priv with
      mapped := some mapped, mappedSize := size, usedDumbMap := dumb, syncStarted := started }
    pure (.ready planeId { frame with data := some mapped, priv := some priv } false)

def prepareDirect (doMmap : Bool) (planeId fbId : UInt32) (fb2 : Fb2) (frame : FrameInfo)
    (primeFd : ℤ) : M Prepared := do
  match ← callocPriv with
  | none => do
    let (ret, frame) ← grabCleanup frame (fb2.handles 0) primeFd (- ENOMEM)
    pure (.done ret frame)
  | some self => do
    let priv := privOfDirect self primeFd (fb2.handles 0)
    let width ← drmtapScanoutWidth fb2.width (fb2EffectiveModifier fb2)
    let frame := frameOfFb2 fb2 fbId width primeFd priv
    if doMmap then prepareMapped planeId fb2 frame priv
    else pure (.ready planeId frame false)

/-! `do_grab` -/

/-- Whether an export failed for want of privilege. -/
def Errno.denied (e : Errno) : Bool := (e.code : ℤ) = EACCES ∨ (e.code : ℤ) = EPERM

/-- Steps 4 and 5: the way to the pixels of a framebuffer. -/
def prepareFramebuffer (doMmap : Bool) (planeId fbId : UInt32) (fb2 : Fb2) (frame : FrameInfo) :
    M Prepared := do
  if fb2.handles 0 = 0 then prepareByHelper planeId fb2 frame
  else
    match ← sys (.primeHandleToFD (fb2.handles 0)) with
    | .ok primeFd => prepareDirect doMmap planeId fbId fb2 frame primeFd
    | .error e =>
      if e.denied then do
        drmtapGemClose (fb2.handles 0)
        prepareByHelper planeId fb2 frame
      else do
        let (ret, frame) ← grabCleanup frame (fb2.handles 0) (-1) e.neg
        pure (.done ret frame)

def prepareGrab (doMmap : Bool) (frame : FrameInfo) : M Prepared := do
  let ctx ← getCtx
  if ctx.isRenderOnly then pure (.done (- ENOTSUP) frame)
  else
    match ← readScanout with
    | .error ret => pure (.done ret frame)
    | .ok (planeId, fbId, fb2) => do
      closeAuxiliaryGemHandles fb2
      let ret := checkGeometry fb2.width fb2.height (fb2.pitches 0)
      if ret ≠ 0 then do
        let (ret, frame) ← grabCleanup frame (fb2.handles 0) (-1) ret
        pure (.done ret frame)
      else do
        modifyCtx (·.stageFb2 fb2)
        prepareFramebuffer doMmap planeId fbId fb2 frame

/-- Hands out a processed frame, or releases it. -/
def concludeGrab (planeId : UInt32) (ret : ℤ) (frame : FrameInfo) : M (ℤ × FrameInfo) := do
  if ret ≠ 0 then do
    let frame ← drmtapFrameRelease frame
    pure (ret, frame)
  else do
    modifyCtx (·.setGrabPlane planeId)
    pure (0, frame)

def finishGrab (doMmap : Bool) : Prepared → M (ℤ × FrameInfo)
  | .done ret frame => pure (ret, frame)
  | .ready planeId frame isVirgl =>
    if doMmap then do
      let (ret, frame) ← gpuAutoProcess wrap32 frame.data frame isVirgl
      concludeGrab planeId ret frame
    else concludeGrab planeId 0 frame
  | .unmapped planeId frame priv e => do
    let (rc, frame) ← gpuAutoProcess wrap32 none frame false
    if frame.data = none then grabCleanupPriv frame priv (if rc = 0 then e.neg else rc)
    else concludeGrab planeId 0 frame

def doGrab (doMmap : Bool) (frame : FrameInfo) : M (ℤ × FrameInfo) := do
  let prepared ← prepareGrab doMmap frame
  finishGrab doMmap prepared

def drmtapGrab (frame : FrameInfo) : M (ℤ × FrameInfo) := doGrab false frame

def drmtapGrabMapped (frame : FrameInfo) : M (ℤ × FrameInfo) := doGrab true frame

/-- The descriptor of a grabbed frame, with what the context has staged for it. -/
def descOfGrab (ctx : Ctx) (frame : FrameInfo) : DmabufDesc where
  dmaBufFd := frame.dmaBufFd
  width := frame.width
  height := frame.height
  format := frame.format
  modifier := frame.modifier
  fbId := frame.fbId
  numPlanes := UInt32.ofNat (min (if 0 < ctx.fb2NumPlanes then ctx.fb2NumPlanes else 1) 4)
  offsets := ctx.fb2Offsets
  pitches p := if p = 0 ∧ ctx.fb2Pitches 0 = 0 then frame.stride else ctx.fb2Pitches p
  hdrEotf := ctx.curHdrEotf
  hdrMaxNits := ctx.curHdrMaxNits

def drmtapGrabDesc (desc : DmabufDesc) (frame : FrameInfo) : M (ℤ × DmabufDesc × FrameInfo) := do
  let before ← getCtx
  let (ret, frame) ← doGrab false frame
  if ret ≠ 0 then pure (ret, desc, frame)
  else if frame.dmaBufFd < 0 then do
    let frame ← drmtapFrameRelease frame
    modifyCtx (·.setGrabPlane before.grabPlaneId)
    pure (- ENOTSUP, desc, frame)
  else do
    let ctx ← getCtx
    pure (0, descOfGrab ctx frame, frame)

end Drmtap
