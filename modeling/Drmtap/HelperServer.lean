import Drmtap.Kms
import Drmtap.Wire

/-! drmtap-helper.c: the privileged process that reads scanout on behalf of the library. -/
namespace Drmtap

open Memory Effect

/-- The statics and the memory of the helper. `primaryIds` is the cache of `plane_is_primary`,
empty-handed until it is probed. -/
structure Helper where
  primaryIds : Option (List UInt32)
  virtioDetected : Bool
  virtioVirgl : Bool
  seqCounter : UInt32
  heap : Heap

def Helper.start : Helper := ⟨none, false, false, 0, .empty⟩

instance : HasHeap Helper := ⟨Helper.heap, fun p h => { p with heap := h }, fun _ _ => rfl⟩

abbrev H := Cmd Helper Op Ans

def Helper.setPrimaryIds (p : Helper) (ids : List UInt32) : Helper := { p with primaryIds := ids }

def Helper.setVirgl (p : Helper) (virgl : Bool) : Helper :=
  { p with virtioDetected := true, virtioVirgl := virgl }

def Helper.bumpSeq (p : Helper) : Helper := { p with seqCounter := p.seqCounter + 1 }

def helperGemClose (handle : UInt32) : H Unit :=
  if handle = 0 then pure () else sys (.gemClose handle)

/-- The reply that says a grab failed: metadata of zeros. -/
def sendError (sock : ℤ) : H ℤ := do
  let _ ← wireSendAll sock GrabWire.zero.encode
  pure (-1)

/-! Planes -/

def maxPrimaryIds : ℕ := 32

/-- Adds a plane for each of its properties that says PRIMARY. -/
def probeProps (planeId : UInt32) : List (UInt32 × UInt64) → List UInt32 → H (List UInt32)
  | [], ids => pure ids
  | (id, v) :: props, ids => do
    let name ← sys (.getProperty id)
    if name = some "type" ∧ v = drmPlaneTypePrimary ∧ ids.length < maxPrimaryIds then
      probeProps planeId props (ids ++ [planeId])
    else probeProps planeId props ids

def probePlanes : List UInt32 → List UInt32 → H (List UInt32)
  | [], ids => pure ids
  | plane :: planes, ids =>
    if ids.length < maxPrimaryIds then do
      match ← sys (.objectGetProperties plane .plane) with
      | none => probePlanes planes ids
      | some props => do
        let ids ← probeProps plane props ids
        probePlanes planes ids
    else pure ids

def probePrimaryIds : H (List UInt32) := do
  match ← sys .getPlaneResources with
  | .error _ => pure []
  | .ok planes => probePlanes planes []

def planeIsPrimary (planeId : UInt32) : H Bool := do
  match (← get).primaryIds with
  | some ids => pure (ids.contains planeId)
  | none => do
    let ids ← probePrimaryIds
    modify (·.setPrimaryIds ids)
    pure (ids.contains planeId)

/-- The framebuffer of the CRTC's primary plane, else of its first active one, with the CRTC
the plane is bound to. -/
def matchFramebuffer (targetCrtc : UInt32) : List UInt32 → UInt32 × UInt32 → H (UInt32 × UInt32)
  | [], found => pure found
  | id :: ids, found => do
    match ← sys (.getPlane id) with
    | none => matchFramebuffer targetCrtc ids found
    | some plane =>
      if (targetCrtc ≠ 0 ∧ plane.crtcId ≠ targetCrtc) ∨ plane.fbId = 0 then
        matchFramebuffer targetCrtc ids found
      else do
        let isPrimary ← planeIsPrimary plane.planeId
        if isPrimary then pure (plane.fbId, plane.crtcId)
        else if found.1 = 0 then matchFramebuffer targetCrtc ids (plane.fbId, plane.crtcId)
        else matchFramebuffer targetCrtc ids found

/-! CMD_GRAB -/

/-- On virtio-gpu, the transfer of the host's pixels to the guest. -/
def refreshVirtio (isVirtio : Bool) (fb2 : Fb2) : H Unit :=
  if isVirtio then do
    match ← sys (.virtTransferFromHost (fb2.handles 0) fb2.width fb2.height) with
    | some _ => pure ()
    | none => do
      let _ ← sys (.virtWait (fb2.handles 0))
      pure ()
  else pure ()

/-- Finds out, once, whether a virtio-gpu has 3D features. -/
def detectVirtio (isVirtio : Bool) : H Unit := do
  let p ← get
  if isVirtio ∧ ¬ p.virtioDetected then do
    let features ← sys .virtGetParam3D
    modify (·.setVirgl (features.getD 0 ≠ 0))
  else pure ()

/-- The metadata of a framebuffer. -/
def buildMeta (fbId matchedCrtc : UInt32) (fb2 : Fb2) : H GrabWire := do
  let hdr ← readHdrMetadata matchedCrtc
  modify Helper.bumpSeq
  let timestamp ← sys .clockMs
  let p ← get
  pure
    { width := fb2.width
      height := fb2.height
      stride := fb2.pitches 0
      format := fb2.pixelFormat
      fbId := fbId
      dataSize := 0
      modifier := fb2EffectiveModifier fb2
      seq := p.seqCounter
      timestampMs := timestamp
      flags := 0
      hdrEotf := hdr.1
      hdrMaxNits := hdr.2 }

/-- The V2 protocol: the pixels themselves, through a dumb map. -/
def sendPixels (sock : ℤ) (handle : UInt32) (size : ℕ) (reply : GrabWire) : H ℤ := do
  match ← sys (.modeMapDumb handle) with
  | .error _ => sendError sock
  | .ok off =>
    match ← mmap .drm size off with
    | .error _ => sendError sock
    | .ok mapped => do
      let reply := { reply with flags := 0, dataSize := UInt32.ofNat size }
      let sent ← wireSendAll sock reply.encode
      if sent then do
        let pixels ← onHeap fun h => (h.load mapped 0 size).map (·, h)
        let sent ← wireSendAll sock pixels
        munmap mapped
        pure (if sent then 0 else -1)
      else do
        munmap mapped
        pure (-1)

/-- The V3 protocol: the buffer as a descriptor, falling back on its pixels. -/
def sendFramebuffer (sock : ℤ) (isVirtio : Bool) (handle : UInt32) (size : ℕ)
    (reply : GrabWire) : H ℤ := do
  if reply.modifier ≠ drmFormatModLinear ∨ isVirtio then do
    let virgl := (← get).virtioVirgl
    match ← sys (.primeHandleToFD handle) with
    | .ok fd => do
      let flags := if virgl then helperFlagHasDmabuf ||| helperFlagVirgl else helperFlagHasDmabuf
      let sent ← wireSendFd sock fd { reply with flags := flags, dataSize := 0 }.encode
      sys (.close fd)
      pure (if sent then 0 else -1)
    | .error _ => if virgl then sendError sock else sendPixels sock handle size reply
  else sendPixels sock handle size reply

/-- The geometry the helper refuses before it computes a size. -/
def badFramebuffer (fb2 : Fb2) : Prop :=
  fb2.pitches 0 = 0 ∨ fb2.height = 0 ∨
    drmtapMaxFbBytes / (fb2.pitches 0).toNat < fb2.height.toNat

instance (fb2 : Fb2) : Decidable (badFramebuffer fb2) := by
  unfold badFramebuffer
  infer_instance

/-- What `grab_and_send` does while it owns the handle: all up to `out`. -/
def serveFramebuffer (sock : ℤ) (isVirtio : Bool) (fbId matchedCrtc : UInt32) (fb2 : Fb2) :
    H ℤ := do
  refreshVirtio isVirtio fb2
  detectVirtio isVirtio
  let reply ← buildMeta fbId matchedCrtc fb2
  sendFramebuffer sock isVirtio (fb2.handles 0) ((fb2.pitches 0).toNat * fb2.height.toNat) reply

def grabFramebuffer (sock : ℤ) (isVirtio : Bool) (fbId matchedCrtc : UInt32) : H ℤ := do
  match ← sys (.getFB2 fbId) with
  | .error _ => sendError sock
  | .ok fb2 =>
    if fb2.handles 0 = 0 then sendError sock
    else if badFramebuffer fb2 then do
      helperGemClose (fb2.handles 0)
      sendError sock
    else do
      let ret ← serveFramebuffer sock isVirtio fbId matchedCrtc fb2
      helperGemClose (fb2.handles 0)
      pure ret

def grabAndSend (sock : ℤ) (targetCrtc : UInt32) (isVirtio : Bool) : H ℤ := do
  match ← sys .getPlaneResources with
  | .error _ => sendError sock
  | .ok planes => do
    let (fbId, matchedCrtc) ← matchFramebuffer targetCrtc planes (0, 0)
    if fbId = 0 then sendError sock else grabFramebuffer sock isVirtio fbId matchedCrtc

/-! CMD_GET_CURSOR and CMD_GET_CURSOR2 -/

def sendCursorMeta (sock : ℤ) (reply : CursorWire) (extended : Bool) : H Bool :=
  wireSendAll sock (reply.encode extended)

/-- The first active cursor plane of a CRTC, as its framebuffer and its id. -/
def matchCursor (targetCrtc : UInt32) : List UInt32 → H (UInt32 × UInt32)
  | [] => pure (0, 0)
  | id :: ids => do
    match ← sys (.getPlane id) with
    | none => matchCursor targetCrtc ids
    | some plane =>
      if plane.fbId ≠ 0 ∧ (targetCrtc = 0 ∨ plane.crtcId = targetCrtc) then do
        let type ← getPropVal plane.planeId .plane "type"
        if type = drmPlaneTypeCursor then pure (plane.fbId, plane.planeId)
        else matchCursor targetCrtc ids
      else matchCursor targetCrtc ids

/-- The placement of a cursor plane. -/
def cursorPlacement (plane : UInt32) : H CursorWire := do
  let x ← getPropVal plane .plane "CRTC_X"
  let y ← getPropVal plane .plane "CRTC_Y"
  let (hotX, haveHotX) ← getPropValFound plane .plane "HOTSPOT_X"
  let (hotY, haveHotY) ← getPropValFound plane .plane "HOTSPOT_Y"
  pure { CursorWire.zero with
    x := .ofUInt32 x.toUInt32, y := .ofUInt32 y.toUInt32, hotX := .ofUInt32 hotX.toUInt32,
    hotY := .ofUInt32 hotY.toUInt32, hotFromProperty := wireHotMeasured haveHotX haveHotY }

def badCursor (fb2 : Fb2) : Prop :=
  ¬ (fb2.width ≤ 256 ∧ fb2.height ≤ 256 ∧ fb2.pitches 0 ≠ 0 ∧ fb2.width * 4 ≤ fb2.pitches 0)

instance (fb2 : Fb2) : Decidable (badCursor fb2) := by
  unfold badCursor
  infer_instance

/-- The rows of the cursor, packed. -/
def packCursor (mapped : Slice) (width height stride : ℕ) (h : Heap) : Option (List UInt8) :=
  (List.range height).foldlM (fun packed y =>
    (h.load mapped (y * stride) (width * 4)).map (packed ++ ·)) []

/-- The cursor's buffer mapped for reading, with its descriptor. -/
def mapCursor (handle : UInt32) (size : ℕ) : H (Option (Slice × ℕ)) := do
  match ← sys (.primeHandleToFD handle) with
  | .error _ => pure none
  | .ok fd =>
    match ← mmap (.fd fd) size 0 with
    | .ok mapped => pure (some (mapped, fd))
    | .error _ => do
      sys (.close fd)
      pure none

/-- The packed pixels, read between the two halves of a sync if the first one took. -/
def readCursor (mapped : Slice) (fd : ℕ) (fb2 : Fb2) : H (List UInt8) := do
  let started ← sys (.dmabufSyncStart fd)
  let pixels ← onHeap fun h =>
    (packCursor mapped fb2.width.toNat fb2.height.toNat (fb2.pitches 0).toNat h).map (·, h)
  if started then do
    sys (.dmabufSyncEnd fd)
    pure pixels
  else pure pixels

def sendCursor (sock : ℤ) (extended : Bool) (reply : CursorWire) (fb2 : Fb2) : H Unit := do
  let handle := fb2.handles 0
  let reply := { reply with width := fb2.width, height := fb2.height }
  if badCursor fb2 then do
    helperGemClose handle
    let _ ← sendCursorMeta sock reply extended
    pure ()
  else
    match ← mapCursor handle ((fb2.pitches 0).toNat * fb2.height.toNat) with
    | none => do
      helperGemClose handle
      let _ ← sendCursorMeta sock reply extended
      pure ()
    | some (mapped, fd) => do
      let pixels ← readCursor mapped fd fb2
      munmap mapped
      sys (.close fd)
      helperGemClose handle
      let reply := { reply with
        visible := 1, dataSize := UInt32.ofNat (fb2.width.toNat * fb2.height.toNat * 4) }
      let _ ← sendCursorMeta sock reply extended
      let _ ← wireSendAll sock pixels
      pure ()

def cursorAndSend (sock : ℤ) (targetCrtc : UInt32) (extended : Bool) : H Unit := do
  match ← sys .getPlaneResources with
  | .error _ => do
    let _ ← sendCursorMeta sock .zero extended
    pure ()
  | .ok planes => do
    let (fb, plane) ← matchCursor targetCrtc planes
    if fb = 0 then do
      let _ ← sendCursorMeta sock .zero extended
      pure ()
    else do
      let reply ← cursorPlacement plane
      match ← sys (.getFB2 fb) with
      | .error _ => do
        let _ ← sendCursorMeta sock reply extended
        pure ()
      | .ok fb2 =>
        if fb2.handles 0 = 0 then do
          let _ ← sendCursorMeta sock reply extended
          pure ()
        else sendCursor sock extended reply fb2

/-! The main loop -/

/-- One turn of the main loop; it ends with the loop on a bad frame or CMD_QUIT. -/
def serveOne (sock : ℤ) (isVirtio : Bool) : H (Unit ⊕ Unit) := do
  match ← wireRecvAll sock sizeofHelperCmd with
  | none => pure (.inr ())
  | some bytes => do
    let cmd := HelperCmd.decode bytes
    if ¬ wireCmdValid cmd then pure (.inr ())
    else if cmd.type = cmdGrab then do
      let _ ← grabAndSend sock cmd.crtcId isVirtio
      pure (.inl ())
    else if cmd.type = cmdGetCursor then do
      cursorAndSend sock cmd.crtcId false
      pure (.inl ())
    else if cmd.type = cmdGetCursor2 then do
      cursorAndSend sock cmd.crtcId true
      pure (.inl ())
    else pure (.inr ())

/-- The event loop of `main`, and what follows it. -/
def helperMain (sock : ℤ) (isVirtio : Bool) : H Unit := do
  Cmd.loop (fun _ => serveOne sock isVirtio) ()
  sys (.close sock)

end Drmtap
