import Drmtap.PixelConvert
import Drmtap.System

/-! The conversion pipeline of drm_grab.c: the geometry checks, the output buffer, and
`gpu_auto_process` with the paths it picks from. -/
namespace Drmtap

open Memory Effect

def drmtapValidateFbDims (width height : UInt32) : ℤ :=
  if width = 0 ∨ height = 0 then -EINVAL
  else if drmtapMaxDim < width.toNat ∨ drmtapMaxDim < height.toNat then -EFBIG
  else if drmtapMaxFbBytes / 4 < width.toNat * height.toNat then -EFBIG
  else 0

def validateFbSize (stride height : UInt32) : ℤ :=
  if stride = 0 ∨ height = 0 then -EINVAL
  else if drmtapMaxFbBytes / stride.toNat < height.toNat then -EFBIG
  else 0

/-- The two geometry checks, in the order every entry point makes them. -/
def checkGeometry (width height stride : UInt32) : ℤ :=
  if drmtapValidateFbDims width height = 0 then validateFbSize stride height
  else drmtapValidateFbDims width height

def formatMinBpp (fourcc : UInt32) : ℕ :=
  if fourcc = fmtXR48 ∨ fourcc = fmtAR48 ∨ fourcc = fmtXB48 ∨ fourcc = fmtAB48 then 8 else 4

def freeBuf (buf : Option Slice) : M Unit :=
  match buf with
  | some b => free b
  | none => pure ()

/-- Grows a buffer once; its slice carries the capacity. The buffer is returned with the
result, as the call may have freed the old one. -/
def drmtapEnsureBuf (buf : Option Slice) (size : ℕ) : M (ℤ × Option Slice) := do
  if size = 0 then pure (-EINVAL, buf)
  else if drmtapMaxFbBytes < size then pure (-EFBIG, buf)
  else if buf.any fun b => size ≤ b.len then pure (0, buf)
  else do
    freeBuf buf
    match ← malloc size with
    | none => pure (-ENOMEM, none)
    | some b => pure (0, some b)

/-- `ctx->out_gen++`, and what it counts. -/
def Ctx.bumpOutGen (c : Ctx) (size : ℕ) : Ctx :=
  { c with outGen := c.outGen + 1, outSizes := size :: c.outSizes }

def Ctx.setShadow (c : Ctx) (buf : Option Slice) : Ctx := { c with deswizzleBuf := buf }

/-- The destination of every conversion: the caller's buffer if one is set, otherwise the
context's, as a slice of exactly the size asked for. -/
def drmtapEnsureOut (size : ℕ) : M (Except ℤ Slice) := do
  if size = 0 then pure (.error (-EINVAL))
  else do
    modifyCtx (·.bumpOutGen size)
    if drmtapMaxFbBytes < size then pure (.error (-EFBIG))
    else do
      let ctx ← getCtx
      match ctx.userOut with
      | some out =>
        if out.len < size then pure (.error (-ENOSPC)) else pure (.ok ⟨out.base, size⟩)
      | none => do
        let (ret, buf) ← drmtapEnsureBuf ctx.deswizzleBuf size
        modifyCtx (·.setShadow buf)
        match buf with
        | some out => if ret ≠ 0 then pure (.error ret) else pure (.ok ⟨out.base, size⟩)
        | none => pure (.error ret)

section Pipeline
variable (u32 : ℕ → ℕ)

/-- The converter `reduce_linear_to_xrgb8888` picks for a format. -/
def reducePixels (ctx : Ctx) (data out : Slice) (frame : FrameInfo) (dstStride : UInt32) :
    Heap → Option (ℤ × Heap) :=
  let fmt := frame.format
  if isAr30 fmt then
    if ctx.curHdrEotf = drmtapEotfPQ then
      drmtapTonemapHdr10 (some data) (some out) frame.width.toNat frame.height.toNat
        frame.stride.toNat dstStride.toNat fmt ctx.curHdrMaxNits
    else
      drmtapConvertFormat u32 (some data) (some out) frame.width.toNat frame.height.toNat
        frame.stride.toNat dstStride.toNat fmt fmtXR24
  else if isRgb16 fmt then
    drmtapConvertRgb16 (some data) (some out) frame.width.toNat frame.height.toNat
      frame.stride.toNat dstStride.toNat (fmt = fmtXB48 ∨ fmt = fmtAB48) ctx.curHdrEotf
      ctx.curHdrMaxNits
  else
    drmtapConvertRgb16f (some data) (some out) frame.width.toNat frame.height.toNat
      frame.stride.toNat dstStride.toNat (fmt = fmtXB4H ∨ fmt = fmtAB4H)

/-- 1 when the frame was reduced, 0 when its format is left as it is. -/
def reduceLinearToXrgb8888 (data : Slice) (frame : FrameInfo) : M (ℤ × FrameInfo) := do
  if ¬ isAr30 frame.format ∧ ¬ isRgb16 frame.format ∧ ¬ isRgb16f frame.format then
    pure (0, frame)
  else
    match ← drmtapEnsureOut (frame.width.toNat * frame.height.toNat * 4) with
    | .error e => pure (e, frame)
    | .ok out => do
      let dstStride := frame.width * 4
      let ret ← onHeap (reducePixels u32 (← getCtx) data out frame dstStride)
      if ret ≠ 0 then pure (ret, frame)
      else
        pure (1, { frame with data := some out, format := fmtXR24, stride := dstStride })

/-- The GPU convert: everything up to the finished rendering is one call, then the output
buffer is resolved and read back into. -/
def drmtapGpuEglConvert (fd : ℤ) (width height stride format : UInt32) (modifier : UInt64)
    (fbId : UInt32) : M (Except ℤ Slice) := do
  let dim := drmtapValidateFbDims width height
  if dim ≠ 0 then pure (.error dim)
  else
    match ← sys (.eglRender fd width height stride format modifier fbId) with
    | some e => pure (.error e.neg)
    | none => do
      let size := width.toNat * height.toNat * 4
      match ← drmtapEnsureOut size with
      | .error e => pure (.error e)
      | .ok dst =>
        match ← sys (.eglReadback dst) with
        | .unchanged => pure (.ok dst)
        | .pixels bytes glError => do
          onHeap fun h => (h.store dst 0 ((List.range size).map bytes)).map ((), ·)
          if glError then pure (.error (- EIO)) else pure (.ok dst)

def drmtapGpuIntelMatch (driver : String) : Bool := driver = "i915" ∨ driver = "xe"

def drmtapGpuNvidiaMatch (driver : String) : Bool :=
  driver = "nvidia-drm" ∨ driver = "nvidia" ∨ driver = "nouveau"

def drmtapGpuAmdMatch (driver : String) : Bool := driver = "amdgpu" ∨ driver = "radeon"

/-- `is_linear` of `gpu_auto_process`. -/
def layoutIsLinear (modifier : UInt64) : M Bool := do
  if modifier = drmFormatModLinear then pure true
  else if modifier = drmFormatModInvalid then do
    pure (! (← sys .eglAvailable))
  else pure false

/-- The EGL block of `gpu_auto_process`: a result, or nothing when the CPU is to try. -/
def eglAttempt (frame : FrameInfo) : M (Option (ℤ × FrameInfo)) := do
  if 0 ≤ frame.dmaBufFd then do
    if ← sys .eglAvailable then
      match ← drmtapGpuEglConvert frame.dmaBufFd frame.width frame.height frame.stride
          frame.format frame.modifier frame.fbId with
      | .ok out =>
        pure (some (0, { frame with data := some out, format := fmtXR24,
                                    stride := frame.width * 4 }))
      | .error e => if e = -ENOSPC then pure (some (e, frame)) else pure none
    else pure none
  else pure none

/-- The reduction in place of a deswizzled 10-bit picture. -/
def reduceInPlace (ctx : Ctx) (out : Slice) (frame : FrameInfo) : Heap → Option (ℤ × Heap) :=
  if ctx.curHdrEotf = drmtapEotfPQ then
    drmtapTonemapHdr10 (some out) (some out) frame.width.toNat frame.height.toNat
      frame.stride.toNat frame.stride.toNat frame.format ctx.curHdrMaxNits
  else
    drmtapConvertFormat u32 (some out) (some out) frame.width.toNat frame.height.toNat
      frame.stride.toNat frame.stride.toNat frame.format fmtXR24

/-- The CPU deswizzle of `gpu_auto_process`. -/
def cpuDeswizzle (data : Slice) (frame : FrameInfo) : M (ℤ × FrameInfo) := do
  let size := frame.stride.toNat * frame.height.toNat
  match ← drmtapEnsureOut size with
  | .error e => pure (e, frame)
  | .ok out => do
    let ctx ← getCtx
    let driver := ctx.driverName
    if drmtapGpuIntelMatch driver ∨ drmtapGpuNvidiaMatch driver ∨ drmtapGpuAmdMatch driver then do
      let ret ← onHeap (drmtapDeswizzle u32 (some data) (some out) frame.width.toNat
        frame.height.toNat frame.stride.toNat frame.stride.toNat frame.modifier size)
      if ret ≠ 0 then pure (ret, frame)
      else do
        let frame := { frame with data := some out }
        if isAr30 frame.format then do
          let conv ← onHeap (reduceInPlace u32 ctx out frame)
          if conv ≠ 0 then pure (conv, frame) else pure (0, { frame with format := fmtXR24 })
        else pure (0, frame)
    else pure (-ENOTSUP, frame)

/-- The CPU part of `gpu_auto_process` for a layout that is not known to be linear. -/
def cpuProcess (data : Option Slice) (frame : FrameInfo) (forceEgl : Bool) :
    M (ℤ × FrameInfo) := do
  if forceEgl then pure (-ENOTSUP, frame)
  else
    match data with
    | none => pure (-ENOTSUP, frame)
    | some data =>
      if frame.modifier = drmFormatModInvalid then do
        let (red, frame) ← reduceLinearToXrgb8888 u32 data frame
        if red < 0 then pure (red, frame) else pure (0, frame)
      else cpuDeswizzle u32 data frame

def gpuAutoProcess (data : Option Slice) (frame : FrameInfo) (forceEgl : Bool) :
    M (ℤ × FrameInfo) := do
  if data = none ∧ ¬ forceEgl ∧ frame.dmaBufFd < 0 then pure (0, frame)
  else do
    let isLinear ← layoutIsLinear frame.modifier
    if isLinear ∧ ¬ forceEgl then
      match data with
      | some data => do
        let (red, frame) ← reduceLinearToXrgb8888 u32 data frame
        -- 1: reduced; 0: already 8-bit, the early return below
        if red < 0 then pure (red, frame) else pure (0, frame)
      | none => pure (0, frame)
    else
      match ← eglAttempt frame with
      | some r => pure r
      | none => cpuProcess u32 data frame forceEgl

end Pipeline

/-! `drmtap_convert_dmabuf` -/

/-- The size of a descriptor's file, by `lseek` and else by `fstat`. -/
def fdSize (fd : ℤ) : M ℤ := do
  let size ← sys (.lseekEnd fd)
  if size ≤ 0 then
    match ← sys (.fstatSize fd) with
    | some s => pure s
    | none => pure size
  else pure size

/-- The second measurement, which only believes a positive `fstat`. -/
def fdSizeForMap (fd : ℤ) : M ℤ := do
  let size ← sys (.lseekEnd fd)
  if size ≤ 0 then
    match ← sys (.fstatSize fd) with
    | some s => pure (if 0 < s then s else size)
    | none => pure size
  else pure size

def numPlanesOf (desc : DmabufDesc) : ℕ := if desc.numPlanes = 0 then 1 else desc.numPlanes.toNat

/-- The gates on the numbers of a descriptor. -/
def checkDesc (desc : DmabufDesc) : ℤ :=
  if 4 < numPlanesOf desc ∨ desc.width = 0 then -EINVAL
  else if checkGeometry desc.width desc.height (desc.pitches 0) ≠ 0 then
    checkGeometry desc.width desc.height (desc.pitches 0)
  else if (desc.pitches 0).toNat < desc.width.toNat * formatMinBpp desc.format then -EINVAL
  else 0

/-- The gates on the descriptor's file, when it has one. -/
def checkFd (desc : DmabufDesc) : M ℤ := do
  let need := (desc.pitches 0).toNat * desc.height.toNat
  if desc.dmaBufFd < 0 then pure 0
  else if ¬ (← sys (.dmabufSyncStart desc.dmaBufFd)) then pure (-EINVAL)
  else do
    let size ← fdSize desc.dmaBufFd
    sys (.dmabufSyncEnd desc.dmaBufFd)
    if size ≤ 0 ∨ size < (desc.offsets 0).toNat + need then pure (-EINVAL)
    else if ∃ p : Fin 4, 1 ≤ p.val ∧ p.val < numPlanesOf desc ∧
        size < (desc.offsets p).toNat + (desc.pitches p).toNat then pure (-EINVAL)
    else pure 0

def stageDesc (desc : DmabufDesc) (c : Ctx) : Ctx :=
  { c with
    fb2NumPlanes := numPlanesOf desc
    fb2Pitches := fun p => if p.val < numPlanesOf desc then desc.pitches p else 0
    fb2Offsets := fun p => if p.val < numPlanesOf desc then desc.offsets p else 0
    curHdrEotf := desc.hdrEotf
    curHdrMaxNits := desc.hdrMaxNits }

def frameOfDesc (desc : DmabufDesc) : FrameInfo where
  data := none
  dmaBufFd := desc.dmaBufFd
  width := desc.width
  height := desc.height
  stride := desc.pitches 0
  format := desc.format
  modifier := desc.modifier
  fbId := desc.fbId
  priv := none

/-- The copy of a linear 8-bit mapping into rows of exactly `width * 4` bytes. -/
def repackLinear (mapped out : Slice) (height pitch outStride : ℕ) : Heap → Option Heap :=
  fun h =>
    if pitch = outStride then h.memcpy out 0 mapped 0 (outStride * height)
    else
      forUpTo height (fun y h => h.memcpy out (y * outStride) mapped (y * pitch) outStride) h

/-- The conversion of a mapping: `gpu_auto_process` with the descriptor hidden, then the copy
of a frame it left in place. -/
def convertMapped (desc : DmabufDesc) (mapped : Slice) (frame : FrameInfo) :
    M (ℤ × FrameInfo) := do
  let (ret, frame) ← gpuAutoProcess wrap32 (some mapped)
    { frame with data := some mapped, dmaBufFd := -1 } false
  let frame := { frame with dmaBufFd := desc.dmaBufFd }
  if ret = 0 ∧ frame.data = some mapped then do
    let outStride := desc.width * 4
    match ← drmtapEnsureOut (outStride.toNat * desc.height.toNat) with
    | .error e => pure (e, frame)
    | .ok out => do
      onHeap fun h => (repackLinear mapped out desc.height.toNat (desc.pitches 0).toNat
        outStride.toNat h).map ((), ·)
      pure (0, { frame with data := some out, stride := outStride })
  else pure (ret, frame)

/-- The CPU fallback of `drmtap_convert_dmabuf`. -/
def convertCpu (desc : DmabufDesc) (frame : FrameInfo) : M (ℤ × FrameInfo) := do
  if desc.dmaBufFd < 0 then pure (-EINVAL, frame)
  else do
    let mapSize := (desc.pitches 0).toNat * desc.height.toNat
    if ¬ (← sys (.dmabufSyncStart desc.dmaBufFd)) then pure (-EINVAL, frame)
    else do
      let size ← fdSizeForMap desc.dmaBufFd
      if size ≤ 0 ∨ size < (desc.offsets 0).toNat + mapSize then do
        sys (.dmabufSyncEnd desc.dmaBufFd)
        pure (-EINVAL, frame)
      else
        match ← mmap (.fd desc.dmaBufFd) mapSize (desc.offsets 0).toNat with
        | .error e => do
          sys (.dmabufSyncEnd desc.dmaBufFd)
          pure (e.neg, frame)
        | .ok mapped => do
          let (ret, frame) ← convertMapped desc mapped frame
          sys (.dmabufSyncEnd desc.dmaBufFd)
          munmap mapped
          let ret := if ret = 0 ∧ frame.data = none then -ENOTSUP else ret
          pure (ret, if ret ≠ 0 then { frame with data := none } else frame)

def drmtapConvertDmabuf (desc : DmabufDesc) (frame : FrameInfo) : M (ℤ × FrameInfo) := do
  let ret := checkDesc desc
  if ret ≠ 0 then pure (ret, frame)
  else do
    modifyCtx (stageDesc desc)
    let frame := frameOfDesc desc
    let ret ← checkFd desc
    if ret ≠ 0 then pure (ret, frame)
    else if ← sys .eglAvailable then
      match ← drmtapGpuEglConvert desc.dmaBufFd desc.width desc.height (desc.pitches 0)
          desc.format desc.modifier desc.fbId with
      | .ok out =>
        pure (0, { frame with data := some out, format := fmtXR24, stride := desc.width * 4,
                              modifier := drmFormatModLinear })
      | .error _ => convertCpu desc frame
    else convertCpu desc frame

end Drmtap
