import Drmtap.Lib.Memory

/-! Constants and records of the public header, the kernel interface and the context. -/
namespace Drmtap

open Memory

/-- An error number as the kernel reports it on a failed call: never 0. -/
structure Errno where
  code : ℕ
  pos : 0 < code
deriving DecidableEq

def EPERM : ℤ := 1
def ENOENT : ℤ := 2
def EINTR : ℤ := 4
def EIO : ℤ := 5
def ENOMEM : ℤ := 12
def EACCES : ℤ := 13
def ENODEV : ℤ := 19
def EINVAL : ℤ := 22
def EFBIG : ℤ := 27
def ENOSPC : ℤ := 28
def ENODATA : ℤ := 61
def EPROTO : ℤ := 71
def ENOTSUP : ℤ := 95

def Errno.neg (e : Errno) : ℤ := -e.code

theorem Errno.neg_lt_zero (e : Errno) : e.neg < 0 := by
  have := e.pos
  simp [Errno.neg]
  omega

theorem Errno.neg_ne_zero (e : Errno) : e.neg ≠ 0 := e.neg_lt_zero.ne

/-! Fourccs, by their four letters. -/

def fmtXR24 : UInt32 := 0x34325258
def fmtAR24 : UInt32 := 0x34325241
def fmtXB24 : UInt32 := 0x34324258
def fmtAB24 : UInt32 := 0x34324241
def fmtXR30 : UInt32 := 0x30335258
def fmtAR30 : UInt32 := 0x30335241
def fmtXB30 : UInt32 := 0x30334258
def fmtAB30 : UInt32 := 0x30334241
def fmtXR48 : UInt32 := 0x38345258
def fmtAR48 : UInt32 := 0x38345241
def fmtXB48 : UInt32 := 0x38344258
def fmtAB48 : UInt32 := 0x38344241
def fmtXR4H : UInt32 := 0x48345258
def fmtAR4H : UInt32 := 0x48345241
def fmtXB4H : UInt32 := 0x48344258
def fmtAB4H : UInt32 := 0x48344241

def drmFormatModLinear : UInt64 := 0
def drmFormatModInvalid : UInt64 := 0x00ffffffffffffff
def i915FormatModXTiled : UInt64 := 0x0100000000000001
def i915FormatModYTiled : UInt64 := 0x0100000000000002
def i915FormatModYfTiled : UInt64 := 0x0100000000000003
def drmFormatModVendorIntel : UInt64 := 0x01
def drmFormatModVendorNvidia : UInt64 := 0x03

def drmtapEotfPQ : UInt32 := 2

/-- One 8K BGRA frame. -/
def drmtapMaxFbBytes : ℕ := 7680 * 4320 * 4

def drmtapMaxDim : ℕ := 32768

/-- `frame_priv_t`: what a captured frame owns. `self` is the allocation that holds it, and
`mapped` is `none` for `MAP_FAILED`. -/
structure FramePriv where
  self : Slice
  primeFd : ℤ
  mapped : Option Slice
  mappedSize : ℕ
  gemHandle : UInt32
  usedDumbMap : Bool
  syncStarted : Bool
deriving DecidableEq

/-- `drmtap_frame_info` -/
structure FrameInfo where
  data : Option Slice
  dmaBufFd : ℤ
  width : UInt32
  height : UInt32
  stride : UInt32
  format : UInt32
  modifier : UInt64
  fbId : UInt32
  priv : Option FramePriv
deriving DecidableEq

/-- There is a first plane. -/
instance planesNeZero : NeZero 4 := ⟨by decide⟩

/-- Four entries, one per framebuffer plane. -/
abbrev PerPlane (α : Type) := Fin 4 → α

/-- `drmtap_dmabuf_desc` -/
structure DmabufDesc where
  dmaBufFd : ℤ
  width : UInt32
  height : UInt32
  format : UInt32
  modifier : UInt64
  fbId : UInt32
  numPlanes : UInt32
  offsets : PerPlane UInt32
  pitches : PerPlane UInt32
  hdrEotf : UInt32
  hdrMaxNits : UInt32

/-- `drmModeFB2` -/
structure Fb2 where
  width : UInt32
  height : UInt32
  pixelFormat : UInt32
  modifier : UInt64
  /-- `DRM_MODE_FB_MODIFIERS` -/
  hasModifiers : Bool
  handles : PerPlane UInt32
  pitches : PerPlane UInt32
  offsets : PerPlane UInt32

/-- `fb2_effective_modifier` -/
def fb2EffectiveModifier (fb2 : Fb2) : UInt64 :=
  if fb2.hasModifiers then fb2.modifier else drmFormatModInvalid

abbrev drmtapFastSlots : ℕ := 4

/-- One entry of `fast_slots`; `fbId = 0` when unused. -/
structure FastSlot where
  fbId : UInt32
  gemHandle : UInt32
  primeFd : ℤ
  mmapPtr : Option Slice
  mmapSize : ℕ
  width : UInt32
  height : UInt32
  stride : UInt32
  fbWidth : UInt32
  format : UInt32
  modifier : UInt64
  fb2NumPlanes : ℕ
  fb2Pitches : PerPlane UInt32
  fb2Offsets : PerPlane UInt32
  syncStarted : Bool

/-- `memset(slot, 0, sizeof(*slot))`, with no descriptor -/
def FastSlot.empty : FastSlot where
  fbId := 0
  gemHandle := 0
  primeFd := -1
  mmapPtr := none
  mmapSize := 0
  width := 0
  height := 0
  stride := 0
  fbWidth := 0
  format := 0
  modifier := 0
  fb2NumPlanes := 0
  fb2Pitches _ := 0
  fb2Offsets _ := 0
  syncStarted := false

/-- `struct drmtap_ctx` -/
structure Ctx where
  driverName : String
  crtcId : UInt32
  isRenderOnly : Bool
  helperFd : ℤ
  helperPid : ℤ
  helperNoCursor2 : Bool
  helperCursor2Ok : Bool
  helperCursor2Retried : Bool
  fastSlots : Fin drmtapFastSlots → FastSlot
  fastPlaneId : UInt32
  fastLastFbId : UInt32
  fastInitialized : Bool
  fastNoCpuMap : Bool
  fastNoPrivilege : Bool
  atomicCapTried : Bool
  swKeyCrtc : UInt32
  swKeyHdisplay : UInt32
  swKeyFbWidth : UInt32
  swKeyModifier : UInt64
  swCachedWidth : UInt32
  swCached : Bool
  userOut : Option Slice
  deswizzleBuf : Option Slice
  outGen : UInt32
  /-- The sizes that were asked for, newest first; `outGen` counts them. -/
  outSizes : List ℕ
  pixelBuf : Option Slice
  fb2Pitches : PerPlane UInt32
  fb2Offsets : PerPlane UInt32
  fb2NumPlanes : ℕ
  grabPlaneId : UInt32
  rotPropPlaneId : UInt32
  rotPropId : UInt32
  rotPropState : ℤ
  curHdrEotf : UInt32
  curHdrMaxNits : UInt32

/-- A context as `drmtap_open` leaves it: zeroed, without a helper. -/
def Ctx.opened (driverName : String) (crtcId : UInt32) : Ctx where
  driverName := driverName
  crtcId := crtcId
  isRenderOnly := false
  helperFd := -1
  helperPid := -1
  helperNoCursor2 := false
  helperCursor2Ok := false
  helperCursor2Retried := false
  fastSlots _ := .empty
  fastPlaneId := 0
  fastLastFbId := 0
  fastInitialized := false
  fastNoCpuMap := false
  fastNoPrivilege := false
  atomicCapTried := false
  swKeyCrtc := 0
  swKeyHdisplay := 0
  swKeyFbWidth := 0
  swKeyModifier := 0
  swCachedWidth := 0
  swCached := false
  userOut := none
  deswizzleBuf := none
  outGen := 0
  outSizes := []
  pixelBuf := none
  fb2Pitches _ := 0
  fb2Offsets _ := 0
  fb2NumPlanes := 0
  grabPlaneId := 0
  rotPropPlaneId := 0
  rotPropId := 0
  rotPropState := 0
  curHdrEotf := 0
  curHdrMaxNits := 0

/-- `memset(frame, 0, sizeof(*frame))`, with no descriptor -/
def FrameInfo.cleared : FrameInfo where
  data := none
  dmaBufFd := -1
  width := 0
  height := 0
  stride := 0
  format := 0
  modifier := 0
  fbId := 0
  priv := none

end Drmtap
