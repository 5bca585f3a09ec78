import Drmtap.Tone

/-! The converters of pixel_convert.c.

`u32` is what storing a value in a `uint32_t` does to it: the code's is `wrap32`, and a
result that is the same for every `u32` that keeps the values below 2^32 wraps nowhere. -/
namespace Drmtap

open Memory

def wrap32 (n : ℕ) : ℕ := n % 2 ^ 32

/-- A little-endian 32-bit word. -/
def word32 (l : List UInt8) : UInt32 :=
  (l.getD 0 0).toUInt32 ||| (l.getD 1 0).toUInt32 <<< 8 ||| (l.getD 2 0).toUInt32 <<< 16 |||
    (l.getD 3 0).toUInt32 <<< 24

def bytes32 (w : UInt32) : List UInt8 :=
  [w.toUInt8, (w >>> 8).toUInt8, (w >>> 16).toUInt8, (w >>> 24).toUInt8]

/-- The `k`-th little-endian 16-bit unit. -/
def unit16 (l : List UInt8) (k : ℕ) : UInt16 :=
  (l.getD (2 * k) 0).toUInt16 ||| (l.getD (2 * k + 1) 0).toUInt16 <<< 8

/-- An opaque pixel of 8-bit channels. -/
def packRgb (r g b : UInt8) : UInt32 :=
  (0xFF : UInt32) <<< 24 ||| r.toUInt32 <<< 16 ||| g.toUInt32 <<< 8 ||| b.toUInt32

@[simp] theorem bytes32_length (w : UInt32) : (bytes32 w).length = 4 := rfl

/-! The format families the conversion tells apart. -/

def isAr30 (fmt : UInt32) : Bool :=
  fmt = fmtXR30 ∨ fmt = fmtAR30 ∨ fmt = fmtXB30 ∨ fmt = fmtAB30

def isRgb16 (fmt : UInt32) : Bool :=
  fmt = fmtXR48 ∨ fmt = fmtAR48 ∨ fmt = fmtXB48 ∨ fmt = fmtAB48

def isRgb16f (fmt : UInt32) : Bool :=
  fmt = fmtXR4H ∨ fmt = fmtAR4H ∨ fmt = fmtXB4H ∨ fmt = fmtAB4H

theorem isAr30_not_wide {fmt : UInt32} (h : isAr30 fmt) : ¬ isRgb16 fmt ∧ ¬ isRgb16f fmt := by
  simp only [isAr30, decide_eq_true_eq] at h
  rcases h with rfl | rfl | rfl | rfl <;> decide

/-! One pixel of each converter. -/

def ar30Pixel (bgr : Bool) (pixel : UInt32) : UInt32 :=
  let cHi := ((pixel >>> 22) &&& 0xFF).toUInt8
  let g := ((pixel >>> 12) &&& 0xFF).toUInt8
  let cLo := ((pixel >>> 2) &&& 0xFF).toUInt8
  packRgb (if bgr then cLo else cHi) g (if bgr then cHi else cLo)

def abgrPixel (pixel : UInt32) : UInt32 :=
  let a := (pixel >>> 24).toUInt8
  let b := (pixel >>> 16).toUInt8
  let g := (pixel >>> 8).toUInt8
  let r := pixel.toUInt8
  a.toUInt32 <<< 24 ||| r.toUInt32 <<< 16 ||| g.toUInt32 <<< 8 ||| b.toUInt32

def hdr10Pixel (bgr : Bool) (maxNits pixel : UInt32) : UInt32 :=
  let cHi := ((pixel >>> 20) &&& 0x3FF).toNat
  let cLo := (pixel &&& 0x3FF).toNat
  let lut := hdrLutInit
  let (r, g, b) := tonemapRgbLinear lut (lut.pq (if bgr then cLo else cHi))
    (lut.pq ((pixel >>> 10) &&& 0x3FF).toNat) (lut.pq (if bgr then cHi else cLo))
    (hdrPeakUnits maxNits)
  packRgb r g b

def rgb16Pixel (bgr : Bool) (eotf maxNits : UInt32) (px : List UInt8) : UInt32 :=
  let cr := unit16 px (if bgr then 0 else 2)
  let cg := unit16 px 1
  let cb := unit16 px (if bgr then 2 else 0)
  if eotf = drmtapEotfPQ then
    let lut := hdrLutInit
    let (r, g, b) := tonemapRgbLinear lut (lut.pq16 cr.toNat) (lut.pq16 cg.toNat)
      (lut.pq16 cb.toNat) (hdrPeakUnits maxNits)
    packRgb r g b
  else packRgb (cr >>> 8).toUInt8 (cg >>> 8).toUInt8 (cb >>> 8).toUInt8

def rgb16fPixel (bgr : Bool) (px : List UInt8) : UInt32 :=
  let channel k := srgb8FromLinear hdrLutInit (halfToFloat (unit16 px k))
  packRgb (channel (if bgr then 0 else 2)) (channel 1) (channel (if bgr then 2 else 0))

/-! The loops. -/

/-- Reads a pixel of `unit` bytes at each place of the source rows and writes its 32-bit
form at the same place of the destination rows. -/
def convertRows (unit : ℕ) (pixel : List UInt8 → UInt32) (srcRow dstRow : ℕ → ℕ)
    (src dst : Slice) (width height : ℕ) : Heap → Option Heap :=
  forUpTo height fun y => forUpTo width fun x h => do
    let px ← h.load src (srcRow y + unit * x) unit
    h.store dst (dstRow y + 4 * x) (bytes32 (pixel px))

section Conversions
variable (u32 : ℕ → ℕ)

def convertAr30ToXrgb8888 (src dst : Slice) (width height srcStride dstStride : ℕ)
    (bgr : Bool) : Heap → Option Heap :=
  convertRows 4 (fun px => ar30Pixel bgr (word32 px)) (fun y => u32 (y * srcStride))
    (fun y => u32 (y * dstStride)) src dst width height

def convertAbgrToArgb (src dst : Slice) (width height srcStride dstStride : ℕ) :
    Heap → Option Heap :=
  convertRows 4 (fun px => abgrPixel (word32 px)) (fun y => u32 (y * srcStride))
    (fun y => u32 (y * dstStride)) src dst width height

def drmtapTonemapHdr10 (src dst : Option Slice) (width height srcStride dstStride : ℕ)
    (srcFormat maxNits : UInt32) (h : Heap) : Option (ℤ × Heap) :=
  match src, dst with
  | some src, some dst =>
    if width = 0 ∨ height = 0 then some (-EINVAL, h)
    else
      let isRgb : Bool := srcFormat = fmtXR30 ∨ srcFormat = fmtAR30
      let isBgr : Bool := srcFormat = fmtXB30 ∨ srcFormat = fmtAB30
      let rowBytes := width * 4
      if ¬ isRgb ∧ ¬ isBgr then some (-ENOTSUP, h)
      else if 2 ^ 32 - 1 < rowBytes ∨ srcStride < rowBytes ∨ dstStride < rowBytes then
        some (-EINVAL, h)
      else
        (convertRows 4 (fun px => hdr10Pixel isBgr maxNits (word32 px)) (· * srcStride)
          (· * dstStride) src dst width height h).map (0, ·)
  | _, _ => some (-EINVAL, h)

/-- The shape of `drmtap_convert_rgb16` and `drmtap_convert_rgb16f`: 8-byte pixels to 4-byte
ones. -/
def convertWide (pixel : List UInt8 → UInt32) (src dst : Option Slice)
    (width height srcStride dstStride : ℕ) (h : Heap) : Option (ℤ × Heap) :=
  match src, dst with
  | some src, some dst =>
    if width = 0 ∨ height = 0 then some (-EINVAL, h)
    else
      let srcRow := width * 8
      let dstRow := width * 4
      if 2 ^ 32 - 1 < srcRow ∨ 2 ^ 32 - 1 < dstRow ∨ srcStride < srcRow ∨ dstStride < dstRow then
        some (-EINVAL, h)
      else
        (convertRows 8 pixel (· * srcStride) (· * dstStride) src dst width height h).map (0, ·)
  | _, _ => some (-EINVAL, h)

def drmtapConvertRgb16 (src dst : Option Slice) (width height srcStride dstStride : ℕ)
    (bgr : Bool) (eotf maxNits : UInt32) : Heap → Option (ℤ × Heap) :=
  convertWide (rgb16Pixel bgr eotf maxNits) src dst width height srcStride dstStride

def drmtapConvertRgb16f (src dst : Option Slice) (width height srcStride dstStride : ℕ)
    (bgr : Bool) : Heap → Option (ℤ × Heap) :=
  convertWide (rgb16fPixel bgr) src dst width height srcStride dstStride

def drmtapConvertFormat (src dst : Option Slice) (width height srcStride dstStride : ℕ)
    (srcFormat dstFormat : UInt32) (h : Heap) : Option (ℤ × Heap) :=
  match src, dst with
  | some src, some dst =>
    if width = 0 ∨ height = 0 then some (-EINVAL, h)
    else if srcStride < width * 4 ∨ dstStride < width * 4 then some (-EINVAL, h)
    else if srcFormat = dstFormat then
      (forUpTo height (fun y h => h.memcpy dst (u32 (y * dstStride)) src (u32 (y * srcStride))
        (u32 (width * 4))) h).map (0, ·)
    else if (srcFormat = fmtXR30 ∨ srcFormat = fmtAR30 ∨ srcFormat = fmtXB30 ∨
        srcFormat = fmtAB30) ∧ (dstFormat = fmtXR24 ∨ dstFormat = fmtAR24) then
      (convertAr30ToXrgb8888 u32 src dst width height srcStride dstStride
        (srcFormat = fmtXB30 ∨ srcFormat = fmtAB30) h).map (0, ·)
    else if srcFormat = fmtAB24 ∧ (dstFormat = fmtAR24 ∨ dstFormat = fmtXR24) then
      (convertAbgrToArgb u32 src dst width height srcStride dstStride h).map (0, ·)
    else some (-ENOTSUP, h)
  | _, _ => some (-EINVAL, h)

/-! The deswizzle. Byte offsets of pixel `(x, y)` in the two Intel layouts, in 32-bit
arithmetic as the code computes them. -/

def intelXTileWidth : ℕ := 512
def intelXTileHeight : ℕ := 8
def intelYTileWidth : ℕ := 128
def intelYTileHeight : ℕ := 32
def intelYOword : ℕ := 16

def intelXTiledOffset (srcStride x y : ℕ) : ℕ :=
  let tilesX := u32 (srcStride + intelXTileWidth - 1) / intelXTileWidth
  let tileRow := y / intelXTileHeight
  let tileY := y % intelXTileHeight
  let xBytes := u32 (x * 4)
  let tileCol := xBytes / intelXTileWidth
  let tileXBytes := xBytes % intelXTileWidth
  let tileIdx := u32 (u32 (tileRow * tilesX) + tileCol)
  let tileSize := intelXTileWidth * intelXTileHeight
  u32 (u32 (u32 (tileIdx * tileSize) + tileY * intelXTileWidth) + tileXBytes)

def intelYTiledOffset (srcStride x y : ℕ) : ℕ :=
  let tilesX := u32 (srcStride + intelYTileWidth - 1) / intelYTileWidth
  let tileRow := y / intelYTileHeight
  let tileY := y % intelYTileHeight
  let xBytes := u32 (x * 4)
  let tileCol := xBytes / intelYTileWidth
  let inTileX := xBytes % intelYTileWidth
  let column := inTileX / intelYOword
  let columnOffset := inTileX % intelYOword
  let tileIdx := u32 (u32 (tileRow * tilesX) + tileCol)
  let tileSize := intelYTileWidth * intelYTileHeight
  u32 (u32 (u32 (u32 (tileIdx * tileSize) + column * (intelYOword * intelYTileHeight)) +
    tileY * intelYOword) + columnOffset)

/-- Copies each pixel from its place in the tiled source, or zeroes it where that place is
not backed. -/
def deswizzleTiles (srcOff : ℕ → ℕ → ℕ) (src dst : Slice) (width height dstStride srcSize : ℕ) :
    Heap → Option Heap :=
  forUpTo height fun y => forUpTo width fun x h =>
    let dstOff := u32 (y * dstStride) + u32 (x * 4)
    if srcOff x y + 4 ≤ srcSize then h.memcpy dst dstOff src (srcOff x y) 4
    else h.memset dst dstOff 0 4

def deswizzleIntelXTiled (src dst : Slice) (width height srcStride dstStride srcSize : ℕ) :
    Heap → Option Heap :=
  deswizzleTiles u32 (intelXTiledOffset u32 srcStride) src dst width height dstStride srcSize

def deswizzleIntelYTiled (src dst : Slice) (width height srcStride dstStride srcSize : ℕ) :
    Heap → Option Heap :=
  deswizzleTiles u32 (intelYTiledOffset u32 srcStride) src dst width height dstStride srcSize

/-- The row copy of the linear branches of `drmtap_deswizzle`. -/
def deswizzleLinear (src dst : Slice) (width height srcStride dstStride srcSize : ℕ) :
    Heap → Option Heap :=
  forUpTo height fun y h =>
    if srcSize < y * srcStride + width * 4 then h.memset dst (u32 (y * dstStride)) 0 (width * 4)
    else h.memcpy dst (u32 (y * dstStride)) src (y * srcStride) (u32 (width * 4))

def drmtapDeswizzle (src dst : Option Slice) (width height srcStride dstStride : ℕ)
    (modifier : UInt64) (srcSize : ℕ) (h : Heap) : Option (ℤ × Heap) :=
  match src, dst with
  | some src, some dst =>
    if width = 0 ∨ height = 0 then some (-EINVAL, h)
    else
      let rowFits := width * 4 ≤ dstStride
      let vendor := modifier >>> 56
      let modType := modifier &&& 0xFF
      if modifier = drmFormatModLinear then
        if ¬ rowFits then some (-EINVAL, h)
        else (deswizzleLinear u32 src dst width height srcStride dstStride srcSize h).map (0, ·)
      else if vendor = drmFormatModVendorIntel then
        if modType = 0x01 then
          if ¬ rowFits then some (-EINVAL, h)
          else
            (deswizzleIntelXTiled u32 src dst width height srcStride dstStride srcSize h).map (0, ·)
        else if modType = 0x02 ∨ modType = 0x03 then
          if ¬ rowFits then some (-EINVAL, h)
          else
            (deswizzleIntelYTiled u32 src dst width height srcStride dstStride srcSize h).map (0, ·)
        else some (-ENOTSUP, h)
      else if vendor = drmFormatModVendorNvidia then some (-ENOTSUP, h)
      else if modifier = drmFormatModInvalid then
        if ¬ rowFits then some (-EINVAL, h)
        else (deswizzleLinear u32 src dst width height srcStride dstStride srcSize h).map (0, ·)
      else some (-ENOTSUP, h)
  | _, _ => some (-EINVAL, h)

end Conversions

end Drmtap
