import Drmtap.Types

/-! The tone curve and the transfer tables of pixel_convert.c, over any number type with
the operations they use. -/
namespace Drmtap

/-- The operations of C's `double` the tone mapping needs; `trunc` is the cast to an integer
of a value that is not negative. -/
class Real64 (F : Type) extends Add F, Sub F, Mul F, Div F, Neg F, LT F, LE F,
    OfScientific F where
  decLt : (a b : F) → Decidable (a < b)
  decLe : (a b : F) → Decidable (a ≤ b)
  ofNat : ℕ → F
  trunc : F → ℕ

instance Real64.decidableLT {F : Type} [Real64 F] : DecidableLT F := Real64.decLt

instance Real64.decidableLE {F : Type} [Real64 F] : DecidableLE F := Real64.decLe

instance : Real64 Float where
  decLt := Float.decLt
  decLe := Float.decLe
  ofNat := Float.ofNat
  trunc x := x.toUInt64.toNat

/-- `g_pq_lut`, `g_pq_lut16` and `g_srgb_lut` -/
structure HdrLut (F : Type) where
  pq : ℕ → F
  pq16 : ℕ → F
  srgb : ℕ → UInt8

section Curve
variable {F : Type} [Real64 F] (lut : HdrLut F)

def tonemapSoftknee (x peakN : F) : F :=
  let knee : F := 0.90
  if x ≤ knee then x
  else
    let peakN := if peakN < knee + 0.5 then knee + 0.5 else peakN
    if peakN ≤ x then 1.0
    else
      let t := (x - knee) / (peakN - knee)
      knee + (1.0 - knee) * (t * (2.0 - t))

def drmtapSrgbLutN : ℕ := 4096

def toSrgb8 (linear : F) : UInt8 :=
  if linear ≤ 0.0 then lut.srgb 0
  else if (1.0 : F) ≤ linear then lut.srgb (drmtapSrgbLutN - 1)
  else lut.srgb (Real64.trunc (linear * Real64.ofNat (drmtapSrgbLutN - 1) + 0.5))

def drmtapSdrWhiteNits : F := 203.0

def tonemapRgbLinear (rLin gLin bLin peakN : F) : UInt8 × UInt8 × UInt8 :=
  let r : F := 1.660491 * rLin - 0.587641 * gLin - 0.072850 * bLin
  let g : F := -0.124550 * rLin + 1.132900 * gLin - 0.008349 * bLin
  let b : F := -0.018151 * rLin - 0.100579 * gLin + 1.118730 * bLin
  let r := if r < 0.0 then 0.0 else r
  let g := if g < 0.0 then 0.0 else g
  let b := if b < 0.0 then 0.0 else b
  (toSrgb8 lut (tonemapSoftknee (r / drmtapSdrWhiteNits) peakN),
    toSrgb8 lut (tonemapSoftknee (g / drmtapSdrWhiteNits) peakN),
    toSrgb8 lut (tonemapSoftknee (b / drmtapSdrWhiteNits) peakN))

def hdrPeakUnits (maxNits : UInt32) : F :=
  (if 0 < maxNits then Real64.ofNat maxNits.toNat else 1000.0) / drmtapSdrWhiteNits

end Curve

def pqEotfNits (e : Float) : Float :=
  let m1 : Float := 2610.0 / 16384.0
  let m2 : Float := 2523.0 / 4096.0 * 128.0
  let c1 : Float := 3424.0 / 4096.0
  let c2 : Float := 2413.0 / 4096.0 * 32.0
  let c3 : Float := 2392.0 / 4096.0 * 32.0
  if e ≤ 0.0 then 0.0
  else
    let ep := Float.pow e (1.0 / m2)
    let num := if ep - c1 < 0.0 then 0.0 else ep - c1
    let den := c2 - c3 * ep
    if den ≤ 0.0 then 10000.0 else 10000.0 * Float.pow (num / den) (1.0 / m1)

def srgbOetf (c : Float) : Float :=
  if c ≤ 0.0 then 0.0
  else if 1.0 ≤ c then 1.0
  else if c ≤ 0.0031308 then 12.92 * c
  else 1.055 * Float.pow c (1.0 / 2.4) - 0.055

/-- `hdr_lut_init`: the tables are stored as `float`, and read back as `double`. -/
def hdrLutInit : HdrLut Float where
  pq i := (pqEotfNits (Float.ofNat i / 1023.0)).toFloat32.toFloat
  pq16 i := (pqEotfNits (Float.ofNat i / 65535.0)).toFloat32.toFloat
  srgb i :=
    let v := (srgbOetf (Float.ofNat i / 4095.0) * 255.0 + 0.5).toUInt64
    if 255 < v then 255 else v.toUInt8

/-- The shift that brings a subnormal half's leading bit to position 10, with the exponent
going down a step each time. A nonzero 10-bit mantissa needs at most ten. -/
def halfNormalize : ℕ → UInt32 → UInt32 → UInt32 × UInt32
  | 0, mant, exp => (mant, exp)
  | n + 1, mant, exp =>
    if mant &&& 0x400 = 0 then halfNormalize n (mant <<< 1) (exp - 1) else (mant, exp)

/-- IEEE 754 binary16 -> binary32 bits. -/
def halfToFloatBits (h : UInt16) : UInt32 :=
  let sign : UInt32 := (h &&& 0x8000).toUInt32 <<< 16
  let exp : UInt32 := (h >>> 10).toUInt32 &&& 0x1F
  let mant : UInt32 := h.toUInt32 &&& 0x3FF
  if exp = 0 then
    if mant = 0 then sign
    else
      let (mant, exp) := halfNormalize 10 mant (127 - 15 + 1)
      sign ||| (exp <<< 23) ||| ((mant &&& 0x3FF) <<< 13)
  else if exp = 0x1F then sign ||| (0x7F800000 : UInt32) ||| (mant <<< 13)
  else sign ||| ((exp - 15 + 127) <<< 23) ||| (mant <<< 13)

def halfToFloat (h : UInt16) : Float32 := Float32.ofBits (halfToFloatBits h)

def srgb8FromLinear (lut : HdrLut Float) (f : Float32) : UInt8 :=
  if ¬ (0.0 : Float32) < f then 0
  else if (1.0 : Float32) ≤ f then 255
  else lut.srgb (f * 4095.0 + 0.5).toUInt64.toNat

end Drmtap
