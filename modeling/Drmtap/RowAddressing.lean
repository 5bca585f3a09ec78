import Drmtap.Deswizzle

/-! Where the public converters read and write, for every call that they accept, and the calls
whose 32-bit offsets are the mathematical ones. -/
namespace Drmtap

open Memory

/-- The sizes a caller passes. -/
structure Raster where
  width : UInt32
  height : UInt32
  srcStride : UInt32
  dstStride : UInt32

/-- A call of a public converter, but for its buffers and their sizes. -/
inductive Conversion
  | deswizzle (modifier : UInt64) (srcSize : ℕ)
  | convertFormat (srcFormat dstFormat : UInt32)
  | tonemapHdr10 (srcFormat maxNits : UInt32)

namespace Conversion
variable (c : Conversion) (g : Raster)

def run (src dst : Slice) (h : Heap) : Option (ℤ × Heap) :=
  match c with
  | deswizzle modifier srcSize =>
    drmtapDeswizzle wrap32 (some src) (some dst) g.width.toNat g.height.toNat g.srcStride.toNat
      g.dstStride.toNat modifier srcSize h
  | convertFormat srcFormat dstFormat =>
    drmtapConvertFormat wrap32 (some src) (some dst) g.width.toNat g.height.toNat
      g.srcStride.toNat g.dstStride.toNat srcFormat dstFormat h
  | tonemapHdr10 srcFormat maxNits =>
    drmtapTonemapHdr10 (some src) (some dst) g.width.toNat g.height.toNat g.srcStride.toNat
      g.dstStride.toNat srcFormat maxNits h

/-- The call returns no error. -/
def Accepts : Prop :=
  g.width ≠ 0 ∧ g.height ≠ 0 ∧ 4 * g.width.toNat ≤ g.dstStride.toNat ∧
    match c with
    | deswizzle modifier _ => cpuOffset modifier ≠ none
    | convertFormat srcFormat dstFormat => 4 * g.width.toNat ≤ g.srcStride.toNat ∧
        (srcFormat = dstFormat ∨
          isAr30 srcFormat ∧ (dstFormat = fmtXR24 ∨ dstFormat = fmtAR24) ∨
          srcFormat = fmtAB24 ∧ (dstFormat = fmtAR24 ∨ dstFormat = fmtXR24))
    | tonemapHdr10 srcFormat _ => 4 * g.width.toNat ≤ g.srcStride.toNat ∧ isAr30 srcFormat

/-- The source is as long as the call is told. -/
def Holds (src : Slice) : Prop :=
  match c with
  | deswizzle _ srcSize => srcSize ≤ src.len
  | _ => ∀ y < g.height.toNat, y * g.srcStride.toNat + 4 * g.width.toNat ≤ src.len

/-- Pixel by pixel, with a single pitch: the call may overwrite its source. -/
def InPlace : Prop :=
  match c with
  | deswizzle _ _ => False
  | _ => g.srcStride = g.dstStride

/-- The buffers hold what the call is told they hold: two of them apart, or one converted in
place. -/
structure Fits (src dst : Slice) (h : Heap) : Prop where
  srcLive : h.Live src
  dstLive : h.Live dst
  dstRows : ∀ y < g.height.toNat, y * g.dstStride.toNat + 4 * g.width.toNat ≤ dst.len
  srcRows : c.Holds g src
  apart : src.base = dst.base → c.InPlace g

/-- The output pixel, made from the source at the mathematical offset. -/
def pixel (h : Heap) (src : Slice) (x y : ℕ) : List UInt8 :=
  let px := bytesAt h src (y * g.srcStride.toNat + 4 * x) 4
  match c with
  | deswizzle modifier srcSize =>
    match tilingOf modifier with
    | some t => backedBytes h src srcSize (t.offset (tilesX t g.srcStride.toNat) (x * 4) y) 4
    | none =>
      if y * g.srcStride.toNat + 4 * g.width.toNat ≤ srcSize then px else List.replicate 4 0
  | convertFormat srcFormat dstFormat =>
    if srcFormat = dstFormat then px
    else if isAr30 srcFormat then
      bytes32 (ar30Pixel (srcFormat = fmtXB30 ∨ srcFormat = fmtAB30) (word32 px))
    else bytes32 (abgrPixel (word32 px))
  | tonemapHdr10 srcFormat maxNits =>
    bytes32 (hdr10Pixel (srcFormat = fmtXB30 ∨ srcFormat = fmtAB30) maxNits (word32 px))

/-- The mathematical values of the products and sums that `deswizzle_intel_x_tiled` computes in
32 bits for the source offset of a pixel. -/
def intelXValues (srcStride x y : ℕ) : List ℕ :=
  let tileIdx := y / 8 * ((srcStride + 512 - 1) / 512) + x * 4 / 512
  [srcStride + 512, x * 4, y / 8 * ((srcStride + 512 - 1) / 512), tileIdx, tileIdx * (512 * 8),
    y % 8 * 512, tileIdx * (512 * 8) + y % 8 * 512,
    tileIdx * (512 * 8) + y % 8 * 512 + x * 4 % 512]

/-- Those of `deswizzle_intel_y_tiled`. -/
def intelYValues (srcStride x y : ℕ) : List ℕ :=
  let tileIdx := y / 32 * ((srcStride + 128 - 1) / 128) + x * 4 / 128
  let column := x * 4 % 128 / 16 * (16 * 32)
  [srcStride + 128, x * 4, y / 32 * ((srcStride + 128 - 1) / 128), tileIdx, tileIdx * (128 * 32),
    column, tileIdx * (128 * 32) + column, y % 32 * 16,
    tileIdx * (128 * 32) + column + y % 32 * 16,
    tileIdx * (128 * 32) + column + y % 32 * 16 + x * 4 % 128 % 16]

/-- The mathematical values of everything that the call computes in 32 bits for a pixel. -/
def values (x y : ℕ) : List ℕ :=
  match c with
  | deswizzle modifier _ =>
    y * g.dstStride.toNat ::
      if tilingOf modifier = none then [g.width.toNat * 4]
      else if modifier &&& 0xFF = 0x01 then intelXValues g.srcStride.toNat x y
      else intelYValues g.srcStride.toNat x y
  | convertFormat _ _ =>
    [y * g.dstStride.toNat, y * g.srcStride.toNat, g.width.toNat * 4]
  | tonemapHdr10 _ _ => []

/-- Row addressing is exact: whatever the buffers hold, the picture comes out at the mathematical
offsets and nothing else changes, and no value computed on the way needs more than 32 bits. -/
structure Exact : Prop where
  drawn : ∀ src dst h, c.Fits g src dst h → ∃ h', c.run g src dst h = some (0, h') ∧
    Drawn h h' dst g.dstStride.toNat 4 g.width.toNat g.height.toNat (c.pixel g h src)
  narrow : ∀ y < g.height.toNat, ∀ x < g.width.toNat, ∀ n ∈ c.values g x y, n < 2 ^ 32

/-- The tile that the last pixel lies in. -/
def lastTile (t : Memory.Tiling) : ℕ :=
  (g.height.toNat - 1) / t.height * tilesX t g.srcStride.toNat + (g.width.toNat - 1) * 4 / t.width

/-- The offsets fit in 32 bits. -/
def InRange : Prop :=
  match c with
  | deswizzle modifier _ => (g.height.toNat - 1) * g.dstStride.toNat < 2 ^ 32 ∧
      ∀ t, tilingOf modifier = some t →
        g.srcStride.toNat + t.width < 2 ^ 32 ∧ lastTile g t < 2 ^ 20
  | convertFormat _ _ => (g.height.toNat - 1) * g.dstStride.toNat < 2 ^ 32 ∧
      (g.height.toNat - 1) * g.srcStride.toNat < 2 ^ 32
  | tonemapHdr10 _ _ => True

variable {c} {g} {t : Memory.Tiling} {modifier : UInt64}

theorem toNat_pos {n : UInt32} (hn : n ≠ 0) : 0 < n.toNat :=
  Nat.pos_of_ne_zero fun he => hn (UInt32.toNat_inj.mp he)

/-! The offsets that fit -/

theorem rows_lt_iff {height stride : ℕ} (hh : 0 < height) :
    (∀ y < height, y * stride < 2 ^ 32) ↔ (height - 1) * stride < 2 ^ 32 := by
  constructor
  · intro hall
    exact hall _ (by omega)
  · intro hlast y hy
    exact (Nat.mul_le_mul_right stride (by omega)).trans_lt hlast

theorem tilingOf_eq (ht : tilingOf modifier = some t) :
    modifier &&& 0xFF = 0x01 ∧ t = intelXTiling ∨ modifier &&& 0xFF ≠ 0x01 ∧ t = intelYTiling := by
  unfold tilingOf at ht
  split_ifs at ht
  next hX => exact .inl ⟨hX, (Option.some.inj ht).symm⟩
  next hX _ => exact .inr ⟨hX, (Option.some.inj ht).symm⟩

theorem tilingOf_size (ht : tilingOf modifier = some t) : t.size = 2 ^ 12 := by
  rcases tilingOf_eq ht with ⟨-, rfl⟩ | ⟨-, rfl⟩
  all_goals rfl

/-- All offsets fit where the tile of the last pixel does. -/
theorem offsets_lt_iff (ht : t.size = 2 ^ 12) (hw : 0 < g.width.toNat) (hh : 0 < g.height.toNat) :
    (∀ y < g.height.toNat, ∀ x < g.width.toNat,
      t.offset (tilesX t g.srcStride.toNat) (x * 4) y < 2 ^ 32) ↔ lastTile g t < 2 ^ 20 := by
  have hfits : ∀ c y, t.offset (tilesX t g.srcStride.toNat) c y < 2 ^ 32 ↔
      y / t.height * tilesX t g.srcStride.toNat + c / t.width < 2 ^ 20 := by
    intro c y
    have hplace := Memory.Tiling.place_mod_lt (t := t) c y
    unfold Memory.Tiling.offset
    rw [ht] at hplace ⊢
    omega
  simp only [hfits]
  constructor
  · intro hall
    exact hall _ (by omega) _ (by omega)
  · intro hlast y hy x hx
    have hrow : y / t.height ≤ (g.height.toNat - 1) / t.height := Nat.div_le_div_right (by omega)
    have hcol : x * 4 / t.width ≤ (g.width.toNat - 1) * 4 / t.width :=
      Nat.div_le_div_right (by omega)
    exact (Nat.add_le_add (Nat.mul_le_mul_right _ hrow) hcol).trans_lt hlast

theorem intelXValues_lt_iff {srcStride x y : ℕ} :
    (∀ n ∈ intelXValues srcStride x y, n < 2 ^ 32) ↔ srcStride + 512 < 2 ^ 32 ∧ x * 4 < 2 ^ 32 ∧
      intelXTiling.offset (tilesX intelXTiling srcStride) (x * 4) y < 2 ^ 32 := by
  have hsmall : y % 8 * 512 < 2 ^ 32 := by omega
  constructor
  · intro hall
    refine ⟨hall _ (by simp [intelXValues]), hall _ (by simp [intelXValues]), ?_⟩
    rw [intelXTiling_offset]
    exact hall _ (by simp [intelXValues, tilesX, intelXTiling, intelXTileWidth])
  · rintro ⟨hs, hx, ho⟩
    obtain ⟨h₁, h₂, h₃, h₄⟩ := intelXTiling_parts ho
    rw [intelXTiling_offset] at ho
    simp only [intelXValues, List.forall_mem_cons, List.not_mem_nil, false_imp_iff, implies_true,
      and_true]
    exact ⟨hs, hx, h₁, h₂, h₃, hsmall, h₄, ho⟩

theorem intelYValues_lt_iff {srcStride x y : ℕ} :
    (∀ n ∈ intelYValues srcStride x y, n < 2 ^ 32) ↔ srcStride + 128 < 2 ^ 32 ∧ x * 4 < 2 ^ 32 ∧
      intelYTiling.offset (tilesX intelYTiling srcStride) (x * 4) y < 2 ^ 32 := by
  have hsmall : y % 32 * 16 < 2 ^ 32 := by omega
  have hcolumn : x * 4 % 128 / 16 * (16 * 32) < 2 ^ 32 := by omega
  constructor
  · intro hall
    refine ⟨hall _ (by simp [intelYValues]), hall _ (by simp [intelYValues]), ?_⟩
    rw [intelYTiling_offset]
    exact hall _ (by simp [intelYValues, tilesX, intelYTiling, intelYTileWidth])
  · rintro ⟨hs, hx, ho⟩
    obtain ⟨h₁, h₂, h₃, h₄, h₅⟩ := intelYTiling_parts ho
    rw [intelYTiling_offset] at ho
    simp only [intelYValues, List.forall_mem_cons, List.not_mem_nil, false_imp_iff, implies_true,
      and_true]
    exact ⟨hs, hx, h₁, h₂, h₃, hcolumn, h₄, hsmall, h₅, ho⟩

/-- The values of a call all fit in 32 bits where the last row and the last tile do. -/
theorem narrow_iff (ha : c.Accepts g) :
    (∀ y < g.height.toNat, ∀ x < g.width.toNat, ∀ n ∈ c.values g x y, n < 2 ^ 32) ↔
      c.InRange g := by
  obtain ⟨hw, hh, hrow, hc⟩ := ha
  have hw' : 0 < g.width.toNat := toNat_pos hw
  have hh' : 0 < g.height.toNat := toNat_pos hh
  have hlt := g.dstStride.toNat_lt
  have hwide : g.width.toNat * 4 < 2 ^ 32 := by omega
  have hpos : ∃ x, x < g.width.toNat := ⟨0, hw'⟩
  cases c with
  | deswizzle modifier srcSize =>
    simp only [values, InRange, List.forall_mem_cons, ← rows_lt_iff hh']
    cases ht : tilingOf modifier with
    | none =>
      simp only [if_true, List.forall_mem_cons, List.not_mem_nil, false_imp_iff, implies_true,
        and_true, hwide, reduceCtorEq]
      exact forall₂_congr fun y hy => ⟨fun hall => hall 0 hw', fun hy x hx => hy⟩
    | some t =>
      simp only [reduceCtorEq, if_false, Option.some.injEq, forall_eq']
      rw [← offsets_lt_iff (tilingOf_size ht) hw' hh']
      have hparts : ∀ x y, (∀ n ∈ if modifier &&& 0xFF = 0x01 then
          intelXValues g.srcStride.toNat x y else intelYValues g.srcStride.toNat x y, n < 2 ^ 32) ↔
            g.srcStride.toNat + t.width < 2 ^ 32 ∧ x * 4 < 2 ^ 32 ∧
              t.offset (tilesX t g.srcStride.toNat) (x * 4) y < 2 ^ 32 := by
        intro x y
        rcases tilingOf_eq ht with ⟨hX, rfl⟩ | ⟨hX, rfl⟩
        · rw [if_pos hX]
          exact intelXValues_lt_iff
        · rw [if_neg hX]
          exact intelYValues_lt_iff
      simp only [hparts]
      constructor
      · intro hall
        exact ⟨fun y hy => (hall y hy 0 hw').1, (hall 0 hh' 0 hw').2.1,
          fun y hy x hx => (hall y hy x hx).2.2.2⟩
      · rintro ⟨hd, hs, ho⟩ y hy x hx
        exact ⟨hd y hy, hs, by omega, ho y hy x hx⟩
  | convertFormat srcFormat dstFormat =>
    simp only [values, InRange, List.forall_mem_cons, List.not_mem_nil, false_imp_iff,
      implies_true, and_true, hwide, ← rows_lt_iff hh']
    constructor
    · intro hall
      exact ⟨fun y hy => (hall y hy 0 hw').1, fun y hy => (hall y hy 0 hw').2⟩
    · rintro ⟨hd, hs⟩ y hy x hx
      exact ⟨hd y hy, hs y hy⟩
  | tonemapHdr10 srcFormat maxNits => simp [values, InRange]

/-! The pictures in range -/

section Drawn
variable {src dst : Slice} {h : Heap}

theorem linear_of_cpuOffset (hc : cpuOffset modifier ≠ none) (ht : tilingOf modifier = none) :
    modifier = drmFormatModLinear ∨ modifier = drmFormatModInvalid := by
  unfold cpuOffset at hc
  unfold tilingOf at ht
  split_ifs at hc ht
  all_goals tauto

/-- The decoder on a layout of plain rows. -/
theorem drmtapDeswizzle_linear {u32 : ℕ → ℕ} {width height srcStride dstStride srcSize : ℕ}
    (hm : modifier = drmFormatModLinear ∨ modifier = drmFormatModInvalid) (hw : width ≠ 0)
    (hh : height ≠ 0) (hrow : width * 4 ≤ dstStride) :
    drmtapDeswizzle u32 (some src) (some dst) width height srcStride dstStride modifier srcSize h =
      (deswizzleLinear u32 src dst width height srcStride dstStride srcSize h).map (0, ·) := by
  have hz : ¬ (width = 0 ∨ height = 0) := not_or.mpr ⟨hw, hh⟩
  simp only [drmtapDeswizzle, if_neg hz, hrow, not_true_eq_false, if_false]
  rcases hm with rfl | rfl
  · rfl
  · rfl

theorem deswizzle_drawn {srcSize : ℕ} (ha : (deswizzle modifier srcSize).Accepts g)
    (hf : (deswizzle modifier srcSize).Fits g src dst h)
    (hin : (deswizzle modifier srcSize).InRange g) :
    ∃ h', (deswizzle modifier srcSize).run g src dst h = some (0, h') ∧
      Drawn h h' dst g.dstStride.toNat 4 g.width.toNat g.height.toNat
        ((deswizzle modifier srcSize).pixel g h src) := by
  obtain ⟨hw, hh, hrow, hc⟩ := ha
  obtain ⟨hsrc, hdst, hfit, hsize, hapart⟩ := hf
  have hw' : 0 < g.width.toNat := toNat_pos hw
  have hh' : 0 < g.height.toNat := toNat_pos hh
  have hlt := g.dstStride.toNat_lt
  have hd := (rows_lt_iff hh').mpr hin.1
  simp only [run]
  cases ht : tilingOf modifier with
  | none =>
    obtain ⟨h', he, hdr⟩ := deswizzleLinear_drawn hsrc hdst hapart hrow hsize hfit
    rw [drmtapDeswizzle_linear (linear_of_cpuOffset hc ht) hw'.ne' hh'.ne' (by omega),
      deswizzleLinear_exact wrap32_exact _ _ _ _ (by omega) hd, he]
    exact ⟨h', rfl, hdr.congr hrow fun y hy x hx => by simp only [pixel, ht]⟩
  | some t =>
    obtain ⟨hs, hlast⟩ := hin.2 t ht
    have ho := (offsets_lt_iff (tilingOf_size ht) hw' hh').mpr hlast
    obtain ⟨h', he, hdr⟩ := deswizzleTiles_drawn hsrc hdst hapart (by omega) hsize hfit
      fun x y => t.offset (tilesX t g.srcStride.toNat) (x * 4) y
    rw [drmtapDeswizzle_tiled wrap32_exact ht hw'.ne' hh'.ne' (by omega) (by omega) hd (by omega)
      ho h, he]
    exact ⟨h', rfl, hdr.congr hrow fun y hy x hx => by simp only [pixel, ht]⟩

theorem convertFormat_drawn {srcFormat dstFormat : UInt32}
    (ha : (convertFormat srcFormat dstFormat).Accepts g)
    (hf : (convertFormat srcFormat dstFormat).Fits g src dst h)
    (hin : (convertFormat srcFormat dstFormat).InRange g) :
    ∃ h', (convertFormat srcFormat dstFormat).run g src dst h = some (0, h') ∧
      Drawn h h' dst g.dstStride.toNat 4 g.width.toNat g.height.toNat
        ((convertFormat srcFormat dstFormat).pixel g h src) := by
  obtain ⟨hw, hh, hrow, hrow', hfmt⟩ := ha
  obtain ⟨hsrc, hdst, hfit, hfit', hapart⟩ := hf
  have hw' : 0 < g.width.toNat := toNat_pos hw
  have hh' : 0 < g.height.toNat := toNat_pos hh
  have hstrides : src.base = dst.base → g.srcStride.toNat = g.dstStride.toNat :=
    fun he => congrArg UInt32.toNat (hapart he)
  have hz : ¬ (g.width.toNat = 0 ∨ g.height.toNat = 0) := by omega
  have hrows : ¬ (g.srcStride.toNat < g.width.toNat * 4 ∨ g.dstStride.toNat < g.width.toNat * 4) := by
    omega
  have hdraw (pixel : List UInt8 → UInt32) := convertRows_fit hsrc hdst hrow hfit' hfit
    (fun he => ⟨rfl, hstrides he⟩) pixel (fun _ _ => rfl) (fun _ _ => rfl)
  simp only [run]
  rw [drmtapConvertFormat_exact wrap32_exact g.dstStride.toNat_lt ((rows_lt_iff hh').mpr hin.2)
    ((rows_lt_iff hh').mpr hin.1)]
  simp only [drmtapConvertFormat, if_neg hz, if_neg hrows]
  by_cases hsame : srcFormat = dstFormat
  · obtain ⟨h', he, hdr⟩ := copyRows_drawn hsrc hdst hstrides hrow hfit' hfit
      fun y hy h' => Eq.refl (h'.memcpy dst (y * g.dstStride.toNat) src
        (y * g.srcStride.toNat) (g.width.toNat * 4))
    simp only [if_pos hsame, id]
    rw [he]
    exact ⟨h', rfl, hdr.congr hrow fun y hy x hx => by simp only [pixel, if_pos hsame]⟩
  · simp only [if_neg hsame]
    rcases hfmt.resolve_left hsame with ⟨h30, hto⟩ | ⟨rfl, hto⟩
    · obtain ⟨h', he, hdr⟩ :=
        hdraw fun px => ar30Pixel (srcFormat = fmtXB30 ∨ srcFormat = fmtAB30) (word32 px)
      rw [if_pos ⟨by simpa [isAr30] using h30, hto⟩]
      exact ⟨h', congrArg (Option.map _) he, hdr.congr hrow fun y hy x hx => by
        simp only [pixel, if_neg hsame, if_pos h30]⟩
    · obtain ⟨h', he, hdr⟩ := hdraw fun px => abgrPixel (word32 px)
      have h30 : ¬ isAr30 fmtAB24 := by decide
      rw [if_neg fun hx => absurd hx.1 (by decide), if_pos ⟨rfl, hto⟩]
      exact ⟨h', congrArg (Option.map _) he, hdr.congr hrow fun y hy x hx => by
        simp only [pixel, if_neg hsame, if_neg h30]⟩

theorem tonemapHdr10_drawn {srcFormat maxNits : UInt32}
    (ha : (tonemapHdr10 srcFormat maxNits).Accepts g)
    (hf : (tonemapHdr10 srcFormat maxNits).Fits g src dst h) :
    ∃ h', (tonemapHdr10 srcFormat maxNits).run g src dst h = some (0, h') ∧
      Drawn h h' dst g.dstStride.toNat 4 g.width.toNat g.height.toNat
        ((tonemapHdr10 srcFormat maxNits).pixel g h src) := by
  obtain ⟨hw, hh, hrow, hrow', hfmt⟩ := ha
  obtain ⟨hsrc, hdst, hfit, hfit', hapart⟩ := hf
  have hw' : 0 < g.width.toNat := toNat_pos hw
  have hh' : 0 < g.height.toNat := toNat_pos hh
  have hlt := g.dstStride.toNat_lt
  obtain ⟨h', he, hdr⟩ := convertRows_fit hsrc hdst hrow hfit' hfit
    (fun he => ⟨rfl, congrArg UInt32.toNat (hapart he)⟩)
    (fun px => hdr10Pixel (srcFormat = fmtXB30 ∨ srcFormat = fmtAB30) maxNits (word32 px))
    (fun _ _ => rfl) (fun _ _ => rfl)
  have hz : ¬ (g.width.toNat = 0 ∨ g.height.toNat = 0) := by omega
  refine ⟨h', ?_, hdr⟩
  simp only [run, drmtapTonemapHdr10, if_neg hz]
  rw [if_neg (isAr30_iff.mp hfmt), if_neg (by omega), he]
  rfl

end Drawn

/-! What is refused, and what is never written -/

section Written
variable {src dst : Slice} {h h' : Heap} {ret : ℤ}

/-- The other calls return an error, and have changed nothing. -/
theorem refused (hn : ¬ c.Accepts g) : ∃ e < 0, c.run g src dst h = some (e, h) := by
  have hinval : - EINVAL < 0 := by decide
  have hnotsup : - ENOTSUP < 0 := by decide
  have hzero : ∀ n : UInt32, n.toNat = 0 → n = 0 := fun n hn => UInt32.toNat_inj.mp hn
  by_cases hz : g.width.toNat = 0 ∨ g.height.toNat = 0
  · refine ⟨_, hinval, ?_⟩
    cases c
    all_goals simp only [run, drmtapDeswizzle, drmtapConvertFormat, drmtapTonemapHdr10, if_pos hz]
  · have hw : g.width ≠ 0 := fun he => hz (.inl (by rw [he]; rfl))
    have hh : g.height ≠ 0 := fun he => hz (.inr (by rw [he]; rfl))
    cases c with
    | deswizzle modifier srcSize =>
      by_cases hc : cpuOffset modifier = none
      · exact ⟨_, hnotsup, drmtapDeswizzle_refused (not_or.mp hz).1 (not_or.mp hz).2 hc⟩
      · have hrow : ¬ g.width.toNat * 4 ≤ g.dstStride.toNat :=
          fun hle => hn ⟨hw, hh, by omega, hc⟩
        unfold cpuOffset at hc
        simp only [run, drmtapDeswizzle, if_neg hz, hrow, not_false_eq_true, if_true]
        split_ifs at hc ⊢
        all_goals first
          | exact ⟨_, hinval, rfl⟩
          | exact ⟨_, hnotsup, rfl⟩
    | convertFormat srcFormat dstFormat =>
      simp only [run, drmtapConvertFormat, if_neg hz]
      split
      · exact ⟨_, hinval, rfl⟩
      next hrows =>
        split
        next hsame => exact absurd ⟨hw, hh, by omega, by omega, .inl hsame⟩ hn
        next hsame =>
          split
          next h30 =>
            exact absurd ⟨hw, hh, by omega, by omega, .inr (.inl ⟨by simpa [isAr30] using h30.1,
              h30.2⟩)⟩ hn
          next =>
            split
            next hab => exact absurd ⟨hw, hh, by omega, by omega, .inr (.inr hab)⟩ hn
            next => exact ⟨_, hnotsup, rfl⟩
    | tonemapHdr10 srcFormat maxNits =>
      simp only [run, drmtapTonemapHdr10, if_neg hz]
      split
      · exact ⟨_, hnotsup, rfl⟩
      next hfmt =>
        split
        · exact ⟨_, hinval, rfl⟩
        next hrows => exact absurd ⟨hw, hh, by omega, by omega, isAr30_iff.mpr hfmt⟩ hn

theorem loaded_length {s : Slice} {off n : ℕ} {l : List UInt8} (he : h.load s off n = some l) :
    l.length = n := (Heap.load_isSome he).2

/-- A copy whose destination offset is held in 32 bits does not reach past its row. -/
theorem copy_written {srcFormat : UInt32}
    (hr : (convertFormat srcFormat srcFormat).run g src dst h = some (0, h')) :
    Writes ⟨dst.base, 2 ^ 32 - 1 + 4 * g.width.toNat⟩ h h' := by
  have hneg : (- EINVAL : ℤ) ≠ 0 := by decide
  simp only [run, drmtapConvertFormat, if_true] at hr
  split at hr
  · exact absurd (Prod.mk.inj (Option.some.inj hr)).1 hneg
  split at hr
  · exact absurd (Prod.mk.inj (Option.some.inj hr)).1 hneg
  obtain ⟨h₁, he, heq⟩ := Option.map_eq_some_iff.mp hr
  obtain rfl : h₁ = h' := (Prod.mk.inj heq).2
  refine Writes.forUpTo (fun y h₂ h₃ hc => ?_) he
  obtain ⟨l, hl, hstore⟩ := Option.bind_eq_some_iff.mp hc
  refine Writes.store_within hstore ?_
  have hoff : wrap32 (y * g.dstStride.toNat) < 2 ^ 32 := Nat.mod_lt _ (by decide)
  have hlen : wrap32 (g.width.toNat * 4) ≤ g.width.toNat * 4 := Nat.mod_le _ _
  rw [loaded_length hl]
  omega

end Written

/-- Row addressing is exact in the calls whose offsets fit in 32 bits, and in no others. -/
theorem exact_iff (c : Conversion) (g : Raster) (ha : c.Accepts g) :
    c.Exact g ↔ c.InRange g := by
  constructor
  · intro he
    exact (narrow_iff ha).mp he.narrow
  · intro hin
    refine ⟨fun src dst h hf => ?_, (narrow_iff ha).mpr hin⟩
    cases c with
    | deswizzle => exact deswizzle_drawn ha hf hin
    | convertFormat => exact convertFormat_drawn ha hf hin
    | tonemapHdr10 => exact tonemapHdr10_drawn ha hf

/-- An 8K frame in the Y layout is addressed exactly. -/
theorem exact_iff_tiled :
    (deswizzle i915FormatModYTiled 132710400).Exact ⟨7680, 4320, 30720, 30720⟩ ↔
      (deswizzle i915FormatModYTiled 132710400).InRange ⟨7680, 4320, 30720, 30720⟩ :=
  exact_iff _ _ ⟨by decide, by decide, by decide, by decide⟩

/-- A column of 65537 pixels at a pitch of 65536: its last pixel lies 2^32 bytes into the
destination, and the copy puts it over the first. -/
theorem copy_inexact : ¬ ∀ (c : Conversion) (g : Raster), c.Accepts g → c.Exact g := by
  intro hall
  have he := hall (convertFormat fmtXR24 fmtXR24) ⟨1, 65537, 65536, 65536⟩
    ⟨by decide, by decide, by decide, by decide, .inl rfl⟩
  have hrows : ∀ y < 65537, y * 65536 + 4 * 1 ≤ 2 ^ 32 + 4 := by
    intro y hy
    omega
  obtain ⟨h', hr, hd⟩ := he.drawn ⟨0, 2 ^ 32 + 4⟩ ⟨1, 2 ^ 32 + 4⟩
    (twoBlocks (fun _ => 0xFF) (2 ^ 32 + 4) (2 ^ 32 + 4))
    ⟨twoBlocks_src _ _ _, twoBlocks_dst _ _ _, hrows, hrows, fun he => absurd he (by decide)⟩
  have hdrawn := hd.read (x := 0) (y := 65536) (i := 3) (by decide) (by decide) (by decide)
    (by decide)
  have hkept := (copy_written hr).past (65536 * 65536 + 3) (by decide)
  exact absurd (hkept.symm.trans hdrawn) (by decide)

end Conversion

end Drmtap
