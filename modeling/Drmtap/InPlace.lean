import Drmtap.RowAddressing

/-! The reduction of a 10-bit picture over itself, as after a deswizzle, and into another buffer. -/
namespace Drmtap

open Memory

namespace Conversion

/-- The call makes an 8-bit picture of a 10-bit one. -/
def Reduces : Conversion → Prop
  | convertFormat srcFormat dstFormat =>
    isAr30 srcFormat ∧ (dstFormat = fmtXR24 ∨ dstFormat = fmtAR24)
  | tonemapHdr10 srcFormat _ => isAr30 srcFormat
  | deswizzle _ _ => False

/-- A picture in one buffer, and room for it in another. -/
structure Beside (g : Raster) (buf dst : Slice) (h : Heap) : Prop where
  bufLive : h.Live buf
  dstLive : h.Live dst
  apart : buf.base ≠ dst.base
  bufRows : ∀ y < g.height.toNat, y * g.srcStride.toNat + 4 * g.width.toNat ≤ buf.len
  dstRows : ∀ y < g.height.toNat, y * g.dstStride.toNat + 4 * g.width.toNat ≤ dst.len

/-- The sizes of the call that reads and writes one buffer. -/
def overItself (g : Raster) : Raster := { g with dstStride := g.srcStride }

/-- After the call over `buf` itself has left `h₁` and the one into `dst` has left `h₂`: the rows
are the same, and the bytes of `buf` between them are what they were. -/
structure SameRows (g : Raster) (buf dst : Slice) (h h₁ h₂ : Heap) : Prop where
  rows : ∀ y < g.height.toNat, bytesAt h₁ buf (y * g.srcStride.toNat) (4 * g.width.toNat) =
    bytesAt h₂ dst (y * g.dstStride.toNat) (4 * g.width.toNat)
  padding : ∀ o, (∀ y < g.height.toNat, ¬ Row g.srcStride.toNat (4 * g.width.toNat) y o) →
    h₁.read buf.base o = h.read buf.base o

/-- Whatever the buffers hold, the call over one buffer does what the call into another does. -/
def InPlaceAgrees (c : Conversion) (g : Raster) : Prop :=
  ∀ buf dst h, Beside g buf dst h → ∃ ret h₁ h₂,
    c.run (overItself g) buf buf h = some (ret, h₁) ∧ c.run g buf dst h = some (ret, h₂) ∧
      SameRows g buf dst h h₁ h₂

section Agrees
variable {c : Conversion} {g : Raster} {src dst buf : Slice} {h h' : Heap}

/-- A row of a picture that was drawn. -/
theorem drawn_row {width height stride : ℕ} {cell : ℕ → ℕ → List UInt8}
    (hd : Drawn h h' dst stride 4 width height cell) (hw : 4 * width ≤ stride) {y : ℕ}
    (hy : y < height) : bytesAt h' dst (y * stride) (4 * width) =
      (List.range (4 * width)).map fun j => ((cell (j / 4) y)[j % 4]?).getD 0 := by
  apply List.map_congr_left
  intro j hj
  have hlt : j < 4 * width := List.mem_range.mp hj
  have hx : j / 4 < width := by omega
  have hread := hd.read hw hx hy (i := j % 4) (by omega)
  rw [← hread]
  congr 1
  omega

theorem Reduces.run_empty (hc : c.Reduces) (hz : g.width.toNat = 0 ∨ g.height.toNat = 0) :
    c.run g src dst h = some (- EINVAL, h) := by
  cases c with
  | deswizzle => exact hc.elim
  | convertFormat => simp only [run, drmtapConvertFormat, if_pos hz]
  | tonemapHdr10 => simp only [run, drmtapTonemapHdr10, if_pos hz]

theorem Reduces.accepts (hc : c.Reduces) (hw : g.width ≠ 0) (hh : g.height ≠ 0)
    (hrow : 4 * g.width.toNat ≤ g.srcStride.toNat) (hrow' : 4 * g.width.toNat ≤ g.dstStride.toNat) :
    c.Accepts g := by
  cases c with
  | deswizzle => exact hc.elim
  | convertFormat => exact ⟨hw, hh, hrow', hrow, .inr (.inl hc)⟩
  | tonemapHdr10 => exact ⟨hw, hh, hrow', hrow, hc⟩

theorem Reduces.drawn (hc : c.Reduces) (ha : c.Accepts g) (hf : c.Fits g src dst h)
    (hin : c.InRange g) : ∃ h', c.run g src dst h = some (0, h') ∧
      Drawn h h' dst g.dstStride.toNat 4 g.width.toNat g.height.toNat (c.pixel g h src) := by
  cases c with
  | deswizzle => exact hc.elim
  | convertFormat => exact convertFormat_drawn ha hf hin
  | tonemapHdr10 => exact tonemapHdr10_drawn ha hf

theorem Reduces.pixel_overItself (hc : c.Reduces) :
    c.pixel (overItself g) h src = c.pixel g h src := by
  cases c with
  | deswizzle => exact hc.elim
  | convertFormat => rfl
  | tonemapHdr10 => rfl

theorem Reduces.inRange_overItself (hc : c.Reduces) (hin : c.InRange g) :
    c.InRange (overItself g) := by
  cases c with
  | deswizzle => exact hc.elim
  | convertFormat => exact ⟨hin.2, hin.2⟩
  | tonemapHdr10 => trivial

theorem Reduces.fits_overItself (hc : c.Reduces) (hb : Beside g buf dst h) :
    c.Fits (overItself g) buf buf h := by
  cases c with
  | deswizzle => exact hc.elim
  | convertFormat => exact ⟨hb.bufLive, hb.bufLive, hb.bufRows, hb.bufRows, fun _ => rfl⟩
  | tonemapHdr10 => exact ⟨hb.bufLive, hb.bufLive, hb.bufRows, hb.bufRows, fun _ => rfl⟩

theorem Reduces.fits (hc : c.Reduces) (hb : Beside g buf dst h) : c.Fits g buf dst h := by
  cases c with
  | deswizzle => exact hc.elim
  | convertFormat =>
    exact ⟨hb.bufLive, hb.dstLive, hb.dstRows, hb.bufRows, fun he => absurd he hb.apart⟩
  | tonemapHdr10 =>
    exact ⟨hb.bufLive, hb.dstLive, hb.dstRows, hb.bufRows, fun he => absurd he hb.apart⟩

/-- Both calls draw the picture whose pixels are made from the source as it was: none is
overwritten before it is read. -/
theorem Reduces.agrees (hc : c.Reduces) (hrow : 4 * g.width.toNat ≤ g.srcStride.toNat)
    (hrow' : 4 * g.width.toNat ≤ g.dstStride.toNat) (hin : c.InRange g) : c.InPlaceAgrees g := by
  intro buf dst h hb
  by_cases hz : g.width.toNat = 0 ∨ g.height.toNat = 0
  · refine ⟨- EINVAL, h, h, hc.run_empty hz, hc.run_empty hz, ?_, fun _ _ => rfl⟩
    intro y hy
    rw [show g.width.toNat = 0 by omega]
    rfl
  · have hw : g.width ≠ 0 := fun he => hz (.inl (by rw [he]; rfl))
    have hh : g.height ≠ 0 := fun he => hz (.inr (by rw [he]; rfl))
    obtain ⟨h₁, hr₁, hd₁⟩ := hc.drawn (g := overItself g) (hc.accepts hw hh hrow hrow)
      (hc.fits_overItself hb) (hc.inRange_overItself hin)
    obtain ⟨h₂, hr₂, hd₂⟩ := hc.drawn (hc.accepts hw hh hrow hrow') (hc.fits hb) hin
    rw [hc.pixel_overItself] at hd₁
    refine ⟨0, h₁, h₂, hr₁, hr₂, ?_, ?_⟩
    · intro y hy
      exact (drawn_row hd₁ hrow hy).trans (drawn_row hd₂ hrow' hy).symm
    · intro o ho
      apply hd₁.miss
      rintro ⟨y, hy, hr⟩
      exact ho y hy hr

end Agrees

/-! Offsets that do not fit in 32 bits -/

section Wraps
variable {g : Raster} {srcFormat dstFormat : UInt32}

/-- What every round of a loop keeps, the loop keeps. -/
theorem forUpTo_keeps {σ : Type} {n : ℕ} {body : ℕ → σ → Option σ} {P : σ → Prop}
    (hb : ∀ i < n, ∀ s s', P s → body i s = some s' → P s') {s s' : σ} (hs : P s)
    (he : forUpTo n body s = some s') : P s' := by
  induction n generalizing s' with
  | zero =>
    cases he
    exact hs
  | succ n ih =>
    obtain ⟨s₁, h₁, h₂⟩ := Option.bind_eq_some_iff.mp he
    exact hb n (by omega) s₁ s' (ih (fun i hi => hb i (by omega)) h₁) h₂

/-- A byte that is in no pixel of the destination stays. -/
theorem convertRows_kept {unit width height o : ℕ} {pixel : List UInt8 → UInt32}
    {srcRow dstRow : ℕ → ℕ} {src dst : Slice} {h h' : Heap}
    (ho : ∀ y < height, ∀ x < width, o < dstRow y + 4 * x ∨ dstRow y + 4 * x + 4 ≤ o)
    (he : convertRows unit pixel srcRow dstRow src dst width height h = some h') :
    h'.read dst.base o = h.read dst.base o := by
  refine forUpTo_keeps (P := fun h₁ => h₁.read dst.base o = h.read dst.base o) ?_ rfl he
  intro y hy h₁ h₂ hkept hrow
  refine forUpTo_keeps (P := fun h₁ => h₁.read dst.base o = h.read dst.base o) ?_ hkept hrow
  intro x hx h₃ h₄ hkept₃ hcell
  obtain ⟨px, -, hstore⟩ := Option.bind_eq_some_iff.mp hcell
  obtain ⟨-, -, hf⟩ := Heap.filled_store hstore
  rw [← hkept₃]
  apply hf.miss
  have := ho y hy x hx
  rw [bytes32_length]
  omega

/-- No row reaches the place of the last one, when that lies past 2^32. -/
theorem last_row_apart {height stride row y : ℕ} (hrow : row ≤ stride) (hlt : stride < 2 ^ 32)
    (hy : y < height) (hlast : 2 ^ 32 ≤ (height - 1) * stride) :
    wrap32 (y * stride) + row ≤ (height - 1) * stride := by
  have hle : wrap32 (y * stride) ≤ y * stride := Nat.mod_le _ _
  by_cases hlasty : y = height - 1
  · have hw : wrap32 (y * stride) < 2 ^ 32 := Nat.mod_lt _ (by decide)
    subst hlasty
    have hmod : 2 ^ 32 + wrap32 ((height - 1) * stride) ≤ (height - 1) * stride := by
      have hdiv := Nat.div_add_mod ((height - 1) * stride) (2 ^ 32)
      have hpos : 1 ≤ (height - 1) * stride / 2 ^ 32 := (Nat.one_le_div_iff (by decide)).mpr hlast
      unfold wrap32
      omega
    omega
  · have hnext : y * stride + stride ≤ (height - 1) * stride := by
      rw [← Nat.succ_mul]
      exact Nat.mul_le_mul_right stride (by omega)
    omega

theorem Reduces.run_eq (hc : (convertFormat srcFormat dstFormat).Reduces)
    (ha : (convertFormat srcFormat dstFormat).Accepts g) (src dst : Slice) (h : Heap) :
    (convertFormat srcFormat dstFormat).run g src dst h =
      (convertAr30ToXrgb8888 wrap32 src dst g.width.toNat g.height.toNat g.srcStride.toNat
        g.dstStride.toNat (srcFormat = fmtXB30 ∨ srcFormat = fmtAB30) h).map (0, ·) := by
  obtain ⟨hw, hh, hrow', hrow, -⟩ := ha
  obtain ⟨h30, hto⟩ := hc
  have hw' : 0 < g.width.toNat := toNat_pos hw
  have hh' : 0 < g.height.toNat := toNat_pos hh
  have hz : ¬ (g.width.toNat = 0 ∨ g.height.toNat = 0) := by omega
  have hrows : ¬ (g.srcStride.toNat < g.width.toNat * 4 ∨ g.dstStride.toNat < g.width.toNat * 4) := by
    omega
  have hsame : srcFormat ≠ dstFormat := by
    rintro rfl
    rcases hto with rfl | rfl
    all_goals exact absurd h30 (by decide)
  simp only [run, drmtapConvertFormat, if_neg hz, if_neg hrows, if_neg hsame]
  rw [if_pos ⟨by simpa [isAr30] using h30, hto⟩]

/-- Of a black picture the reduction makes opaque pixels. -/
theorem black_opaque (bgr : Bool) :
    (bytes32 (ar30Pixel bgr (word32 [0, 0, 0, 0])))[3]? = some 0xFF := by
  cases bgr <;> decide

theorem twoBlocks_black (n k off : ℕ) :
    bytesAt (twoBlocks (fun _ => 0) n k) ⟨0, n⟩ off 4 = [0, 0, 0, 0] := by
  have hzero : ∀ i, (twoBlocks (fun _ => 0) n k).read 0 i = 0 := fun _ => rfl
  simp [bytesAt, hzero, List.range_succ]

theorem wraps_disagree (hc : (convertFormat srcFormat dstFormat).Reduces) (hw : g.width ≠ 0)
    (hrow : 4 * g.width.toNat ≤ g.srcStride.toNat) (hrow' : 4 * g.width.toNat ≤ g.dstStride.toNat)
    (hbytes : g.height.toNat * g.srcStride.toNat < 2 ^ 32)
    (hlast : 2 ^ 32 ≤ (g.height.toNat - 1) * g.dstStride.toNat) :
    ¬ (convertFormat srcFormat dstFormat).InPlaceAgrees g := by
  intro hall
  have hw' : 0 < g.width.toNat := toNat_pos hw
  have hh' : 0 < g.height.toNat := by
    by_contra h0
    rw [show g.height.toNat = 0 by omega] at hlast
    omega
  have hh : g.height ≠ 0 := by
    intro he
    rw [he] at hh'
    exact absurd hh' (by decide)
  have hend := rows_fit hrow (le_refl (g.height.toNat * g.srcStride.toNat))
  have hend' : ∀ y < g.height.toNat, y * g.dstStride.toNat + 4 * g.width.toNat ≤
      g.height.toNat * g.dstStride.toNat := rows_fit hrow' le_rfl
  set n := g.height.toNat * g.srcStride.toNat
  set k := g.height.toNat * g.dstStride.toNat
  have hb : Beside g ⟨0, n⟩ ⟨1, k⟩ (twoBlocks (fun _ => 0) n k) :=
    ⟨twoBlocks_src _ _ _, twoBlocks_dst _ _ _, Nat.zero_ne_one, hend, hend'⟩
  obtain ⟨ret, h₁, h₂, hr₁, hr₂, hsame⟩ := hall _ _ _ hb
  have hin : (convertFormat srcFormat dstFormat).InRange (overItself g) := by
    have hle : (g.height.toNat - 1) * g.srcStride.toNat ≤ n := Nat.mul_le_mul_right _ (by omega)
    exact ⟨hle.trans_lt hbytes, hle.trans_lt hbytes⟩
  obtain ⟨h₁', hr₁', hd₁⟩ := hc.drawn (g := overItself g) (hc.accepts hw hh hrow hrow)
    (hc.fits_overItself hb) hin
  obtain rfl : h₁' = h₁ := congrArg Prod.snd (Option.some.inj (hr₁'.symm.trans hr₁))
  -- the last row of the picture made in place is opaque
  have hopaque : h₁'.read 0 ((g.height.toNat - 1) * g.srcStride.toNat + 3) = 0xFF := by
    have hread := hd₁.read (x := 0) (y := g.height.toNat - 1) (i := 3) hrow hw'
      (Nat.sub_lt hh' zero_lt_one) (by omega)
    rw [Nat.mul_zero, Nat.add_zero] at hread
    have hne : srcFormat ≠ dstFormat := by
      rintro rfl
      rcases hc.2 with rfl | rfl
      all_goals exact absurd hc.1 (by decide)
    refine Eq.trans hread ?_
    simp only [pixel, if_neg hne, if_pos hc.1, twoBlocks_black, black_opaque]
    rfl
  -- that of the other was never written
  have hkept : h₂.read 1 ((g.height.toNat - 1) * g.dstStride.toNat + 3) = 0 := by
    rw [hc.run_eq (hc.accepts hw hh hrow hrow')] at hr₂
    obtain ⟨h₂', he, heq⟩ := Option.map_eq_some_iff.mp hr₂
    obtain rfl : h₂' = h₂ := congrArg Prod.snd heq
    refine (convertRows_kept (fun y hy x hx => .inr ?_) he).trans rfl
    have hapart := last_row_apart hrow' g.dstStride.toNat_lt hy hlast
    have hcell := cell_end_le 4 hx
    omega
  have hrows := congrArg (fun l : List UInt8 => l[3]?)
    (hsame.rows (g.height.toNat - 1) (Nat.sub_lt hh' zero_lt_one))
  have h3 : 3 < 4 * g.width.toNat := by omega
  simp only [bytesAt_getElem? h3, hopaque, hkept] at hrows
  revert hrows
  decide

end Wraps

/-- The reduction of a picture over itself makes in each row what the same call makes in another
buffer, and leaves the bytes between the rows, unless the last row of the other buffer lies past
2^32 in the converter that counts in 32 bits. -/
theorem in_place_agrees_iff {c : Conversion} {g : Raster} (hc : c.Reduces)
    (hrow : 4 * g.width.toNat ≤ g.srcStride.toNat)
    (hbytes : g.height.toNat * g.srcStride.toNat < 2 ^ 32)
    (hrow' : 4 * g.width.toNat ≤ g.dstStride.toNat) :
    c.InPlaceAgrees g ↔ g.width = 0 ∨ c.InRange g := by
  constructor
  · intro hall
    by_contra hnot
    obtain ⟨hw, hin⟩ := not_or.mp hnot
    cases c with
    | deswizzle => exact hc.elim
    | tonemapHdr10 => exact hin trivial
    | convertFormat srcFormat dstFormat =>
      have hsrc : (g.height.toNat - 1) * g.srcStride.toNat < 2 ^ 32 :=
        (Nat.mul_le_mul_right _ (Nat.sub_le _ _)).trans_lt hbytes
      have hdst : 2 ^ 32 ≤ (g.height.toNat - 1) * g.dstStride.toNat :=
        not_lt.mp fun hlt => hin ⟨hlt, hsrc⟩
      exact wraps_disagree hc hw hrow hrow' hbytes hdst hall
  · rintro (hw | hin)
    · intro buf dst h _
      have hz : g.width.toNat = 0 ∨ g.height.toNat = 0 := .inl (by rw [hw]; rfl)
      refine ⟨- EINVAL, h, h, hc.run_empty hz, hc.run_empty hz, ?_, fun _ _ => rfl⟩
      intro y _
      rw [hw]
      rfl
    · exact hc.agrees hrow hrow' hin

/-- A 4K frame that was deswizzled. -/
theorem in_place_agrees_iff_4k : (convertFormat fmtXR30 fmtXR24).InPlaceAgrees ⟨3840, 2160, 15360, 16384⟩ ↔
    (3840 : UInt32) = 0 ∨ (convertFormat fmtXR30 fmtXR24).InRange ⟨3840, 2160, 15360, 16384⟩ :=
  in_place_agrees_iff (g := ⟨3840, 2160, 15360, 16384⟩) ⟨by decide, .inl rfl⟩ (by decide)
    (by decide) (by decide)

/-- A column of three pixels into a buffer with a pitch of 2^31: its last pixel is put over the
first. -/
theorem in_place_disagrees : ¬ ∀ (c : Conversion) (g : Raster), c.Reduces →
    4 * g.width.toNat ≤ g.srcStride.toNat → g.height.toNat * g.srcStride.toNat < 2 ^ 32 →
    4 * g.width.toNat ≤ g.dstStride.toNat → c.InPlaceAgrees g := by
  intro hall
  have hc : (convertFormat fmtXR30 fmtXR24).Reduces := ⟨by decide, .inl rfl⟩
  exact wraps_disagree (g := ⟨1, 3, 4, 2147483648⟩) hc (by decide) (by decide) (by decide)
    (by decide) (by decide) (hall _ _ hc (by decide) (by decide) (by decide))

end Conversion

end Drmtap
