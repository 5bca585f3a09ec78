import Drmtap.Lib.Tiling
import Drmtap.PixelRaster

/-! What `drmtap_deswizzle` refuses, and that it undoes the two Intel tilings. -/
namespace Drmtap

open Memory

/-! The layouts that are refused -/

/-- The modifiers that the decoder is documented to decode. -/
def decodedModifiers : List UInt64 :=
  [drmFormatModLinear, drmFormatModInvalid, i915FormatModXTiled, i915FormatModYTiled,
    i915FormatModYfTiled]

/-- A modifier that the two bytes the code looks at take for a decoded one, and only they. -/
def Mistaken (modifier : UInt64) : Prop :=
  modifier >>> 56 = drmFormatModVendorIntel ∧
    (modifier &&& 0xFF = 0x01 ∨ modifier &&& 0xFF = 0x02 ∨ modifier &&& 0xFF = 0x03) ∧
    modifier ∉ decodedModifiers

/-- A source of `n` bytes and a zeroed destination of `m`. -/
def twoBlocks (byte : ℕ → UInt8) (n m : ℕ) : Heap :=
  ((Heap.empty.alloc n byte).2.alloc m fun _ => 0).2

theorem twoBlocks_src (byte : ℕ → UInt8) (n m : ℕ) : (twoBlocks byte n m).Live ⟨0, n⟩ :=
  (Heap.alloc_live Heap.empty n byte).alloc m _

theorem twoBlocks_dst (byte : ℕ → UInt8) (n m : ℕ) : (twoBlocks byte n m).Live ⟨1, m⟩ :=
  Heap.alloc_live _ m _

section Refused
variable {u32 : ℕ → ℕ} {src dst : Option Slice} {width height srcStride dstStride srcSize : ℕ}
  {modifier : UInt64} {h h' : Heap} {ret : ℤ}

/-- A failure has changed nothing. -/
theorem drmtapDeswizzle_failed
    (hr : drmtapDeswizzle u32 src dst width height srcStride dstStride modifier srcSize h =
      some (ret, h')) (hret : ret ≠ 0) : h' = h := by
  have hdone : ∀ r : Option Heap, r.map (fun h => ((0 : ℤ), h)) = some (ret, h') → h' = h := by
    intro r he
    obtain ⟨h₁, -, heq⟩ := Option.map_eq_some_iff.mp he
    exact absurd (Prod.mk.inj heq).1.symm hret
  have hsame : ∀ e : ℤ, (some (e, h) : Option (ℤ × Heap)) = some (ret, h') → h' = h := by
    intro e he
    exact (Prod.mk.inj (Option.some.inj he)).2.symm
  unfold drmtapDeswizzle at hr
  split at hr
  · simp only at hr
    split_ifs at hr
    all_goals first | exact hsame _ hr | exact hdone _ hr
  · exact hsame _ hr

/-- What the decoder makes of a modifier that it does not decode. -/
theorem drmtapDeswizzle_refused {src dst : Slice} (hw : width ≠ 0) (hh : height ≠ 0)
    (hc : cpuOffset modifier = none) :
    drmtapDeswizzle u32 (some src) (some dst) width height srcStride dstStride modifier srcSize h =
      some (- ENOTSUP, h) := by
  unfold cpuOffset at hc
  have hz : ¬ (width = 0 ∨ height = 0) := not_or.mpr ⟨hw, hh⟩
  simp only [drmtapDeswizzle, if_neg hz]
  split_ifs at hc ⊢ <;> rfl

/-- The decoder fails closed on an input: it declines every layout but the documented ones, and
a failure of any kind has left the heap alone. -/
def FailsClosed (src dst : Option Slice) (width height srcStride dstStride : ℕ) (modifier : UInt64)
    (srcSize : ℕ) (h : Heap) : Prop :=
  let run := drmtapDeswizzle wrap32 src dst width height srcStride dstStride modifier srcSize h
  (src ≠ none → dst ≠ none → width ≠ 0 → height ≠ 0 → modifier ∉ decodedModifiers →
    run = some (- ENOTSUP, h)) ∧
  ∀ ret h', run = some (ret, h') → ret ≠ 0 → h' = h

/-- The layouts that the code decodes are the documented ones and those it mistakes for them. -/
theorem cpuOffset_eq_none_iff :
    cpuOffset modifier = none ↔ modifier ∉ decodedModifiers ∧ ¬ Mistaken modifier := by
  constructor
  · intro hc
    constructor
    · intro hm
      have hsome : (cpuOffset modifier).isSome := by
        simp only [decodedModifiers, List.mem_cons, List.not_mem_nil, or_false] at hm
        rcases hm with rfl | rfl | rfl | rfl | rfl
        all_goals rfl
      rw [hc] at hsome
      cases hsome
    · rintro ⟨hv, ht, -⟩
      simp only [cpuOffset, hv, if_true] at hc
      split_ifs at hc
      next h1 h2 => exact h2 (ht.resolve_left h1)
  · rintro ⟨hnot, hmis⟩
    unfold cpuOffset
    simp only [decodedModifiers, List.mem_cons, List.not_mem_nil, or_false, not_or] at hnot
    obtain ⟨hlinear, hinvalid, -⟩ := id hnot
    rw [if_neg hlinear]
    split
    next hv =>
      have ht : ¬ (modifier &&& 0xFF = 0x01 ∨ modifier &&& 0xFF = 0x02 ∨
          modifier &&& 0xFF = 0x03) :=
        fun ht => hmis ⟨hv, ht, by simpa [decodedModifiers] using hnot⟩
      rw [if_neg fun h1 => ht (.inl h1), if_neg fun h2 => ht (.inr h2)]
    next => rfl

/-- A layout that the code takes for a decoded one is never declined with `-ENOTSUP`. -/
theorem drmtapDeswizzle_mistaken {src dst : Slice} (hw : width ≠ 0) (hh : height ≠ 0)
    (hm : Mistaken modifier) :
    drmtapDeswizzle u32 (some src) (some dst) width height srcStride dstStride modifier srcSize h ≠
      some (- ENOTSUP, h) := by
  obtain ⟨hv, ht, hnot⟩ := hm
  have hlinear : modifier ≠ drmFormatModLinear := by
    rintro rfl
    exact hnot (by decide)
  have hdone : ∀ r : Option Heap, r.map (fun h => ((0 : ℤ), h)) ≠ some (- ENOTSUP, h) := by
    intro r he
    obtain ⟨h₁, -, heq⟩ := Option.map_eq_some_iff.mp he
    exact absurd (Prod.mk.inj heq).1 (by decide)
  have hinval : (some (- EINVAL, h) : Option (ℤ × Heap)) ≠ some (- ENOTSUP, h) := by
    intro he
    exact absurd (Prod.mk.inj (Option.some.inj he)).1 (by decide)
  have hz : ¬ (width = 0 ∨ height = 0) := not_or.mpr ⟨hw, hh⟩
  simp only [drmtapDeswizzle, if_neg hz, if_neg hlinear, if_pos hv]
  split_ifs
  all_goals first | exact hdone _ | exact hinval | exact absurd ht (by tauto)

/-- The decoder fails closed exactly where its two bytes tell the layout right. -/
theorem deswizzle_fails_closed_iff (src dst : Option Slice)
    (width height srcStride dstStride srcSize : ℕ) (modifier : UInt64) (h : Heap) :
    FailsClosed src dst width height srcStride dstStride modifier srcSize h ↔
      ¬ (src ≠ none ∧ dst ≠ none ∧ width ≠ 0 ∧ height ≠ 0 ∧ Mistaken modifier) := by
  constructor
  · rintro ⟨hdeclines, -⟩ ⟨hs, hd, hw, hh, hm⟩
    obtain ⟨src, rfl⟩ := Option.ne_none_iff_exists'.mp hs
    obtain ⟨dst, rfl⟩ := Option.ne_none_iff_exists'.mp hd
    exact drmtapDeswizzle_mistaken hw hh hm (hdeclines hs hd hw hh hm.2.2)
  · intro hnot
    refine ⟨?_, fun ret h' hr hret => drmtapDeswizzle_failed hr hret⟩
    intro hs hd hw hh hmod
    have hmis : ¬ Mistaken modifier := fun hm => hnot ⟨hs, hd, hw, hh, hm⟩
    obtain ⟨src, rfl⟩ := Option.ne_none_iff_exists'.mp hs
    obtain ⟨dst, rfl⟩ := Option.ne_none_iff_exists'.mp hd
    exact drmtapDeswizzle_refused hw hh (cpuOffset_eq_none_iff.mpr ⟨hmod, hmis⟩)

/-- One pixel under an Intel modifier with a bit set that the code does not look at: it is
copied, and 0 is returned. -/
theorem deswizzle_mistakes_modifier :
    ¬ ∀ (src dst : Option Slice) (width height srcStride dstStride srcSize : ℕ)
      (modifier : UInt64) (h : Heap),
      FailsClosed src dst width height srcStride dstStride modifier srcSize h := by
  intro hall
  have hdeclined := (hall (some ⟨0, 4⟩) (some ⟨1, 4⟩) 1 1 4 4 4 0x0100000000000101
    (twoBlocks (fun _ => 7) 4 4)).1 (by decide) (by decide) (by decide) (by decide) (by decide)
  have hdecoded : (drmtapDeswizzle wrap32 (some ⟨0, 4⟩) (some ⟨1, 4⟩) 1 1 4 4
      0x0100000000000101 4 (twoBlocks (fun _ => 7) 4 4)).map Prod.fst = some 0 := by decide
  rw [hdeclined] at hdecoded
  exact absurd hdecoded (by decide)

end Refused

/-! The two tilings -/

def intelXTiling : Tiling where
  width := intelXTileWidth
  height := intelXTileHeight
  place c r := r * intelXTileWidth + c
  column o := o % intelXTileWidth
  row o := o / intelXTileWidth
  width_pos := by decide
  height_pos := by decide
  place_lt := by
    unfold intelXTileWidth intelXTileHeight
    intro c hc r hr
    omega
  column_place := by
    unfold intelXTileWidth
    intro c hc r hr
    omega
  row_place := by
    unfold intelXTileWidth
    intro c hc r hr
    omega

/-- Columns of 16 bytes, one below the other. -/
def intelYTiling : Tiling where
  width := intelYTileWidth
  height := intelYTileHeight
  place c r := c / intelYOword * (intelYOword * intelYTileHeight) + r * intelYOword + c % intelYOword
  column o := o / (intelYOword * intelYTileHeight) * intelYOword + o % intelYOword
  row o := o % (intelYOword * intelYTileHeight) / intelYOword
  width_pos := by decide
  height_pos := by decide
  place_lt := by
    unfold intelYTileWidth intelYTileHeight intelYOword
    intro c hc r hr
    omega
  column_place := by
    unfold intelYTileWidth intelYTileHeight intelYOword
    intro c hc r hr
    omega
  row_place := by
    unfold intelYTileWidth intelYTileHeight intelYOword
    intro c hc r hr
    omega

theorem intelXTiling_keeps : intelXTiling.Keeps 4 := by
  constructor
  · decide
  · intro c r i hc hi
    show r * 512 + (c + i) = r * 512 + c + i
    omega

theorem intelYTiling_keeps : intelYTiling.Keeps 4 := by
  constructor
  · decide
  · intro c r i hc hi
    show (c + i) / 16 * (16 * 32) + r * 16 + (c + i) % 16 =
      c / 16 * (16 * 32) + r * 16 + c % 16 + i
    omega

section Tilings
variable {u32 : ℕ → ℕ} {srcStride x y : ℕ}

theorem intelXTiling_offset (n x y : ℕ) : intelXTiling.offset n (x * 4) y =
    (y / 8 * n + x * 4 / 512) * (512 * 8) + y % 8 * 512 + x * 4 % 512 :=
  (Nat.add_assoc _ _ _).symm

theorem intelYTiling_offset (n x y : ℕ) : intelYTiling.offset n (x * 4) y =
    (y / 32 * n + x * 4 / 128) * (128 * 32) + x * 4 % 128 / 16 * (16 * 32) + y % 32 * 16 +
      x * 4 % 128 % 16 := by
  rw [Nat.add_assoc, Nat.add_assoc, ← Nat.add_assoc (x * 4 % 128 / 16 * (16 * 32))]
  rfl

/-- An offset is the largest of the products and sums that it is made of. -/
theorem intelXTiling_parts {n b : ℕ} (ho : intelXTiling.offset n (x * 4) y < b) :
    y / 8 * n < b ∧ y / 8 * n + x * 4 / 512 < b ∧ (y / 8 * n + x * 4 / 512) * (512 * 8) < b ∧
      (y / 8 * n + x * 4 / 512) * (512 * 8) + y % 8 * 512 < b := by
  rw [intelXTiling_offset] at ho
  have h₄ := (Nat.le_add_right _ _).trans_lt ho
  have h₃ := (Nat.le_add_right _ _).trans_lt h₄
  have h₂ := (Nat.le_mul_of_pos_right _ (by decide)).trans_lt h₃
  exact ⟨(Nat.le_add_right _ _).trans_lt h₂, h₂, h₃, h₄⟩

theorem intelYTiling_parts {n b : ℕ} (ho : intelYTiling.offset n (x * 4) y < b) :
    y / 32 * n < b ∧ y / 32 * n + x * 4 / 128 < b ∧ (y / 32 * n + x * 4 / 128) * (128 * 32) < b ∧
      (y / 32 * n + x * 4 / 128) * (128 * 32) + x * 4 % 128 / 16 * (16 * 32) < b ∧
      (y / 32 * n + x * 4 / 128) * (128 * 32) + x * 4 % 128 / 16 * (16 * 32) + y % 32 * 16 < b := by
  rw [intelYTiling_offset] at ho
  have h₅ := (Nat.le_add_right _ _).trans_lt ho
  have h₄ := (Nat.le_add_right _ _).trans_lt h₅
  have h₃ := (Nat.le_add_right _ _).trans_lt h₄
  have h₂ := (Nat.le_mul_of_pos_right _ (by decide)).trans_lt h₃
  exact ⟨(Nat.le_add_right _ _).trans_lt h₂, h₂, h₃, h₄, h₅⟩

/-- The offset in the X layout is computed exactly where it fits in 32 bits. -/
theorem intelXTiledOffset_fits (hu : Exact32 u32) (hs : srcStride + 512 - 1 < 2 ^ 32)
    (hx : x * 4 < 2 ^ 32)
    (ho : intelXTiling.offset ((srcStride + 512 - 1) / 512) (x * 4) y < 2 ^ 32) :
    intelXTiledOffset u32 srcStride x y =
      intelXTiling.offset ((srcStride + 512 - 1) / 512) (x * 4) y := by
  obtain ⟨h₁, h₂, h₃, h₄⟩ := intelXTiling_parts ho
  rw [intelXTiling_offset] at ho ⊢
  simp only [intelXTiledOffset, intelXTileWidth, intelXTileHeight, hu _ hs, hu _ hx, hu _ h₁,
    hu _ h₂, hu _ h₃, hu _ h₄, hu _ ho]

/-- The offset in the Y layout likewise. -/
theorem intelYTiledOffset_fits (hu : Exact32 u32) (hs : srcStride + 128 - 1 < 2 ^ 32)
    (hx : x * 4 < 2 ^ 32)
    (ho : intelYTiling.offset ((srcStride + 128 - 1) / 128) (x * 4) y < 2 ^ 32) :
    intelYTiledOffset u32 srcStride x y =
      intelYTiling.offset ((srcStride + 128 - 1) / 128) (x * 4) y := by
  obtain ⟨h₁, h₂, h₃, h₄, h₅⟩ := intelYTiling_parts ho
  rw [intelYTiling_offset] at ho ⊢
  simp only [intelYTiledOffset, intelYTileWidth, intelYTileHeight, intelYOword, hu _ hs, hu _ hx,
    hu _ h₁, hu _ h₂, hu _ h₃, hu _ h₄, hu _ h₅, hu _ ho]

/-- The layout that the decoder undoes for an Intel modifier. -/
def tilingOf (modifier : UInt64) : Option Tiling :=
  if modifier >>> 56 ≠ drmFormatModVendorIntel then none
  else if modifier &&& 0xFF = 0x01 then some intelXTiling
  else if modifier &&& 0xFF = 0x02 ∨ modifier &&& 0xFF = 0x03 then some intelYTiling
  else none

theorem tilingOf_keeps {modifier : UInt64} {t : Tiling} (ht : tilingOf modifier = some t) :
    t.Keeps 4 := by
  unfold tilingOf at ht
  split_ifs at ht
  · obtain rfl := Option.some.inj ht
    exact intelXTiling_keeps
  · obtain rfl := Option.some.inj ht
    exact intelYTiling_keeps

/-- The tiles beside each other in a row pitch. -/
def tilesX (t : Tiling) (srcStride : ℕ) : ℕ := (srcStride + t.width - 1) / t.width

theorem tilesX_of_dvd {t : Tiling} (hd : t.width ∣ srcStride) :
    tilesX t srcStride = srcStride / t.width := by
  obtain ⟨n, rfl⟩ := hd
  have hpos := t.width_pos
  unfold tilesX
  rw [Nat.add_sub_assoc hpos, Nat.mul_add_div hpos, Nat.div_eq_of_lt (by omega), Nat.add_zero,
    Nat.mul_div_cancel_left _ hpos]

variable {src dst : Slice} {width height dstStride srcSize : ℕ} {modifier : UInt64} {t : Tiling}

/-- The decoder on a tiled layout whose offsets all fit in 32 bits. -/
theorem drmtapDeswizzle_tiled (hu : Exact32 u32) (ht : tilingOf modifier = some t)
    (hw : width ≠ 0) (hh : height ≠ 0) (hrow : width * 4 ≤ dstStride) (hlt : width * 4 < 2 ^ 32)
    (hd : ∀ y < height, y * dstStride < 2 ^ 32) (hs : srcStride + t.width - 1 < 2 ^ 32)
    (ho : ∀ y < height, ∀ x < width, t.offset (tilesX t srcStride) (x * 4) y < 2 ^ 32)
    (h : Heap) :
    drmtapDeswizzle u32 (some src) (some dst) width height srcStride dstStride modifier srcSize h =
      (deswizzleTiles id (fun x y => t.offset (tilesX t srcStride) (x * 4) y) src dst width height
        dstStride srcSize h).map (0, ·) := by
  have hz : ¬ (width = 0 ∨ height = 0) := not_or.mpr ⟨hw, hh⟩
  have hlinear : modifier ≠ drmFormatModLinear := by
    rintro rfl
    cases ht
  unfold tilingOf at ht
  simp only [drmtapDeswizzle, if_neg hz, if_neg hlinear, hrow, not_true_eq_false, if_false,
    deswizzleIntelXTiled, deswizzleIntelYTiled]
  split_ifs at ht with hv hX hY
  · obtain rfl := Option.some.inj ht
    rw [if_pos (not_not.mp hv), if_pos hX]
    exact congrArg (Option.map _) (deswizzleTiles_exact hu src dst srcSize hlt hd
      (fun y hy x hx => intelXTiledOffset_fits hu hs (by omega) (ho y hy x hx)) h)
  · obtain rfl := Option.some.inj ht
    rw [if_pos (not_not.mp hv), if_neg hX, if_pos hY]
    exact congrArg (Option.map _) (deswizzleTiles_exact hu src dst srcSize hlt hd
      (fun y hy x hx => intelYTiledOffset_fits hu hs (by omega) (ho y hy x hx)) h)

/-- The 4-byte pixels of a picture given by bytes. -/
def pixelOf (image : ℕ → ℕ → UInt8) (x y : ℕ) : List UInt8 :=
  (List.range 4).map fun i => image (x * 4 + i) y

/-- The four bytes of a pixel lie below `size`. -/
def Backed (t : Tiling) (n size x y : ℕ) : Prop := ∀ i < 4, t.offset n (x * 4 + i) y < size

instance (n size x y : ℕ) : Decidable (Backed t n size x y) := Nat.decidableBallLT _ _

theorem backed_iff {n size : ℕ} (hk : t.Keeps 4) :
    Backed t n size x y ↔ t.offset n (x * 4) y + 4 ≤ size := by
  constructor
  · intro hall
    have hlast := hall 3 (by decide)
    rw [hk.offset_add (Nat.dvd_mul_left 4 x) (by decide)] at hlast
    omega
  · intro hin i hi
    rw [hk.offset_add (Nat.dvd_mul_left 4 x) hi]
    omega

/-- Reading a stored pixel. -/
theorem bytesAt_stored {h : Heap} {image : ℕ → ℕ → UInt8} {n : ℕ} (hk : t.Keeps 4)
    (hst : t.Stores n (4 * width) height srcSize image (h.read src.base))
    (hn : 4 * width ≤ n * t.width) (hx : x < width) (hy : y < height)
    (hin : Backed t n srcSize x y) :
    bytesAt h src (t.offset n (x * 4) y) 4 = pixelOf image x y := by
  refine List.map_congr_left fun i hi => ?_
  have hi4 : i < 4 := List.mem_range.mp hi
  rw [← hk.offset_add (Nat.dvd_mul_left 4 x) hi4]
  exact hst.byte_offset hn (by omega) hy (hin i hi4)

/-- The three modifiers of the two layouts. -/
def Lays (modifier : UInt64) (t : Tiling) : Prop :=
  modifier = i915FormatModXTiled ∧ t = intelXTiling ∨
    (modifier = i915FormatModYTiled ∨ modifier = i915FormatModYfTiled) ∧ t = intelYTiling

theorem Lays.tilingOf (hm : Lays modifier t) : tilingOf modifier = some t := by
  rcases hm with ⟨rfl, rfl⟩ | ⟨rfl | rfl, rfl⟩
  all_goals rfl

theorem Lays.two_rows (hm : Lays modifier t) : 2 ≤ t.height := by
  rcases hm with ⟨-, rfl⟩ | ⟨-, rfl⟩
  all_goals decide

/-- The decoder undoes the tiling: a tiled picture comes out in rows, as far as the source backs
its pixels, and with zeros elsewhere. -/
theorem deswizzle_inverts_tiling (image : ℕ → ℕ → UInt8) {h : Heap} (hm : Lays modifier t)
    (hsrc : h.Live src) (hdst : h.Live dst) (hapart : src.base ≠ dst.base) (hw : 0 < width)
    (hh : 0 < height) (hmul : t.width ∣ srcStride) (hrow : 4 * width ≤ srcStride)
    (hrow' : 4 * width ≤ dstStride)
    (hfoot : t.footprint (srcStride / t.width) height < 2 ^ 32)
    (hrows : dstStride * height < 2 ^ 32) (hsize : srcSize ≤ src.len)
    (hfit : ∀ y < height, y * dstStride + 4 * width ≤ dst.len)
    (hst : t.Stores (srcStride / t.width) (4 * width) height srcSize image (h.read src.base)) :
    ∃ h', drmtapDeswizzle wrap32 (some src) (some dst) width height srcStride dstStride modifier
        srcSize h = some (0, h') ∧
      Drawn h h' dst dstStride 4 width height (fun x y =>
        if Backed t (srcStride / t.width) srcSize x y then pixelOf image x y
        else List.replicate 4 0) ∧
      (t.footprint (srcStride / t.width) height ≤ srcSize →
        Drawn h h' dst dstStride 4 width height (pixelOf image)) := by
  have hk := tilingOf_keeps hm.tilingOf
  have hn : 4 * width ≤ srcStride / t.width * t.width := by rwa [Nat.div_mul_cancel hmul]
  have hlast : ∀ y < height, ∀ x < width,
      Backed t (srcStride / t.width) (t.footprint (srcStride / t.width) height) x y :=
    fun y hy x hx i hi => Tiling.offset_lt_footprint (by omega) hy
  have hds : dstStride < 2 ^ 32 := (Nat.le_mul_of_pos_right _ hh).trans_lt hrows
  have hss : srcStride + t.width - 1 < 2 ^ 32 := by
    have hwide : t.width ≤ srcStride := Nat.le_of_dvd (by omega) hmul
    have hle := (t.row_le_footprint (n := srcStride / t.width) hh).trans_lt hfoot
    rw [Nat.div_mul_cancel hmul] at hle
    have htwo := Nat.mul_le_mul_left srcStride hm.two_rows
    omega
  obtain ⟨h', he, hf⟩ := deswizzleTiles_drawn hsrc hdst hapart (by omega) hsize hfit
    fun x y => t.offset (srcStride / t.width) (x * 4) y
  have hrun : drmtapDeswizzle wrap32 (some src) (some dst) width height srcStride dstStride modifier
      srcSize h = _ :=
    drmtapDeswizzle_tiled wrap32_exact hm.tilingOf (by omega) (by omega) (by omega) (by omega)
      (fun y hy => mul_lt_of_row hy (by rwa [Nat.mul_comm])) hss
      (fun y hy x hx => by
        rw [tilesX_of_dvd hmul]
        exact (hlast y hy x hx 0 (by decide)).trans hfoot) h
  rw [tilesX_of_dvd hmul, he] at hrun
  refine ⟨h', hrun, ?_, ?_⟩
  · refine hf.congr hrow' fun y hy x hx => ?_
    simp only [backedBytes, ← backed_iff hk]
    split
    next hin => exact bytesAt_stored hk hst hn hx hy hin
    next => rfl
  · refine fun hcov => hf.congr hrow' fun y hy x hx => ?_
    have hin : Backed t (srcStride / t.width) srcSize x y :=
      fun i hi => (hlast y hy x hx i hi).trans_le hcov
    rw [backedBytes, if_pos ((backed_iff hk).mp hin)]
    exact bytesAt_stored hk hst hn hx hy hin

/-- Two tiles by two of the Y layout, the lower right one cut off. -/
theorem deswizzle_inverts_tiling_cut :
    ∃ h', drmtapDeswizzle wrap32 (some ⟨0, 10000⟩) (some ⟨1, 4356⟩) 33 33 256 132
        i915FormatModYTiled 10000
        (twoBlocks (intelYTiling.tiled 2 fun c y => UInt8.ofNat (c + y)) 10000 4356) =
          some (0, h') ∧
      Drawn (twoBlocks (intelYTiling.tiled 2 fun c y => UInt8.ofNat (c + y)) 10000 4356) h'
        ⟨1, 4356⟩ 132 4 33 33 (fun x y =>
          if Backed intelYTiling 2 10000 x y then pixelOf (fun c y => UInt8.ofNat (c + y)) x y
          else List.replicate 4 0) ∧
      (16384 ≤ 10000 →
        Drawn (twoBlocks (intelYTiling.tiled 2 fun c y => UInt8.ofNat (c + y)) 10000 4356) h'
          ⟨1, 4356⟩ 132 4 33 33 (pixelOf fun c y => UInt8.ofNat (c + y))) :=
  deswizzle_inverts_tiling (fun c y => UInt8.ofNat (c + y)) (.inr ⟨.inl rfl, rfl⟩)
    (twoBlocks_src _ _ _) (twoBlocks_dst _ _ _) (by decide) (by decide) (by decide) (by decide)
    (by decide) (by decide) (by decide) (by decide) (by decide)
    (fun y hy => show y * 132 + 132 ≤ 4356 by omega) fun _ _ _ _ => rfl

/-- An empty picture is refused, although nothing else about it is out of order. -/
theorem deswizzle_refuses_empty :
    ¬ ∀ (t : Tiling) (modifier : UInt64) (src dst : Slice)
      (width height srcStride dstStride srcSize : ℕ) (image : ℕ → ℕ → UInt8) (h : Heap),
      Lays modifier t → h.Live src → h.Live dst → src.base ≠ dst.base → t.width ∣ srcStride →
      4 * width ≤ srcStride → 4 * width ≤ dstStride →
      t.footprint (srcStride / t.width) height < 2 ^ 32 → dstStride * height < 2 ^ 32 →
      srcSize ≤ src.len → (∀ y < height, y * dstStride + 4 * width ≤ dst.len) →
      t.Stores (srcStride / t.width) (4 * width) height srcSize image (h.read src.base) →
      ∃ h', drmtapDeswizzle wrap32 (some src) (some dst) width height srcStride dstStride modifier
        srcSize h = some (0, h') := by
  intro hall
  obtain ⟨h', he⟩ := hall intelXTiling i915FormatModXTiled ⟨0, 0⟩ ⟨1, 0⟩ 0 1 0 0 0 (fun _ _ => 0)
    (twoBlocks (fun _ => 0) 0 0) (.inl ⟨rfl, rfl⟩) (twoBlocks_src _ _ _) (twoBlocks_dst _ _ _)
    (by decide) (by decide) (by decide) (by decide) (by decide) (by decide) (by decide)
    (fun y hy => show y * 0 + 4 * 0 ≤ 0 by omega) fun o ho => absurd ho (Nat.not_lt_zero o)
  exact absurd (Prod.mk.inj (Option.some.inj he)).1 (by decide)

end Tilings

end Drmtap
