import Mathlib

/-! Pictures stored in tiles: where a byte of a picture lies, and which byte lies at an offset. -/
namespace Memory

/-- Tiles of `width` bytes by `height` rows, and the order of the bytes in one of them. -/
structure Tiling where
  width : ℕ
  height : ℕ
  /-- the offset of the byte in column `c` and row `r` of a tile -/
  place : ℕ → ℕ → ℕ
  column : ℕ → ℕ
  row : ℕ → ℕ
  width_pos : 0 < width
  height_pos : 0 < height
  place_lt : ∀ c < width, ∀ r < height, place c r < width * height
  column_place : ∀ c < width, ∀ r < height, column (place c r) = c
  row_place : ∀ c < width, ∀ r < height, row (place c r) = r

namespace Tiling
variable (t : Tiling)

/-- The bytes of a tile. -/
def size : ℕ := t.width * t.height

/-- The offset of byte `c` of row `y`, with `n` tiles beside each other. -/
def offset (n c y : ℕ) : ℕ :=
  (y / t.height * n + c / t.width) * t.size + t.place (c % t.width) (y % t.height)

/-- The byte of the picture that lies at an offset, by column and row. -/
def position (n o : ℕ) : ℕ × ℕ :=
  (o / t.size % n * t.width + t.column (o % t.size), o / t.size / n * t.height + t.row (o % t.size))

/-- The bytes of `rows` rows, in whole tiles. -/
def footprint (n rows : ℕ) : ℕ := (rows + t.height - 1) / t.height * n * t.size

variable {t} {n c y rows : ℕ}

theorem size_pos : 0 < t.size := Nat.mul_pos t.width_pos t.height_pos

theorem place_mod_lt (c y : ℕ) : t.place (c % t.width) (y % t.height) < t.size :=
  t.place_lt _ (Nat.mod_lt _ t.width_pos) _ (Nat.mod_lt _ t.height_pos)

/-- The tile of an offset, and the place in it. -/
theorem offset_div (n c y : ℕ) : t.offset n c y / t.size = y / t.height * n + c / t.width := by
  unfold offset
  rw [Nat.mul_comm, Nat.mul_add_div size_pos, Nat.div_eq_of_lt (place_mod_lt c y), Nat.add_zero]

theorem offset_mod (n c y : ℕ) :
    t.offset n c y % t.size = t.place (c % t.width) (y % t.height) := by
  unfold offset
  rw [Nat.mul_comm, Nat.mul_add_mod, Nat.mod_eq_of_lt (place_mod_lt c y)]

/-- Every byte of a picture has an offset of its own. -/
theorem position_offset (hc : c < n * t.width) : t.position n (t.offset n c y) = (c, y) := by
  have hcol : c / t.width < n := (Nat.div_lt_iff_lt_mul t.width_pos).mpr hc
  have hmod : (y / t.height * n + c / t.width) % n = c / t.width := by
    rw [Nat.mul_comm, Nat.mul_add_mod, Nat.mod_eq_of_lt hcol]
  have hdiv : (y / t.height * n + c / t.width) / n = y / t.height := by
    rw [Nat.mul_comm, Nat.mul_add_div (by omega), Nat.div_eq_of_lt hcol, Nat.add_zero]
  unfold position
  rw [offset_div, offset_mod, hmod, hdiv, t.column_place _ (Nat.mod_lt _ t.width_pos) _
    (Nat.mod_lt _ t.height_pos), t.row_place _ (Nat.mod_lt _ t.width_pos) _
    (Nat.mod_lt _ t.height_pos), Nat.div_add_mod', Nat.div_add_mod']

theorem offset_lt_footprint (hc : c < n * t.width) (hy : y < rows) :
    t.offset n c y < t.footprint n rows := by
  have hcol : c / t.width < n := (Nat.div_lt_iff_lt_mul t.width_pos).mpr hc
  have hrow : y / t.height + 1 ≤ (rows + t.height - 1) / t.height := by
    refine (Nat.le_div_iff_mul_le t.height_pos).mpr ?_
    have hle := Nat.div_mul_le_self y t.height
    have hpos := t.height_pos
    rw [Nat.succ_mul]
    omega
  have htile : y / t.height * n + c / t.width + 1 ≤ (rows + t.height - 1) / t.height * n := by
    have hle := Nat.mul_le_mul_right n hrow
    rw [Nat.succ_mul] at hle
    omega
  have hle := Nat.mul_le_mul_right t.size htile
  have hplace := place_mod_lt (t := t) c y
  unfold offset footprint
  rw [Nat.succ_mul] at hle
  omega

/-- The first row of tiles is in the footprint. -/
theorem row_le_footprint (hr : 0 < rows) : n * t.width * t.height ≤ t.footprint n rows := by
  have hone : 1 ≤ (rows + t.height - 1) / t.height :=
    (Nat.le_div_iff_mul_le t.height_pos).mpr (by omega)
  calc n * t.width * t.height = 1 * n * t.size := by rw [Nat.one_mul, Nat.mul_assoc, size]
    _ ≤ t.footprint n rows := Nat.mul_le_mul_right _ (Nat.mul_le_mul_right _ hone)

/-- The order of bytes in a tile keeps `k` bytes together. -/
def Keeps (t : Tiling) (k : ℕ) : Prop :=
  k ∣ t.width ∧ ∀ c r i, k ∣ c → i < k → t.place (c + i) r = t.place c r + i

/-- So they lie together in the picture. -/
theorem Keeps.offset_add {k i : ℕ} (h : t.Keeps k) (hk : k ∣ c) (hi : i < k) :
    t.offset n (c + i) y = t.offset n c y + i := by
  obtain ⟨q, hq⟩ := h.1
  have hkmod : k ∣ c % t.width := (Nat.dvd_mod_iff h.1).mpr hk
  have hroom : c % t.width + i < t.width := by
    obtain ⟨m, hm⟩ := hkmod
    have hlt := Nat.mod_lt c t.width_pos
    rw [hm, hq] at hlt
    have hmq : m < q := lt_of_mul_lt_mul_left' hlt
    have hle := Nat.mul_le_mul_left k (Nat.succ_le_of_lt hmq)
    rw [Nat.mul_succ, ← hm, ← hq] at hle
    omega
  have hmod : (c + i) % t.width = c % t.width + i := by
    rw [Nat.add_mod, Nat.mod_eq_of_lt (a := i) (by omega), Nat.mod_eq_of_lt hroom]
  have hdiv : (c + i) / t.width = c / t.width := by
    have hc := Nat.div_add_mod c t.width
    rw [← hc, Nat.add_assoc, Nat.mul_add_div t.width_pos, Nat.div_eq_of_lt hroom, Nat.add_zero,
      hc]
  unfold offset
  rw [hmod, hdiv, h.2 _ _ _ hkmod hi]
  omega

/-- A picture, `w` bytes wide, in tiles: what memory holds of it up to `len`. -/
def Stores (t : Tiling) (n w rows len : ℕ) (image : ℕ → ℕ → UInt8) (byte : ℕ → UInt8) : Prop :=
  ∀ o < len, (t.position n o).1 < w → (t.position n o).2 < rows →
    byte o = image (t.position n o).1 (t.position n o).2

/-- What tiling a picture puts at an offset. -/
def tiled (t : Tiling) (n : ℕ) (image : ℕ → ℕ → UInt8) (o : ℕ) : UInt8 :=
  image (t.position n o).1 (t.position n o).2

theorem Stores.byte_offset {w len : ℕ} {image : ℕ → ℕ → UInt8} {byte : ℕ → UInt8}
    (h : t.Stores n w rows len image byte) (hn : w ≤ n * t.width) (hc : c < w) (hy : y < rows)
    (ho : t.offset n c y < len) : byte (t.offset n c y) = image c y := by
  have hpos := position_offset (y := y) (hc.trans_le hn)
  have hb := h _ ho (by rwa [hpos]) (by rwa [hpos])
  rw [hb, hpos]

end Tiling

end Memory
