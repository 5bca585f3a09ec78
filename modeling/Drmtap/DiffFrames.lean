import Drmtap.PixelRaster

/-! `drmtap_diff_frames`: the cells of a grid in which two frames differ. -/
namespace Drmtap

open Memory

/-- `drmtap_rect` -/
structure DrmtapRect where
  x : UInt32
  y : UInt32
  w : UInt32
  h : UInt32
deriving DecidableEq

/-- The caller's array. -/
abbrev Rects := ℕ → DrmtapRect

/-- The number of dirty cells so far, and the array. -/
structure Dirty where
  count : ℕ
  rects : Rects

/-- The cell of the grid in column `tx` and row `ty`. -/
def tileRect (width height tile : UInt32) (tx ty : ℕ) : DrmtapRect :=
  let rx := UInt32.ofNat tx * tile
  let ry := UInt32.ofNat ty * tile
  { x := rx
    y := ry
    w := if width < rx + tile then width - rx else tile
    h := if height < ry + tile then height - ry else tile }

/-- `memcmp` of one row of a cell. -/
def rowDiffers (a b : Slice) (stride : UInt32) (r : DrmtapRect) (h : Heap) (row : UInt32) :
    Option Bool := do
  let off := (row * stride).toNat + (r.x * 4).toNat
  let n := (r.w * 4).toNat
  pure (decide ((← h.load a off n) ≠ (← h.load b off n)))

/-- The rows of a cell, up to the first that differs. -/
def tileDirty (a b : Slice) (stride : UInt32) (r : DrmtapRect) (h : Heap) : Option Bool :=
  forUpTo ((r.y + r.h).toNat - r.y.toNat) (fun i dirty =>
    if dirty then some true else rowDiffers a b stride r h (r.y + UInt32.ofNat i)) false

/-- The count goes on where the array is full. -/
def noteTile (maxRects : Int32) (r : DrmtapRect) (dirty : Bool) (d : Dirty) : Dirty :=
  if dirty then
    { count := d.count + 1
      rects := if (d.count : ℤ) < maxRects.toInt then Function.update d.rects d.count r else d.rects }
  else d

def diffTiles (a b : Slice) (width height stride tile : UInt32) (maxRects : Int32) (h : Heap)
    (rects : Rects) : Option Dirty :=
  let tilesX := ((width + tile - 1) / tile).toNat
  let tilesY := ((height + tile - 1) / tile).toNat
  forUpTo tilesY (fun ty => forUpTo tilesX fun tx d => do
    let r := tileRect width height tile tx ty
    let dirty ← tileDirty a b stride r h
    pure (noteTile maxRects r dirty d)) ⟨0, rects⟩

/-- The result, and the caller's array. -/
def drmtapDiffFrames (frameA frameB : Option Slice) (width height stride : UInt32)
    (rectsOut : Option Rects) (maxRects tileSize : Int32) (h : Heap) :
    Option (ℤ × Option Rects) :=
  match frameA, frameB, rectsOut with
  | some a, some b, some rects =>
    if maxRects ≤ 0 ∨ tileSize ≤ 0 then some (- EINVAL, rectsOut)
    else do
      let d ← diffTiles a b width height stride tileSize.toUInt32 maxRects h rects
      pure ((d.count : ℤ), some d.rects)
  | _, _, _ => some (- EINVAL, rectsOut)

/-! The grid -/

/-- The pixels of two frames at `(x, y)`. -/
def PixelDiffers (h : Heap) (a b : Slice) (stride x y : ℕ) : Prop :=
  bytesAt h a (y * stride + 4 * x) 4 ≠ bytesAt h b (y * stride + 4 * x) 4

instance (h : Heap) (a b : Slice) (stride x y : ℕ) : Decidable (PixelDiffers h a b stride x y) :=
  inferInstanceAs (Decidable (_ ≠ _))

/-- Cell `c` of the grid, by column and row, holds pixel `(x, y)`. -/
def InCell (tile : ℕ) (c : ℕ × ℕ) (x y : ℕ) : Prop := x / tile = c.1 ∧ y / tile = c.2

/-- The cells of a grid in row-major order. -/
def gridCells (width height tile : ℕ) : List (ℕ × ℕ) :=
  (List.range ((height + tile - 1) / tile)).flatMap fun ty =>
    (List.range ((width + tile - 1) / tile)).map fun tx => (tx, ty)

/-- The frames differ in a cell. -/
def CellDiffers (h : Heap) (a b : Slice) (width height stride tile : ℕ) (c : ℕ × ℕ) : Prop :=
  ∃ x < width, ∃ y < height, InCell tile c x y ∧ PixelDiffers h a b stride x y

instance (h : Heap) (a b : Slice) (width height stride tile : ℕ) (c : ℕ × ℕ) :
    Decidable (CellDiffers h a b width height stride tile c) :=
  inferInstanceAs (Decidable (∃ x < width, ∃ y < height, (x / tile = c.1 ∧ y / tile = c.2) ∧
    PixelDiffers h a b stride x y))

def dirtyCells (h : Heap) (a b : Slice) (width height stride tile : ℕ) : List (ℕ × ℕ) :=
  (gridCells width height tile).filter fun c => CellDiffers h a b width height stride tile c

namespace DrmtapRect

/-- A pixel of a rectangle. -/
def Contains (r : DrmtapRect) (x y : ℕ) : Prop :=
  r.x.toNat ≤ x ∧ x < r.x.toNat + r.w.toNat ∧ r.y.toNat ≤ y ∧ y < r.y.toNat + r.h.toNat

instance (r : DrmtapRect) (x y : ℕ) : Decidable (r.Contains x y) :=
  inferInstanceAs (Decidable (_ ≤ x ∧ x < _ ∧ _ ≤ y ∧ y < _))

/-- A rectangle is a cell, clipped to the frame. -/
structure Clips (r : DrmtapRect) (width height tile : ℕ) (c : ℕ × ℕ) : Prop where
  x : r.x.toNat = c.1 * tile
  y : r.y.toNat = c.2 * tile
  w : r.w.toNat = min tile (width - c.1 * tile)
  h : r.h.toNat = min tile (height - c.2 * tile)

end DrmtapRect

/-! The loops -/

/-- A loop whose rounds all succeed is a fold. -/
theorem forUpTo_fold {σ : Type} {n : ℕ} {body : ℕ → σ → Option σ} {f : ℕ → σ → σ} {s : σ}
    (hb : ∀ i < n, ∀ s, body i s = some (f i s)) :
    forUpTo n body s = some ((List.range n).foldl (fun s i => f i s) s) := by
  induction n with
  | zero => rfl
  | succ n ih =>
    rw [forUpTo, ih fun i hi => hb i (by omega), Option.bind_some, hb n (by omega),
      List.range_succ, List.foldl_append]
    rfl

/-- What the fold over the cells has counted and listed. -/
theorem foldl_noteTile {ι : Type} (maxRects : Int32) (rect : ι → DrmtapRect) (dirty : ι → Bool)
    (cells : List ι) (d : Dirty) :
    let found := cells.filter dirty
    let d' := cells.foldl (fun d c => noteTile maxRects (rect c) (dirty c) d) d
    d'.count = d.count + found.length ∧
      ∀ i, d'.rects i = if d.count ≤ i ∧ (i : ℤ) < maxRects.toInt then
        ((found.map rect)[i - d.count]?).getD (d.rects i) else d.rects i := by
  induction cells generalizing d with
  | nil =>
    refine ⟨rfl, fun i => ?_⟩
    simp
  | cons c cells ih =>
    obtain ⟨hcount, hrects⟩ := ih (noteTile maxRects (rect c) (dirty c) d)
    cases hc : dirty c with
    | false =>
      have hd : noteTile maxRects (rect c) (dirty c) d = d := by
        rw [hc]
        rfl
      rw [hd] at hcount hrects
      simp only [List.foldl_cons, List.filter_cons, hc, Bool.false_eq_true, if_false]
      rw [hc] at hd
      rw [hd]
      exact ⟨hcount, hrects⟩
    | true =>
      rw [hc] at hcount hrects
      simp only [List.foldl_cons, List.filter_cons, hc, if_true, List.map_cons, List.length_cons]
      have hcount' : (noteTile maxRects (rect c) true d).count = d.count + 1 := rfl
      refine ⟨by rw [hcount, hcount']; omega, fun i => ?_⟩
      rw [hrects i, hcount']
      have hold : (noteTile maxRects (rect c) true d).rects i =
          if (d.count : ℤ) < maxRects.toInt ∧ i = d.count then rect c else d.rects i := by
        unfold noteTile
        simp only [if_true]
        by_cases hlt : (d.count : ℤ) < maxRects.toInt
        · rw [if_pos hlt, Function.update_apply]
          simp [hlt]
        · rw [if_neg hlt, if_neg fun h => hlt h.1]
      rw [hold]
      rcases lt_trichotomy i d.count with hi | rfl | hi
      · rw [if_neg (by omega), if_neg (by omega), if_neg (by omega)]
      · rw [if_neg (by omega)]
        by_cases hlt : (d.count : ℤ) < maxRects.toInt
        · rw [if_pos ⟨hlt, rfl⟩, if_pos ⟨le_rfl, hlt⟩, Nat.sub_self]
          rfl
        · rw [if_neg fun h => hlt h.1, if_neg fun h => hlt h.2]
      · have hne : i ≠ d.count := by omega
        obtain ⟨k, hk⟩ : ∃ k, i - d.count = k + 1 := ⟨i - d.count - 1, by omega⟩
        have hk' : i - (d.count + 1) = k := by omega
        rw [hk, hk', List.getElem?_cons_succ]
        simp only [hne, and_false, if_false]
        by_cases hlt : (i : ℤ) < maxRects.toInt
        · rw [if_pos ⟨by omega, hlt⟩, if_pos ⟨by omega, hlt⟩]
        · rw [if_neg fun h => hlt h.2, if_neg fun h => hlt h.2]

/-- A loop that stops to look once it has found. -/
theorem forUpTo_any {n : ℕ} {body : ℕ → Bool → Option Bool} {p : ℕ → Prop} [DecidablePred p]
    (hb : ∀ i < n, ∀ found, body i found = some (found || decide (p i))) :
    forUpTo n body false = some (decide (∃ i < n, p i)) := by
  induction n with
  | zero => simp [forUpTo]
  | succ n ih =>
    rw [forUpTo, ih fun i hi => hb i (by omega), Option.bind_some, hb n (by omega)]
    simp only [Nat.lt_succ_iff_lt_or_eq, or_and_right, exists_or,
      exists_eq_left, Bool.decide_or]

/-! One cell -/

theorem bytesAt_eq_iff {h : Heap} {a b : Slice} {off n : ℕ} :
    bytesAt h a off n = bytesAt h b off n ↔
      ∀ i < n, h.read a.base (off + i) = h.read b.base (off + i) := by
  unfold bytesAt
  rw [List.map_inj_left]
  simp only [List.mem_range]

/-- A run of pixels differs where one of them does. -/
theorem run_differs {h : Heap} {a b : Slice} {stride x₀ w y : ℕ} :
    bytesAt h a (y * stride + 4 * x₀) (4 * w) ≠ bytesAt h b (y * stride + 4 * x₀) (4 * w) ↔
      ∃ x, x₀ ≤ x ∧ x < x₀ + w ∧ PixelDiffers h a b stride x y := by
  simp only [PixelDiffers, ne_eq, bytesAt_eq_iff, not_forall]
  constructor
  · rintro ⟨i, hi, hne⟩
    refine ⟨x₀ + i / 4, by omega, by omega, i % 4, by omega, ?_⟩
    have hoff : y * stride + 4 * (x₀ + i / 4) + i % 4 = y * stride + 4 * x₀ + i := by omega
    rwa [hoff]
  · rintro ⟨x, h1, h2, i, hi, hne⟩
    refine ⟨4 * (x - x₀) + i, by omega, ?_⟩
    have hoff : y * stride + 4 * x₀ + (4 * (x - x₀) + i) = y * stride + 4 * x + i := by omega
    rwa [hoff]

/-- Two frames of a size, with the tiles of a grid over them. -/
structure FramePair (h : Heap) (a b : Slice) (width height stride tile : UInt32) : Prop where
  liveA : h.Live a
  liveB : h.Live b
  row : 4 * width.toNat ≤ stride.toNat
  size : stride.toNat * height.toNat < 2 ^ 32
  fitA : ∀ y < height.toNat, y * stride.toNat + 4 * width.toNat ≤ a.len
  fitB : ∀ y < height.toNat, y * stride.toNat + 4 * width.toNat ≤ b.len
  tile_pos : 0 < tile.toNat
  tile_lt : tile.toNat < 2 ^ 31

section Cells
variable {h : Heap} {a b : Slice} {width height stride tile : UInt32} {tx ty : ℕ}

theorem tiles_toNat {n tile : UInt32} (hpos : 0 < tile.toNat)
    (hlt : n.toNat + tile.toNat < 2 ^ 32) :
    ((n + tile - 1) / tile).toNat = (n.toNat + tile.toNat - 1) / tile.toNat := by
  have hadd : (n + tile).toNat = n.toNat + tile.toNat := by
    rw [UInt32.toNat_add, Nat.mod_eq_of_lt hlt]
  have hle : (1 : UInt32) ≤ n + tile := by
    rw [UInt32.le_iff_toNat_le, hadd]
    show 1 ≤ _
    omega
  rw [UInt32.toNat_div, UInt32.toNat_sub_of_le _ _ hle, hadd]
  rfl

theorem tile_mul_lt {n tile i : ℕ} (hi : i < (n + tile - 1) / tile) : i * tile < n := by
  have hpos : 0 < tile := by
    rcases Nat.eq_zero_or_pos tile with rfl | hpos
    · simp at hi
    · exact hpos
  have hle := (Nat.le_div_iff_mul_le hpos).mp (Nat.succ_le_of_lt hi)
  rw [Nat.succ_mul] at hle
  omega

theorem tile_div_lt {n tile x : ℕ} (hpos : 0 < tile) (hx : x < n) :
    x / tile < (n + tile - 1) / tile := by
  refine Nat.lt_of_succ_le ((Nat.le_div_iff_mul_le hpos).mpr ?_)
  have hle := Nat.div_mul_le_self x tile
  rw [Nat.succ_mul]
  omega

/-- One side of a cell. -/
theorem side_toNat {n : UInt32} {i : ℕ} (hi : i * tile.toNat < n.toNat)
    (hlt : n.toNat + tile.toNat < 2 ^ 32) (hpos : 0 < tile.toNat) :
    (UInt32.ofNat i * tile).toNat = i * tile.toNat ∧
      (if n < UInt32.ofNat i * tile + tile then n - UInt32.ofNat i * tile else tile).toNat =
        min tile.toNat (n.toNat - i * tile.toNat) := by
  have hile : i ≤ i * tile.toNat := Nat.le_mul_of_pos_right i hpos
  have hi32 : (UInt32.ofNat i).toNat = i := by
    rw [UInt32.toNat_ofNat']
    exact Nat.mod_eq_of_lt (by omega)
  have hr : (UInt32.ofNat i * tile).toNat = i * tile.toNat := by
    rw [UInt32.toNat_mul, hi32]
    exact Nat.mod_eq_of_lt (by omega)
  have hend : (UInt32.ofNat i * tile + tile).toNat = i * tile.toNat + tile.toNat := by
    rw [UInt32.toNat_add, hr]
    exact Nat.mod_eq_of_lt (by omega)
  refine ⟨hr, ?_⟩
  by_cases hc : n < UInt32.ofNat i * tile + tile
  · have hc' : n.toNat < i * tile.toNat + tile.toNat := by
      rwa [UInt32.lt_iff_toNat_lt, hend] at hc
    have hle : UInt32.ofNat i * tile ≤ n := by
      rw [UInt32.le_iff_toNat_le, hr]
      exact hi.le
    rw [if_pos hc, UInt32.toNat_sub_of_le _ _ hle, hr]
    omega
  · have hc' : i * tile.toNat + tile.toNat ≤ n.toNat := by
      rwa [UInt32.lt_iff_toNat_lt, hend, not_lt] at hc
    rw [if_neg hc]
    omega

namespace FramePair

theorem height_lt (hp : FramePair h a b width height stride tile) (hw : 0 < width.toNat) :
    height.toNat < 2 ^ 30 := by
  have hrow := hp.row
  have hsize := hp.size
  have hle : 4 * height.toNat ≤ stride.toNat * height.toNat :=
    Nat.mul_le_mul_right _ (by omega)
  omega

theorem width_lt (hp : FramePair h a b width height stride tile) : width.toNat < 2 ^ 30 := by
  have hrow := hp.row
  have hs := stride.toNat_lt
  omega

theorem clips (hp : FramePair h a b width height stride tile) (hx : tx * tile.toNat < width.toNat)
    (hy : ty * tile.toNat < height.toNat) :
    (tileRect width height tile tx ty).Clips width.toNat height.toNat tile.toNat (tx, ty) := by
  have hw := hp.width_lt
  have hh := hp.height_lt (by omega)
  have ht := hp.tile_lt
  obtain ⟨hx₁, hx₂⟩ := side_toNat hx (by omega) hp.tile_pos
  obtain ⟨hy₁, hy₂⟩ := side_toNat hy (by omega) hp.tile_pos
  exact ⟨hx₁, hy₁, hx₂, hy₂⟩

end FramePair

/-- The pixels of a clipped cell are those of the cell in the frame. -/
theorem DrmtapRect.Clips.contains_iff {r : DrmtapRect} {W H T : ℕ} {c : ℕ × ℕ}
    (hr : r.Clips W H T c) (hT : 0 < T) (hx : c.1 * T < W) (hy : c.2 * T < H) {x y : ℕ} :
    r.Contains x y ↔ x < W ∧ y < H ∧ InCell T c x y := by
  unfold Contains InCell
  rw [hr.x, hr.y, hr.w, hr.h, Nat.div_eq_iff hT, Nat.div_eq_iff hT]
  have hx' : T - 1 + 1 = T := by omega
  constructor
  · rintro ⟨h1, h2, h3, h4⟩
    omega
  · rintro ⟨h1, h2, ⟨h3, h4⟩, h5, h6⟩
    omega

namespace FramePair

theorem rowDiffers_eq (hp : FramePair h a b width height stride tile)
    (hx : tx * tile.toNat < width.toNat) (hy : ty * tile.toNat < height.toNat) {row : UInt32}
    (hrow : row.toNat < height.toNat) :
    rowDiffers a b stride (tileRect width height tile tx ty) h row = some (decide
      (∃ x < width.toNat, x / tile.toNat = tx ∧ PixelDiffers h a b stride.toNat x row.toNat)) := by
  have hc := hp.clips hx hy
  have hwlt := hp.width_lt
  have hmul : row.toNat * stride.toNat + 4 * width.toNat < 2 ^ 32 + 4 * width.toNat := by
    have hle := Nat.mul_le_mul_right stride.toNat hrow.le
    have hsize := hp.size
    rw [Nat.mul_comm] at hsize
    omega
  have hoff : (row * stride).toNat = row.toNat * stride.toNat := by
    rw [UInt32.toNat_mul]
    exact Nat.mod_eq_of_lt (by omega)
  have hxoff : ((tileRect width height tile tx ty).x * 4).toNat = 4 * (tx * tile.toNat) := by
    rw [UInt32.toNat_mul, hc.x, Nat.mul_comm]
    exact Nat.mod_eq_of_lt (by show 4 * (tx * tile.toNat) < _; omega)
  have hw : _ = min tile.toNat (width.toNat - tx * tile.toNat) := hc.w
  have hlen : ((tileRect width height tile tx ty).w * 4).toNat =
      4 * (tileRect width height tile tx ty).w.toNat := by
    rw [UInt32.toNat_mul, Nat.mul_comm]
    refine Nat.mod_eq_of_lt ?_
    show 4 * _ < _
    omega
  have hfitA := hp.fitA row.toNat hrow
  have hfitB := hp.fitB row.toNat hrow
  have hloadA : h.load a (row.toNat * stride.toNat + 4 * (tx * tile.toNat))
      (4 * (tileRect width height tile tx ty).w.toNat) = some (bytesAt h a _ _) :=
    Heap.load_eq hp.liveA (by omega)
  have hloadB : h.load b (row.toNat * stride.toNat + 4 * (tx * tile.toNat))
      (4 * (tileRect width height tile tx ty).w.toNat) = some (bytesAt h b _ _) :=
    Heap.load_eq hp.liveB (by omega)
  simp only [rowDiffers, hoff, hxoff, hlen, hloadA, hloadB, Option.bind_eq_bind,
    Option.bind_some, Option.pure_def]
  refine congrArg some (decide_eq_decide.mpr (run_differs.trans ?_))
  constructor
  · rintro ⟨x, h1, h2, hd⟩
    exact ⟨x, by omega, (Nat.div_eq_iff hp.tile_pos).mpr (by omega), hd⟩
  · rintro ⟨x, h1, h2, hd⟩
    obtain ⟨h3, h4⟩ := (Nat.div_eq_iff hp.tile_pos).mp h2
    have htile := hp.tile_pos
    exact ⟨x, by omega, by omega, hd⟩

theorem tileDirty_eq (hp : FramePair h a b width height stride tile)
    (hx : tx * tile.toNat < width.toNat) (hy : ty * tile.toNat < height.toNat) :
    tileDirty a b stride (tileRect width height tile tx ty) h = some (decide
      (CellDiffers h a b width.toNat height.toNat stride.toNat tile.toNat (tx, ty))) := by
  have hc := hp.clips hx hy
  have hh := hp.height_lt (by omega)
  have hyr : _ = ty * tile.toNat := hc.y
  have hhr : _ = min tile.toNat (height.toNat - ty * tile.toNat) := hc.h
  have hsum : ((tileRect width height tile tx ty).y + (tileRect width height tile tx ty).h).toNat =
      ty * tile.toNat + min tile.toNat (height.toNat - ty * tile.toNat) := by
    rw [UInt32.toNat_add, hyr, hhr]
    exact Nat.mod_eq_of_lt (by show ty * _ + min _ (_ - ty * _) < _; omega)
  have hrow : ∀ i < min tile.toNat (height.toNat - ty * tile.toNat),
      ((tileRect width height tile tx ty).y + UInt32.ofNat i).toNat = ty * tile.toNat + i := by
    intro i hi
    rw [UInt32.toNat_add, hyr, UInt32.toNat_ofNat', Nat.mod_eq_of_lt (a := i) (by omega)]
    exact Nat.mod_eq_of_lt (by show ty * _ + i < _; omega)
  unfold tileDirty
  rw [hsum, hyr, Nat.add_sub_cancel_left]
  rw [forUpTo_any (p := fun i => ∃ x < width.toNat, x / tile.toNat = tx ∧
    PixelDiffers h a b stride.toNat x (ty * tile.toNat + i)) ?_]
  · refine congrArg some (decide_eq_decide.mpr ?_)
    constructor
    · rintro ⟨i, hi, x, hxw, hxt, hd⟩
      refine ⟨x, hxw, ty * tile.toNat + i, by omega, ⟨hxt, ?_⟩, hd⟩
      have hdiv : (ty * tile.toNat + i) / tile.toNat = ty :=
        (Nat.div_eq_iff hp.tile_pos).mpr (by omega)
      exact hdiv
    · rintro ⟨x, hxw, y, hyh, ⟨hxt, hyt⟩, hd⟩
      have hyt : y / tile.toNat = ty := hyt
      obtain ⟨h1, h2⟩ := (Nat.div_eq_iff hp.tile_pos).mp hyt
      obtain ⟨i, rfl⟩ := Nat.exists_eq_add_of_le h1
      have htile := hp.tile_pos
      exact ⟨i, by omega, x, hxw, hxt, hd⟩
  · intro i hi found
    cases found with
    | true => rfl
    | false =>
      have hr := hrow i hi
      rw [if_neg (by decide), hp.rowDiffers_eq hx hy (by omega), hr, Bool.false_or]

end FramePair

/-- The cells, with the rectangle and the verdict of each. -/
theorem FramePair.diffTiles_eq (hp : FramePair h a b width height stride tile) (maxRects : Int32)
    (rects : Rects) :
    diffTiles a b width height stride tile maxRects h rects = some
      ((gridCells width.toNat height.toNat tile.toNat).foldl (fun d c =>
        noteTile maxRects (tileRect width height tile c.1 c.2) (decide (CellDiffers h a b
          width.toNat height.toNat stride.toNat tile.toNat c)) d) ⟨0, rects⟩) := by
  have ht := hp.tile_lt
  have hw := hp.width_lt
  have htx := tiles_toNat (n := width) hp.tile_pos (by omega)
  have hrow : ∀ ty, ty * tile.toNat < height.toNat → ∀ d,
      forUpTo ((width.toNat + tile.toNat - 1) / tile.toNat) (fun tx d => do
        let r := tileRect width height tile tx ty
        let dirty ← tileDirty a b stride r h
        pure (noteTile maxRects r dirty d)) d = some
      ((List.range ((width.toNat + tile.toNat - 1) / tile.toNat)).foldl (fun d tx =>
        noteTile maxRects (tileRect width height tile tx ty) (decide (CellDiffers h a b
          width.toNat height.toNat stride.toNat tile.toNat (tx, ty))) d) d) := by
    intro ty hy d
    refine forUpTo_fold fun tx htx d => ?_
    simp only [hp.tileDirty_eq (tile_mul_lt htx) hy, Option.bind_eq_bind, Option.bind_some,
      Option.pure_def]
  unfold diffTiles gridCells
  rw [htx, List.foldl_flatMap]
  simp only [List.foldl_map]
  rcases Nat.eq_zero_or_pos width.toNat with h0 | hpos
  · -- without columns, the rows do not matter
    have hnone : (width.toNat + tile.toNat - 1) / tile.toNat = 0 := by
      rw [h0]
      exact Nat.div_eq_of_lt (by have := hp.tile_pos; omega)
    have hskip : ∀ n (d : Dirty), (List.range n).foldl (fun d _ => d) d = d := by
      intro n d
      induction List.range n with
      | nil => rfl
      | cons i l ih => exact ih
    rw [hnone]
    refine (forUpTo_fold (f := fun _ d => d) fun _ _ _ => rfl).trans ?_
    simp only [List.range_zero, List.foldl_nil, hskip]
  · have hh := hp.height_lt hpos
    rw [tiles_toNat (n := height) hp.tile_pos (by omega)]
    exact forUpTo_fold fun ty hty d => hrow ty (tile_mul_lt hty) d

end Cells

/-! The result -/

theorem mem_gridCells {W H T : ℕ} {c : ℕ × ℕ} : c ∈ gridCells W H T ↔
    c.1 < (W + T - 1) / T ∧ c.2 < (H + T - 1) / T := by
  obtain ⟨tx, ty⟩ := c
  simp only [gridCells, List.mem_flatMap, List.mem_map, List.mem_range, Prod.mk.injEq]
  constructor
  · rintro ⟨_, hy, _, hx, rfl, rfl⟩
    exact ⟨hx, hy⟩
  · rintro ⟨hx, hy⟩
    exact ⟨ty, hy, tx, hx, rfl, rfl⟩

theorem gridCells_nodup (W H T : ℕ) : (gridCells W H T).Nodup := by
  refine List.nodup_flatMap.mpr ⟨fun ty _ => ?_, ?_⟩
  · exact List.nodup_range.map fun _ _ h => (Prod.mk.inj h).1
  · refine List.nodup_range.imp_of_mem fun {ty ty'} _ _ hne => ?_
    rw [Function.onFun, List.disjoint_left]
    intro c hc hc'
    obtain ⟨tx, -, rfl⟩ := List.mem_map.mp hc
    obtain ⟨tx', -, he⟩ := List.mem_map.mp hc'
    exact hne (Prod.mk.inj he).2.symm

/-- The pixels of frame `a` with rectangles of frame `b` copied over them. -/
def patched (h : Heap) (a b : Slice) (stride n : ℕ) (rects : Rects) (x y : ℕ) : List UInt8 :=
  if ∃ i < n, (rects i).Contains x y then bytesAt h b (y * stride + 4 * x) 4
  else bytesAt h a (y * stride + 4 * x) 4

/-- A positive `int`, as the `uint32_t` that it is cast to. -/
theorem int32_pos {n : Int32} (h : ¬ n ≤ 0) :
    0 < n.toUInt32.toNat ∧ n.toUInt32.toNat < 2 ^ 31 ∧ (n.toUInt32.toNat : ℤ) = n.toInt := by
  have hpos : 0 < n.toInt := by
    have h' : ¬ n.toInt ≤ (0 : Int32).toInt := fun hle => h (Int32.le_iff_toInt_le.mpr hle)
    simpa using h'
  have hlt : n.toInt < 2 ^ 31 := Int32.toInt_lt n
  have hcast : (n.toUInt32.toNat : ℤ) = n.toInt := by
    have hcond := n.toBitVec.toInt_eq_toNat_cond
    have hint : n.toInt = n.toBitVec.toInt := rfl
    have hnat : n.toUInt32.toNat = n.toBitVec.toNat := rfl
    rw [hint] at hpos ⊢
    rw [hnat]
    split at hcond <;> omega
  omega

section Result
variable {h h' : Heap} {a b : Slice} {width height stride tile : UInt32} {rects rects' : Rects}
  {W H S T : ℕ}

/-- The verdicts depend on the visible pixels alone. -/
theorem cellDiffers_congr {c : ℕ × ℕ}
    (hsame : ∀ y < H, ∀ o, y * S ≤ o → o < y * S + 4 * W →
      h'.read a.base o = h.read a.base o ∧ h'.read b.base o = h.read b.base o) :
    CellDiffers h' a b W H S T c ↔ CellDiffers h a b W H S T c := by
  have hpix : ∀ x < W, ∀ y < H, PixelDiffers h' a b S x y ↔ PixelDiffers h a b S x y := by
    intro x hx y hy
    simp only [PixelDiffers, ne_eq, bytesAt_eq_iff]
    refine not_congr (forall₂_congr fun i hi => ?_)
    obtain ⟨ha, hb⟩ := hsame y hy (y * S + 4 * x + i) (by omega) (by omega)
    rw [ha, hb]
  unfold CellDiffers
  constructor
  · rintro ⟨x, hx, y, hy, hc, hd⟩
    exact ⟨x, hx, y, hy, hc, (hpix x hx y hy).mp hd⟩
  · rintro ⟨x, hx, y, hy, hc, hd⟩
    exact ⟨x, hx, y, hy, hc, (hpix x hx y hy).mpr hd⟩

/-- What a call has counted and listed. -/
structure Diffed (h : Heap) (a b : Slice) (W H S T : ℕ) (max : ℤ) (rects rects' : Rects) : Prop where
  listed : ∀ (i : ℕ) c, (dirtyCells h a b W H S T)[i]? = some c → (i : ℤ) < max →
    (rects' i).Clips W H T c
  kept : ∀ i : ℕ, (dirtyCells h a b W H S T).length ≤ i ∨ max ≤ i → rects' i = rects i

theorem FramePair.diffTiles_diffed (hp : FramePair h a b width height stride tile)
    (maxRects : Int32) (rects : Rects) :
    ∃ rects', diffTiles a b width height stride tile maxRects h rects = some
        ⟨(dirtyCells h a b width.toNat height.toNat stride.toNat tile.toNat).length, rects'⟩ ∧
      Diffed h a b width.toNat height.toNat stride.toNat tile.toNat maxRects.toInt rects
        rects' := by
  obtain ⟨hcount, hrects⟩ := foldl_noteTile maxRects
    (fun c : ℕ × ℕ => tileRect width height tile c.1 c.2)
    (fun c => decide (CellDiffers h a b width.toNat height.toNat stride.toNat tile.toNat c))
    (gridCells width.toNat height.toNat tile.toNat) ⟨0, rects⟩
  have hrun := hp.diffTiles_eq maxRects rects
  generalize (gridCells width.toNat height.toNat tile.toNat).foldl _ _ = d at hrun hcount hrects
  refine ⟨d.rects, hrun.trans (congrArg some ?_), ?_⟩
  · have hlen : d.count =
        (dirtyCells h a b width.toNat height.toNat stride.toNat tile.toNat).length :=
      hcount.trans (Nat.zero_add _)
    rw [← hlen]
  · constructor
    · intro i c hc hlt
      have hmem := mem_gridCells.mp (List.mem_of_mem_filter (List.mem_of_getElem? hc))
      have hget : (List.map (fun c : ℕ × ℕ => tileRect width height tile c.1 c.2)
          (dirtyCells h a b width.toNat height.toNat stride.toNat tile.toNat))[i]? =
          some (tileRect width height tile c.1 c.2) := by
        rw [List.getElem?_map, hc]
        rfl
      have hi := hrects i
      rw [if_pos ⟨Nat.zero_le i, hlt⟩] at hi
      rw [hi]
      have hsub : (List.map (fun c : ℕ × ℕ => tileRect width height tile c.1 c.2)
          (dirtyCells h a b width.toNat height.toNat stride.toNat tile.toNat))[i - 0]? =
          some (tileRect width height tile c.1 c.2) := hget
      unfold dirtyCells at hsub
      rw [hsub]
      exact hp.clips (tile_mul_lt hmem.1) (tile_mul_lt hmem.2)
    · intro i hi
      rw [hrects i]
      by_cases hlt : (i : ℤ) < maxRects.toInt
      · rw [if_pos ⟨Nat.zero_le i, hlt⟩]
        have hlen : (dirtyCells h a b width.toNat height.toNat stride.toNat tile.toNat).length ≤ i := by
          omega
        have hnone : (List.map (fun c : ℕ × ℕ => tileRect width height tile c.1 c.2)
            (dirtyCells h a b width.toNat height.toNat stride.toNat tile.toNat))[i - 0]? = none := by
          rw [List.getElem?_eq_none_iff, List.length_map]
          exact hlen
        unfold dirtyCells at hnone
        rw [hnone]
        rfl
      · exact if_neg fun hc => hlt hc.2

/-- The cells that are listed do not meet. -/
theorem Diffed.disjoint {max : ℤ} (hd : Diffed h a b W H S T max rects rects') (hT : 0 < T)
    {i j : ℕ} {c c' : ℕ × ℕ} (hi : (dirtyCells h a b W H S T)[i]? = some c)
    (hj : (dirtyCells h a b W H S T)[j]? = some c') (him : (i : ℤ) < max) (hjm : (j : ℤ) < max)
    (hij : i ≠ j) (x y : ℕ) : ¬ ((rects' i).Contains x y ∧ (rects' j).Contains x y) := by
  have hcell : ∀ {i : ℕ} {c}, (dirtyCells h a b W H S T)[i]? = some c → (i : ℤ) < max →
      (rects' i).Contains x y → InCell T c x y := by
    intro i c hi him hx
    have hmem := mem_gridCells.mp (List.mem_of_mem_filter (List.mem_of_getElem? hi))
    exact (((hd.listed i c hi him).contains_iff hT (tile_mul_lt hmem.1)
      (tile_mul_lt hmem.2)).mp hx).2.2
  rintro ⟨hx, hx'⟩
  obtain ⟨h1, h2⟩ := hcell hi him hx
  obtain ⟨h3, h4⟩ := hcell hj hjm hx'
  have heq : c = c' := Prod.ext (h1.symm.trans h3) (h2.symm.trans h4)
  have hnodup : (dirtyCells h a b W H S T).Nodup := (gridCells_nodup W H T).filter _
  obtain ⟨hi', hci⟩ := List.getElem?_eq_some_iff.mp hi
  obtain ⟨hj', hcj⟩ := List.getElem?_eq_some_iff.mp hj
  exact hij (hnodup.getElem_inj_iff.mp ((hci.trans heq).trans hcj.symm))

/-- A list of all the cells covers every difference. -/
theorem Diffed.patched_eq {max : ℤ} (hd : Diffed h a b W H S T max rects rects') (hT : 0 < T)
    (hall : ((dirtyCells h a b W H S T).length : ℤ) ≤ max) {x y : ℕ} (hx : x < W) (hy : y < H) :
    patched h a b S (dirtyCells h a b W H S T).length rects' x y =
      bytesAt h b (y * S + 4 * x) 4 := by
  unfold patched
  split_ifs with hlisted
  · rfl
  · by_contra hdiff
    refine hlisted ?_
    have hcell : (x / T, y / T) ∈ dirtyCells h a b W H S T := by
      refine List.mem_filter.mpr ⟨mem_gridCells.mpr ⟨tile_div_lt hT hx, tile_div_lt hT hy⟩, ?_⟩
      exact decide_eq_true ⟨x, hx, y, hy, ⟨rfl, rfl⟩, hdiff⟩
    obtain ⟨i, hi⟩ := List.mem_iff_getElem?.mp hcell
    obtain ⟨hlt, -⟩ := List.getElem?_eq_some_iff.mp hi
    refine ⟨i, hlt, ?_⟩
    refine ((hd.listed i _ hi (by omega)).contains_iff hT ?_ ?_).mpr ⟨hx, hy, rfl, rfl⟩
    · exact tile_mul_lt (tile_div_lt hT hx)
    · exact tile_mul_lt (tile_div_lt hT hy)

end Result

/-- The result is the number of cells that differ. The rectangles are the first of them in
row-major order, clipped: not empty, inside the frame, apart from each other; the rest of the array
stays. Only visible pixels matter, and to copy all the rectangles makes the frames equal. -/
theorem diff_frames_exact {h : Heap} {a b : Slice} {width height stride : UInt32}
    (ha : h.Live a) (hb : h.Live b) (hrow : 4 * width.toNat ≤ stride.toNat)
    (hsize : stride.toNat * height.toNat < 2 ^ 32)
    (hfitA : ∀ y < height.toNat, y * stride.toNat + 4 * width.toNat ≤ a.len)
    (hfitB : ∀ y < height.toNat, y * stride.toNat + 4 * width.toNat ≤ b.len)
    {maxRects tileSize : Int32} (hmax : 0 < maxRects) (htile : 0 < tileSize) (rects : Rects) :
    let cells := dirtyCells h a b width.toNat height.toNat stride.toNat tileSize.toInt.toNat
    ∃ rects', drmtapDiffFrames (some a) (some b) width height stride (some rects) maxRects tileSize
        h = some ((cells.length : ℤ), some rects') ∧
      (∀ (i : ℕ) c, cells[i]? = some c → (i : ℤ) < maxRects.toInt →
        (rects' i).Clips width.toNat height.toNat tileSize.toInt.toNat c ∧
        0 < (rects' i).w ∧ 0 < (rects' i).h ∧
        (rects' i).x.toNat + (rects' i).w.toNat ≤ width.toNat ∧
        (rects' i).y.toNat + (rects' i).h.toNat ≤ height.toNat) ∧
      (∀ i : ℕ, cells.length ≤ i ∨ maxRects.toInt ≤ i → rects' i = rects i) ∧
      (∀ i j : ℕ, i < cells.length → j < cells.length → (i : ℤ) < maxRects.toInt →
        (j : ℤ) < maxRects.toInt → i ≠ j → ∀ x y,
        ¬ ((rects' i).Contains x y ∧ (rects' j).Contains x y)) ∧
      (∀ h' : Heap, h'.Live a → h'.Live b → (∀ y < height.toNat, ∀ o, y * stride.toNat ≤ o →
          o < y * stride.toNat + 4 * width.toNat →
          h'.read a.base o = h.read a.base o ∧ h'.read b.base o = h.read b.base o) →
        drmtapDiffFrames (some a) (some b) width height stride (some rects) maxRects tileSize h' =
          some ((cells.length : ℤ), some rects')) ∧
      ((cells.length : ℤ) ≤ maxRects.toInt → ∀ x < width.toNat, ∀ y < height.toNat,
        patched h a b stride.toNat cells.length rects' x y =
          bytesAt h b (y * stride.toNat + 4 * x) 4) := by
  intro cells
  obtain ⟨htpos, htlt, htint⟩ := int32_pos (Int32.not_le.mpr htile)
  have hT : tileSize.toInt.toNat = tileSize.toUInt32.toNat := by
    rw [← htint, Int.toNat_natCast]
  have hcells : cells = dirtyCells h a b width.toNat height.toNat stride.toNat
      tileSize.toUInt32.toNat := by
    rw [← hT]
  have hvalid : ¬ (maxRects ≤ 0 ∨ tileSize ≤ 0) :=
    not_or.mpr ⟨Int32.not_le.mpr hmax, Int32.not_le.mpr htile⟩
  have hp : FramePair h a b width height stride tileSize.toUInt32 :=
    ⟨ha, hb, hrow, hsize, hfitA, hfitB, htpos, htlt⟩
  obtain ⟨rects', hrun, hd⟩ := hp.diffTiles_diffed maxRects rects
  rw [hT, hcells]
  refine ⟨rects', ?_, ?_, hd.kept, ?_, ?_, ?_⟩
  · simp only [drmtapDiffFrames, if_neg hvalid, hrun, Option.bind_eq_bind, Option.bind_some,
      Option.pure_def]
  · intro i c hc hi
    have hclip := hd.listed i c hc hi
    have hmem := mem_gridCells.mp (List.mem_of_mem_filter (List.mem_of_getElem? hc))
    have hx := tile_mul_lt hmem.1
    have hy := tile_mul_lt hmem.2
    obtain ⟨h1, h2, h3, h4⟩ := hclip
    refine ⟨⟨h1, h2, h3, h4⟩, ?_, ?_, by omega, by omega⟩
    · rw [UInt32.lt_iff_toNat_lt, h3]
      show 0 < _
      omega
    · rw [UInt32.lt_iff_toNat_lt, h4]
      show 0 < _
      omega
  · intro i j hi hj him hjm hij
    exact hd.disjoint htpos (List.getElem?_eq_getElem hi) (List.getElem?_eq_getElem hj) him hjm hij
  · intro h' ha' hb' hsame
    have hp' : FramePair h' a b width height stride tileSize.toUInt32 :=
      ⟨ha', hb', hrow, hsize, hfitA, hfitB, htpos, htlt⟩
    have hrun' : diffTiles a b width height stride tileSize.toUInt32 maxRects h' rects =
        diffTiles a b width height stride tileSize.toUInt32 maxRects h rects := by
      rw [hp'.diffTiles_eq, hp.diffTiles_eq]
      simp only [cellDiffers_congr hsame]
    simp only [drmtapDiffFrames, if_neg hvalid, hrun', hrun, Option.bind_eq_bind,
      Option.bind_some, Option.pure_def]
  · intro hall x hx y hy
    exact hd.patched_eq htpos hall hx hy

theorem diff_frames_exact_pixel :
    ∃ rects', drmtapDiffFrames (some ⟨0, 8⟩) (some ⟨1, 8⟩) 2 1 8 (some fun _ => ⟨0, 0, 0, 0⟩) 1 1
      ((Heap.empty.alloc 8 0).2.alloc 8 fun i => if i = 6 then 1 else 0).2 =
        some (((1 : ℕ) : ℤ), some rects') := by
  have hrow : 4 * (2 : UInt32).toNat ≤ (8 : UInt32).toNat := by decide
  have hsize : (8 : UInt32).toNat * (1 : UInt32).toNat < 2 ^ 32 := by decide
  have hpos : (0 : Int32) < 1 := by decide
  obtain ⟨rects', hrun, -⟩ := diff_frames_exact (a := ⟨0, 8⟩) (b := ⟨1, 8⟩)
    (h := ((Heap.empty.alloc 8 0).2.alloc 8 fun i => if i = 6 then 1 else 0).2)
    ⟨_, rfl, le_rfl⟩ ⟨_, rfl, le_rfl⟩ hrow hsize (by decide) (by decide) hpos hpos
    fun _ => ⟨0, 0, 0, 0⟩
  exact ⟨rects', hrun⟩

end Drmtap
