import Drmtap.PixelConvert

/-! What each loop of pixel_convert.c leaves in the destination: the picture it draws, when
the buffers hold the rows and no offset reaches 2^32. -/
namespace Drmtap

open Memory

/-- `u32` keeps the values a 32-bit integer holds. -/
def Exact32 (u32 : ℕ → ℕ) : Prop := ∀ n < 2 ^ 32, u32 n = n

theorem wrap32_exact : Exact32 wrap32 := fun _ => Nat.mod_eq_of_lt

/-- The `n` bytes at `off` in the block of `s`. -/
def bytesAt (h : Heap) (s : Slice) (off n : ℕ) : List UInt8 :=
  (List.range n).map fun i => h.read s.base (off + i)

@[simp] theorem bytesAt_length (h : Heap) (s : Slice) (off n : ℕ) :
    (bytesAt h s off n).length = n := by simp [bytesAt]

theorem bytesAt_getElem? {h : Heap} {s : Slice} {off n i : ℕ} (hi : i < n) :
    (bytesAt h s off n)[i]? = some (h.read s.base (off + i)) := by
  simp [bytesAt, hi]

theorem mul_lt_of_row {y height stride bound : ℕ} (hy : y < height)
    (hb : height * stride < bound) : y * stride < bound :=
  (Nat.mul_le_mul_right stride hy.le).trans_lt hb

theorem row_end_le {y height : ℕ} (stride : ℕ) (hy : y < height) :
    y * stride + stride ≤ height * stride := by
  rw [← Nat.succ_mul]
  exact Nat.mul_le_mul_right stride hy

/-- Room for whole rows is room for the cells of each. -/
theorem rows_fit {height stride n len : ℕ} (hn : n ≤ stride) (hfit : height * stride ≤ len) :
    ∀ y < height, y * stride + n ≤ len := by
  intro y hy
  have hrow := row_end_le stride hy
  omega

theorem cell_end_le (k : ℕ) {x w : ℕ} (hx : x < w) : k * x + k ≤ k * w := by
  rw [← Nat.mul_succ]
  exact Nat.mul_le_mul_left k hx

/-- A picture of `unit`-byte pixels and the room for its 4-byte form: two buffers apart, or
one buffer converted in place. -/
structure Buffers (h : Heap) (src dst : Slice) (unit width height srcStride dstStride : ℕ) :
    Prop where
  srcLive : h.Live src
  dstLive : h.Live dst
  srcRow : unit * width ≤ srcStride
  dstRow : 4 * width ≤ dstStride
  srcFit : height * srcStride ≤ src.len
  dstFit : height * dstStride ≤ dst.len
  apart : src.base = dst.base → unit = 4 ∧ srcStride = dstStride

section Rows
variable {h : Heap} {src dst : Slice} {unit width height srcStride dstStride : ℕ}

/-- The loop draws, where every row is in the buffers. -/
theorem convertRows_fit (hls : h.Live src) (hld : h.Live dst) (hw : 4 * width ≤ dstStride)
    (hfs : ∀ y < height, y * srcStride + unit * width ≤ src.len)
    (hfd : ∀ y < height, y * dstStride + 4 * width ≤ dst.len)
    (hapart : src.base = dst.base → unit = 4 ∧ srcStride = dstStride)
    (pixel : List UInt8 → UInt32) {srcRow dstRow : ℕ → ℕ}
    (hs : ∀ y < height, srcRow y = y * srcStride)
    (hd : ∀ y < height, dstRow y = y * dstStride) :
    ∃ h', convertRows unit pixel srcRow dstRow src dst width height h = some h' ∧
      Drawn h h' dst dstStride 4 width height fun x y =>
        bytes32 (pixel (bytesAt h src (y * srcStride + unit * x) unit)) := by
  refine raster_drawn hld hw hfd (fun _ _ => bytes32_length _) fun y hy x hx h' hf => ?_
  have hrow := hfs y hy
  have hcell := cell_end_le unit hx
  have hin : y * srcStride + unit * x + unit ≤ src.len := by omega
  have hl := Before.load_eq hf hls hin hw hx fun he => by
    obtain ⟨rfl, rfl⟩ := hapart he
    exact ⟨rfl, rfl⟩
  simp only [hs y hy, hd y hy, hl, bytesAt, Option.bind_eq_bind, Option.bind_some]

theorem convertRows_drawn (hb : Buffers h src dst unit width height srcStride dstStride)
    (pixel : List UInt8 → UInt32) {srcRow dstRow : ℕ → ℕ}
    (hs : ∀ y < height, srcRow y = y * srcStride)
    (hd : ∀ y < height, dstRow y = y * dstStride) :
    ∃ h', convertRows unit pixel srcRow dstRow src dst width height h = some h' ∧
      Drawn h h' dst dstStride 4 width height fun x y =>
        bytes32 (pixel (bytesAt h src (y * srcStride + unit * x) unit)) :=
  convertRows_fit hb.srcLive hb.dstLive hb.dstRow (rows_fit hb.srcRow hb.srcFit)
    (rows_fit hb.dstRow hb.dstFit) hb.apart pixel hs hd

/-- Rows stored whole draw the same picture as cells stored one by one. -/
theorem rows_drawn {k : ℕ} {body : ℕ → Heap → Option Heap} (row : ℕ → List UInt8)
    {cell : ℕ → ℕ → List UInt8} (hl : h.Live dst) (hw : k * width ≤ dstStride)
    (hfit : ∀ y < height, y * dstStride + k * width ≤ dst.len) (hk : 0 < k)
    (hlen : ∀ y, (row y).length = k * width)
    (hrow : ∀ y x i, x < width → i < k → (row y)[k * x + i]? = (cell x y)[i]?)
    (hbody : ∀ y < height, ∀ h', Filled h h' dst.base (fun o => ∃ j < y, Row dstStride
      (k * width) j o) (canvas dstStride k cell) →
        body y h' = h'.store dst (y * dstStride) (row y)) :
    ∃ h', forUpTo height body h = some h' ∧
      Drawn h h' dst dstStride k width height cell := by
  refine forUpTo_filled fun y hy h₁ hf₁ => ?_
  have hend := hfit y hy
  obtain ⟨h₂, he₂, hf₂⟩ := Heap.store_filled (V := canvas dstStride k cell) (hf₁.live hl)
    (show y * dstStride + (row y).length ≤ dst.len by rw [hlen]; omega) fun i hi => by
      rw [hlen] at hi
      have hx : i / k < width := (Nat.div_lt_iff_lt_mul hk).mpr (by rwa [Nat.mul_comm])
      have hm := Nat.mod_lt i hk
      have hi' : k * (i / k) + i % k = i := Nat.div_add_mod i k
      have hc : canvas dstStride k cell (y * dstStride + k * (i / k) + i % k) = _ :=
        canvas_cell hw hx hm
      rw [Nat.add_assoc, hi'] at hc
      rw [hc, ← hrow y _ _ hx hm, hi', List.getElem?_eq_getElem (by rwa [hlen]),
        Option.getD_some]
  refine ⟨h₂, (hbody y hy h₁ hf₁).trans he₂, hf₂.congr fun o => ?_⟩
  rw [hlen]
  exact Iff.rfl

end Rows

/-! The tile offsets without wrapping. -/

/-- The geometry every entry point checks before a pixel is touched. -/
structure Bounded (width height stride : ℕ) : Prop where
  width_pos : 0 < width
  height_pos : 0 < height
  stride_pos : 0 < stride
  width_le : width ≤ drmtapMaxDim
  height_le : height ≤ drmtapMaxDim
  pixels : width * height * 4 ≤ drmtapMaxFbBytes
  bytes : height * stride ≤ drmtapMaxFbBytes

theorem Bounded.bytes_lt {width height stride : ℕ} (hb : Bounded width height stride) :
    height * stride < 2 ^ 32 :=
  hb.bytes.trans_lt (by decide)

theorem Bounded.stride_le {width height stride : ℕ} (hb : Bounded width height stride) :
    stride ≤ drmtapMaxFbBytes :=
  (Nat.le_mul_of_pos_left stride hb.height_pos).trans hb.bytes

private theorem tileRow_bound {tile h y s : ℕ} (ht : 0 < tile) :
    y / h * ((s + tile - 1) / tile) * (tile * h) ≤ y * s + y * tile := by
  have h1 : (s + tile - 1) / tile * tile ≤ s + tile := by
    have := Nat.div_mul_le_self (s + tile - 1) tile
    omega
  have h2 : y / h * h ≤ y := Nat.div_mul_le_self y h
  calc y / h * ((s + tile - 1) / tile) * (tile * h)
      = (y / h * h) * ((s + tile - 1) / tile * tile) := by ring
    _ ≤ y * (s + tile) := Nat.mul_le_mul h2 h1
    _ = y * s + y * tile := Nat.mul_add y s tile

section Tiles
variable {u32 : ℕ → ℕ} {width height stride x y : ℕ}

theorem intelXTiledOffset_exact (hu : Exact32 u32) (hb : Bounded width height stride)
    (hx : x < width) (hy : y < height) :
    intelXTiledOffset u32 stride x y = intelXTiledOffset id stride x y := by
  have hs : stride ≤ 132710400 := hb.stride_le
  have hys : y * stride ≤ 132710400 := (Nat.mul_le_mul_right stride hy.le).trans hb.bytes
  have hw : width ≤ 32768 := hb.width_le
  have hh : height ≤ 32768 := hb.height_le
  have hrow : y / 8 * ((stride + 512 - 1) / 512) * (512 * 8) ≤ y * stride + y * 512 :=
    tileRow_bound (by decide)
  have e₁ : u32 (stride + 512 - 1) = stride + 512 - 1 := hu _ (by omega)
  have e₂ : u32 (x * 4) = x * 4 := hu _ (by omega)
  generalize hr : y / 8 * ((stride + 512 - 1) / 512) = r at hrow
  have e₃ : u32 r = r := hu _ (by omega)
  have e₄ : u32 (r + x * 4 / 512) = r + x * 4 / 512 := hu _ (by omega)
  have e₅ : u32 ((r + x * 4 / 512) * (512 * 8)) = (r + x * 4 / 512) * (512 * 8) :=
    hu _ (by omega)
  have e₆ : u32 ((r + x * 4 / 512) * (512 * 8) + y % 8 * 512) =
      (r + x * 4 / 512) * (512 * 8) + y % 8 * 512 := hu _ (by omega)
  have e₇ : u32 ((r + x * 4 / 512) * (512 * 8) + y % 8 * 512 + x * 4 % 512) =
      (r + x * 4 / 512) * (512 * 8) + y % 8 * 512 + x * 4 % 512 := hu _ (by omega)
  simp only [intelXTiledOffset, intelXTileWidth, intelXTileHeight, id, e₁, e₂, hr, e₃, e₄, e₅,
    e₆, e₇]

theorem intelYTiledOffset_exact (hu : Exact32 u32) (hb : Bounded width height stride)
    (hx : x < width) (hy : y < height) :
    intelYTiledOffset u32 stride x y = intelYTiledOffset id stride x y := by
  have hs : stride ≤ 132710400 := hb.stride_le
  have hys : y * stride ≤ 132710400 := (Nat.mul_le_mul_right stride hy.le).trans hb.bytes
  have hw : width ≤ 32768 := hb.width_le
  have hh : height ≤ 32768 := hb.height_le
  have hrow : y / 32 * ((stride + 128 - 1) / 128) * (128 * 32) ≤ y * stride + y * 128 :=
    tileRow_bound (by decide)
  have e₁ : u32 (stride + 128 - 1) = stride + 128 - 1 := hu _ (by omega)
  have e₂ : u32 (x * 4) = x * 4 := hu _ (by omega)
  generalize hr : y / 32 * ((stride + 128 - 1) / 128) = r at hrow
  have e₃ : u32 r = r := hu _ (by omega)
  have e₄ : u32 (r + x * 4 / 128) = r + x * 4 / 128 := hu _ (by omega)
  generalize hc : x * 4 % 128 = c
  have hc' : c < 128 := hc ▸ Nat.mod_lt _ (by decide)
  have e₅ : u32 ((r + x * 4 / 128) * (128 * 32)) = (r + x * 4 / 128) * (128 * 32) :=
    hu _ (by omega)
  have e₆ : u32 ((r + x * 4 / 128) * (128 * 32) + c / 16 * (16 * 32)) =
      (r + x * 4 / 128) * (128 * 32) + c / 16 * (16 * 32) := hu _ (by omega)
  have e₇ : u32 ((r + x * 4 / 128) * (128 * 32) + c / 16 * (16 * 32) + y % 32 * 16) =
      (r + x * 4 / 128) * (128 * 32) + c / 16 * (16 * 32) + y % 32 * 16 := hu _ (by omega)
  have e₈ : u32 ((r + x * 4 / 128) * (128 * 32) + c / 16 * (16 * 32) + y % 32 * 16 + c % 16) =
      (r + x * 4 / 128) * (128 * 32) + c / 16 * (16 * 32) + y % 32 * 16 + c % 16 :=
    hu _ (by omega)
  simp only [intelYTiledOffset, intelYTileWidth, intelYTileHeight, intelYOword, id, e₁, e₂, hr,
    e₃, e₄, hc, e₅, e₆, e₇, e₈]

theorem convertRows_exact {unit : ℕ} {pixel : List UInt8 → UInt32} {src dst : Slice}
    {srcRow srcRow' dstRow dstRow' : ℕ → ℕ} (hs : ∀ y < height, srcRow y = srcRow' y)
    (hd : ∀ y < height, dstRow y = dstRow' y) (h : Heap) :
    convertRows unit pixel srcRow dstRow src dst width height h =
      convertRows unit pixel srcRow' dstRow' src dst width height h :=
  forUpTo_congr (fun y hy => by simp only [hs y hy, hd y hy]) h

theorem drmtapConvertFormat_exact {srcStride dstStride : ℕ} {src dst : Option Slice}
    {srcFormat dstFormat : UInt32} (hu : Exact32 u32) (hlt : dstStride < 2 ^ 32)
    (hs : ∀ y < height, y * srcStride < 2 ^ 32) (hd : ∀ y < height, y * dstStride < 2 ^ 32)
    (h : Heap) :
    drmtapConvertFormat u32 src dst width height srcStride dstStride srcFormat dstFormat h =
      drmtapConvertFormat id src dst width height srcStride dstStride srcFormat dstFormat h := by
  have hs' : ∀ y < height, u32 (y * srcStride) = y * srcStride := fun y hy => hu _ (hs y hy)
  have hd' : ∀ y < height, u32 (y * dstStride) = y * dstStride := fun y hy => hu _ (hd y hy)
  unfold drmtapConvertFormat
  split
  next src dst =>
    split
    · rfl
    next hz =>
      split
      · rfl
      next hw =>
        split
        · rw [hu (width * 4) (by omega)]
          refine congrArg (Option.map _) (forUpTo_congr (fun y hy => ?_) h)
          simp only [hs' y hy, hd' y hy, id]
        · split
          · exact congrArg (Option.map _) (convertRows_exact hs' hd' h)
          · split
            · exact congrArg (Option.map _) (convertRows_exact hs' hd' h)
            · rfl
  · rfl

theorem deswizzleTiles_exact (hu : Exact32 u32) (src dst : Slice) {off off' : ℕ → ℕ → ℕ}
    (srcSize : ℕ) (hw : width * 4 < 2 ^ 32) (hd : ∀ y < height, y * stride < 2 ^ 32)
    (ho : ∀ y < height, ∀ x < width, off x y = off' x y) (h : Heap) :
    deswizzleTiles u32 off src dst width height stride srcSize h =
      deswizzleTiles id off' src dst width height stride srcSize h := by
  refine forUpTo_congr (fun y hy => funext fun h => forUpTo_congr (fun x hx => ?_) h) h
  rw [ho y hy x hx, hu _ (hd y hy), hu (x * 4) (by omega)]
  rfl

theorem deswizzleLinear_exact (hu : Exact32 u32) (src dst : Slice) (srcStride srcSize : ℕ)
    (hw : width * 4 < 2 ^ 32) (hd : ∀ y < height, y * stride < 2 ^ 32) (h : Heap) :
    deswizzleLinear u32 src dst width height srcStride stride srcSize h =
      deswizzleLinear id src dst width height srcStride stride srcSize h := by
  refine forUpTo_congr (fun y hy => ?_) h
  rw [hu _ (hd y hy), hu _ hw]
  rfl

theorem drmtapDeswizzle_exact {src dst : Option Slice} {modifier : UInt64} {srcSize : ℕ}
    (hu : Exact32 u32) (hb : Bounded width height stride) (h : Heap) :
    drmtapDeswizzle u32 src dst width height stride stride modifier srcSize h =
      drmtapDeswizzle id src dst width height stride stride modifier srcSize h := by
  unfold drmtapDeswizzle
  split
  next src dst =>
    by_cases hw : width * 4 ≤ stride
    · have hlt : width * 4 < 2 ^ 32 :=
        hw.trans_lt ((Nat.le_mul_of_pos_left _ hb.height_pos).trans_lt hb.bytes_lt)
      have hd : ∀ y < height, y * stride < 2 ^ 32 := fun y hy => mul_lt_of_row hy hb.bytes_lt
      have hlin := deswizzleLinear_exact hu src dst stride srcSize hlt hd h
      have hX := deswizzleTiles_exact hu src dst srcSize hlt hd
        (fun y hy x hx => intelXTiledOffset_exact hu hb hx hy) h
      have hY := deswizzleTiles_exact hu src dst srcSize hlt hd
        (fun y hy x hx => intelYTiledOffset_exact hu hb hx hy) h
      simp only [deswizzleIntelXTiled, deswizzleIntelYTiled, hlin, hX, hY]
    · simp only [hw, not_false_iff, if_true]
  · rfl

end Tiles

/-! The pictures. -/

/-- Where the CPU decoder looks for pixel `(x, y)` of a row pitch, for each modifier that it
accepts. -/
def cpuOffset (modifier : UInt64) : Option (ℕ → ℕ → ℕ → ℕ) :=
  if modifier = drmFormatModLinear then some fun stride x y => y * stride + 4 * x
  else if modifier >>> 56 = drmFormatModVendorIntel then
    if modifier &&& 0xFF = 0x01 then some (intelXTiledOffset id)
    else if modifier &&& 0xFF = 0x02 ∨ modifier &&& 0xFF = 0x03 then some (intelYTiledOffset id)
    else none
  else if modifier = drmFormatModInvalid then some fun stride x y => y * stride + 4 * x
  else none

/-- The `n` bytes at `off`, or zeros where the source of `size` bytes does not back them. -/
def backedBytes (h : Heap) (src : Slice) (size off n : ℕ) : List UInt8 :=
  if off + n ≤ size then bytesAt h src off n else List.replicate n 0

@[simp] theorem backedBytes_length (h : Heap) (src : Slice) (size off n : ℕ) :
    (backedBytes h src size off n).length = n := by
  unfold backedBytes
  split <;> simp

section Pictures
variable {h : Heap} {src dst : Slice} {width height stride : ℕ}

theorem deswizzleTiles_drawn (hs : h.Live src) (hd : h.Live dst) (hne : src.base ≠ dst.base)
    (hw : width * 4 ≤ stride) {srcSize : ℕ} (hsrc : srcSize ≤ src.len)
    (hdst : ∀ y < height, y * stride + 4 * width ≤ dst.len) (off : ℕ → ℕ → ℕ) :
    ∃ h', deswizzleTiles id off src dst width height stride srcSize h = some h' ∧
      Drawn h h' dst stride 4 width height fun x y => backedBytes h src srcSize (off x y) 4 := by
  refine raster_drawn hd (by omega) hdst (fun _ _ => backedBytes_length _ _ _ _ _)
    fun y hy x hx h' hf => ?_
  simp only [id, Nat.mul_comm x 4, backedBytes]
  split
  next hin =>
    have hl := Before.load_eq hf hs (hin.trans hsrc) (by omega) hx fun he => absurd he hne
    simp only [Heap.memcpy, hl, bytesAt, Option.bind_eq_bind, Option.bind_some]
  next => rfl

/-- Copying rows is copying pixels. -/
theorem copyRows_drawn (hs : h.Live src) (hd : h.Live dst) {srcStride dstStride : ℕ}
    (hapart : src.base = dst.base → srcStride = dstStride) (hw : 4 * width ≤ dstStride)
    (hsrc : ∀ y < height, y * srcStride + 4 * width ≤ src.len)
    (hdst : ∀ y < height, y * dstStride + 4 * width ≤ dst.len) {body : ℕ → Heap → Option Heap}
    (hbody : ∀ y < height, ∀ h', body y h' =
      h'.memcpy dst (y * dstStride) src (y * srcStride) (width * 4)) :
    ∃ h', forUpTo height body h = some h' ∧
      Drawn h h' dst dstStride 4 width height fun x y =>
        bytesAt h src (y * srcStride + 4 * x) 4 := by
  refine rows_drawn (fun y => bytesAt h src (y * srcStride) (4 * width)) hd hw hdst (by decide)
    (fun y => bytesAt_length _ _ _ _) (fun y x i hx hi => ?_) fun y hy h' hf => ?_
  · have hc := cell_end_le 4 hx
    rw [bytesAt_getElem? (by omega), bytesAt_getElem? hi, Nat.add_assoc]
  · have hl := Filled.load_eq hf hs (hsrc y hy) fun he i hi => by
      rintro ⟨j, hj, hr⟩
      rw [hapart he] at hr
      have hr' : Row dstStride (4 * width) y (y * dstStride + i) := ⟨by omega, by omega⟩
      have := row_unique hw hr hr'
      omega
    rw [hbody y hy h', Heap.memcpy, Nat.mul_comm width 4, hl]
    rfl

/-- Rows that the source of `size` bytes does not back are zeroed whole. -/
theorem deswizzleLinear_drawn (hs : h.Live src) (hd : h.Live dst) (hne : src.base ≠ dst.base)
    {srcStride dstStride srcSize : ℕ} (hw : 4 * width ≤ dstStride) (hsrc : srcSize ≤ src.len)
    (hdst : ∀ y < height, y * dstStride + 4 * width ≤ dst.len) :
    ∃ h', deswizzleLinear id src dst width height srcStride dstStride srcSize h = some h' ∧
      Drawn h h' dst dstStride 4 width height fun x y =>
        if y * srcStride + 4 * width ≤ srcSize then bytesAt h src (y * srcStride + 4 * x) 4
        else List.replicate 4 0 := by
  refine rows_drawn (fun y => if y * srcStride + 4 * width ≤ srcSize then
      bytesAt h src (y * srcStride) (4 * width) else List.replicate (4 * width) 0) hd hw hdst
    (by decide) (fun y => by split <;> simp) (fun y x i hx hi => ?_) fun y hy h' hf => ?_
  · have hc := cell_end_le 4 hx
    split
    · rw [bytesAt_getElem? (by omega), bytesAt_getElem? hi, Nat.add_assoc]
    · rw [List.getElem?_replicate_of_lt (by omega), List.getElem?_replicate_of_lt hi]
  · by_cases hin : y * srcStride + 4 * width ≤ srcSize
    · have hl := Filled.load_eq hf hs (hin.trans hsrc) fun he => absurd he hne
      rw [if_neg (by omega), if_pos hin, Heap.memcpy, id, id, Nat.mul_comm width 4, hl]
      rfl
    · rw [if_pos (by omega), if_neg hin, Heap.memset, id, Nat.mul_comm width 4]

/-- The deswizzle on a source of exactly `height * stride` bytes: refused without touching
the destination, or the picture at the places of the layout. -/
theorem drmtapDeswizzle_spec (hb : Bounded width height stride) (hs : h.Live src)
    (hd : h.Live dst) (hne : src.base ≠ dst.base) (hsrc : height * stride ≤ src.len)
    (hdst : height * stride ≤ dst.len) (modifier : UInt64) :
    (cpuOffset modifier = none ∧
      drmtapDeswizzle id (some src) (some dst) width height stride stride modifier
        (height * stride) h = some (-ENOTSUP, h)) ∨
    (cpuOffset modifier ≠ none ∧ stride < width * 4 ∧
      drmtapDeswizzle id (some src) (some dst) width height stride stride modifier
        (height * stride) h = some (-EINVAL, h)) ∨
    ∃ off h', cpuOffset modifier = some off ∧ width * 4 ≤ stride ∧
      drmtapDeswizzle id (some src) (some dst) width height stride stride modifier
        (height * stride) h = some (0, h') ∧
      Drawn h h' dst stride 4 width height fun x y =>
        backedBytes h src (height * stride) (off stride x y) 4 := by
  have hz : ¬ (width = 0 ∨ height = 0) := by
    have := hb.width_pos
    have := hb.height_pos
    omega
  have hlin (hw : width * 4 ≤ stride) : ∃ h',
      deswizzleLinear id src dst width height stride stride (height * stride) h = some h' ∧
      Drawn h h' dst stride 4 width height fun x y =>
        backedBytes h src (height * stride) (y * stride + 4 * x) 4 := by
    have hfit : 4 * width ≤ stride := by omega
    obtain ⟨h', he, hf⟩ := deswizzleLinear_drawn hs hd hne hfit hsrc (rows_fit hfit hdst)
    refine ⟨h', he, hf.congr hfit fun y hy x hx => ?_⟩
    have hrow := row_end_le stride hy
    have hcell := cell_end_le 4 hx
    rw [if_pos (by omega), backedBytes, if_pos (by omega)]
  have htile (off : ℕ → ℕ → ℕ) (hw : width * 4 ≤ stride) :=
    deswizzleTiles_drawn hs hd hne hw hsrc (rows_fit (by omega) hdst) off
  simp only [drmtapDeswizzle, cpuOffset, deswizzleIntelXTiled, deswizzleIntelYTiled, hz, if_false]
  have hinv : modifier = drmFormatModInvalid → modifier >>> 56 ≠ drmFormatModVendorNvidia := by
    rintro rfl
    decide
  by_cases hw : width * 4 ≤ stride
  · simp only [hw, not_true_eq_false, if_false]
    obtain ⟨hl, el, fl⟩ := hlin hw
    obtain ⟨hX, eX, fX⟩ := htile (intelXTiledOffset id stride) hw
    obtain ⟨hY, eY, fY⟩ := htile (intelYTiledOffset id stride) hw
    rw [el, eX, eY]
    split_ifs
    · exact .inr (.inr ⟨_, hl, rfl, trivial, rfl, fl⟩)
    · exact .inr (.inr ⟨_, hX, rfl, trivial, rfl, fX⟩)
    · exact .inr (.inr ⟨_, hY, rfl, trivial, rfl, fY⟩)
    · exact .inl ⟨rfl, rfl⟩
    · exact (hinv ‹_› ‹_›).elim
    · exact .inr (.inr ⟨_, hl, rfl, trivial, rfl, fl⟩)
    · exact .inl ⟨rfl, rfl⟩
    · exact .inl ⟨rfl, rfl⟩
  · simp only [hw, not_false_iff, if_true, false_and, and_false, exists_false, or_false]
    have hlt : stride < width * 4 := by omega
    split_ifs
    all_goals first | exact (hinv ‹_› ‹_›).elim | simp [hlt]

end Pictures

/-! The 8-bit form of a pixel, and the converters that draw it. -/

def bytesPerPixel (fmt : UInt32) : ℕ := if isRgb16 fmt ∨ isRgb16f fmt then 8 else 4

/-- The pixel every path is to hand out for a pixel of format `fmt`, under an HDR state. -/
def to8Bit (fmt eotf maxNits : UInt32) (px : List UInt8) : List UInt8 :=
  if isAr30 fmt then
    bytes32 (if eotf = drmtapEotfPQ then
      hdr10Pixel (fmt = fmtXB30 ∨ fmt = fmtAB30) maxNits (word32 px)
    else ar30Pixel (fmt = fmtXB30 ∨ fmt = fmtAB30) (word32 px))
  else if isRgb16 fmt then
    bytes32 (rgb16Pixel (fmt = fmtXB48 ∨ fmt = fmtAB48) eotf maxNits px)
  else if isRgb16f fmt then bytes32 (rgb16fPixel (fmt = fmtXB4H ∨ fmt = fmtAB4H) px)
  else px

/-- The two tests of the tone map tell the 10-bit formats apart from the rest. -/
theorem isAr30_iff {fmt : UInt32} : isAr30 fmt ↔
    ¬ (¬ (decide (fmt = fmtXR30 ∨ fmt = fmtAR30)) = true ∧
      ¬ (decide (fmt = fmtXB30 ∨ fmt = fmtAB30)) = true) := by
  simp only [isAr30, decide_eq_true_eq]
  tauto

section Converters
variable {h : Heap} {src dst : Slice} {width height srcStride dstStride : ℕ}

theorem convertWide_drawn (hb : Buffers h src dst 8 width height srcStride dstStride)
    (hz : ¬ (width = 0 ∨ height = 0)) (hlt : srcStride < 2 ^ 32) (pixel : List UInt8 → UInt32) :
    ∃ h', convertWide pixel (some src) (some dst) width height srcStride dstStride h =
        some (0, h') ∧
      Drawn h h' dst dstStride 4 width height fun x y =>
        bytes32 (pixel (bytesAt h src (y * srcStride + 8 * x) 8)) := by
  have hs := hb.srcRow
  have hd := hb.dstRow
  obtain ⟨h', he, hf⟩ := convertRows_drawn hb pixel (fun _ _ => rfl) (fun _ _ => rfl)
  refine ⟨h', ?_, hf⟩
  simp only [convertWide, hz, if_false]
  rw [if_neg (by omega), he]
  rfl

theorem convertWide_refused (hz : ¬ (width = 0 ∨ height = 0)) (hs : srcStride < 8 * width)
    (pixel : List UInt8 → UInt32) :
    convertWide pixel (some src) (some dst) width height srcStride dstStride h =
      some (-EINVAL, h) := by
  simp only [convertWide, hz, if_false]
  rw [if_pos (by omega)]

theorem drmtapTonemapHdr10_drawn (hb : Buffers h src dst 4 width height srcStride dstStride)
    (hz : ¬ (width = 0 ∨ height = 0)) (hlt : srcStride < 2 ^ 32) {fmt : UInt32}
    (hfmt : isAr30 fmt) (maxNits : UInt32) :
    ∃ h', drmtapTonemapHdr10 (some src) (some dst) width height srcStride dstStride fmt maxNits h =
        some (0, h') ∧
      Drawn h h' dst dstStride 4 width height fun x y => bytes32
        (hdr10Pixel (fmt = fmtXB30 ∨ fmt = fmtAB30) maxNits
          (word32 (bytesAt h src (y * srcStride + 4 * x) 4))) := by
  have hs := hb.srcRow
  have hd := hb.dstRow
  obtain ⟨h', he, hf⟩ := convertRows_drawn hb
    (fun px => hdr10Pixel (fmt = fmtXB30 ∨ fmt = fmtAB30) maxNits (word32 px))
    (fun _ _ => rfl) (fun _ _ => rfl)
  refine ⟨h', ?_, hf⟩
  simp only [drmtapTonemapHdr10, hz, if_false]
  rw [if_neg (isAr30_iff.mp hfmt), if_neg (by omega), he]
  rfl

theorem drmtapConvertFormat_drawn (hb : Buffers h src dst 4 width height srcStride dstStride)
    (hz : ¬ (width = 0 ∨ height = 0)) {fmt : UInt32} (hfmt : isAr30 fmt) :
    ∃ h', drmtapConvertFormat id (some src) (some dst) width height srcStride dstStride fmt
        fmtXR24 h = some (0, h') ∧
      Drawn h h' dst dstStride 4 width height fun x y => bytes32
        (ar30Pixel (fmt = fmtXB30 ∨ fmt = fmtAB30)
          (word32 (bytesAt h src (y * srcStride + 4 * x) 4))) := by
  have hs := hb.srcRow
  have hd := hb.dstRow
  obtain ⟨h', he, hf⟩ := convertRows_drawn hb
    (fun px => ar30Pixel (fmt = fmtXB30 ∨ fmt = fmtAB30) (word32 px))
    (fun _ _ => rfl) (fun _ _ => rfl)
  refine ⟨h', ?_, hf⟩
  simp only [isAr30, decide_eq_true_eq] at hfmt
  have hne : fmt ≠ fmtXR24 := by
    rintro rfl
    revert hfmt
    decide
  simp only [drmtapConvertFormat, hz, if_false]
  rw [if_neg (by omega), if_neg hne, if_pos ⟨hfmt, .inl trivial⟩]
  exact congrArg (Option.map _) he

theorem drmtapTonemapHdr10_refused (hz : ¬ (width = 0 ∨ height = 0))
    (hs : srcStride < 4 * width) {fmt : UInt32} (hfmt : isAr30 fmt) (maxNits : UInt32) :
    drmtapTonemapHdr10 (some src) (some dst) width height srcStride dstStride fmt maxNits h =
      some (-EINVAL, h) := by
  simp only [drmtapTonemapHdr10, hz, if_false]
  rw [if_neg (isAr30_iff.mp hfmt), if_pos (by omega)]

theorem drmtapConvertFormat_refused (hz : ¬ (width = 0 ∨ height = 0))
    (hs : srcStride < 4 * width) (fmt fmt' : UInt32) :
    drmtapConvertFormat id (some src) (some dst) width height srcStride dstStride fmt fmt' h =
      some (-EINVAL, h) := by
  simp only [drmtapConvertFormat, hz, if_false]
  rw [if_pos (by omega)]

end Converters

end Drmtap
