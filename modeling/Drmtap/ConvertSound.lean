import Drmtap.ConvertSucceeds

/-! What a consumer may rely on when `drmtap_convert_dmabuf` returns 0, against the layouts
the modifiers name, and the bounds the pipeline keeps on descriptors nobody has checked. -/
namespace Drmtap

open Memory Effect

/-! The layouts that pixel_convert.c documents. -/

/-- Tiles of `width` bytes by `height` rows, left to right and then top to bottom. -/
structure Tiling where
  width : ℕ
  height : ℕ
  inTile : ℕ → ℕ → ℕ

def xTiling : Tiling := ⟨512, 8, fun b y => y * 512 + b⟩

/-- Inside a tile, columns of 16 bytes. -/
def yTiling : Tiling := ⟨128, 32, fun b y => b / 16 * (16 * 32) + y * 16 + b % 16⟩

/-- Where byte `b` of row `y` is. -/
def Tiling.place (t : Tiling) (pitch b y : ℕ) : ℕ :=
  (y / t.height * ((pitch + t.width - 1) / t.width) + b / t.width) * (t.width * t.height) +
    t.inTile (b % t.width) (y % t.height)

inductive Layout where
  | rows
  | tiles (t : Tiling)

def Layout.place : Layout → ℕ → ℕ → ℕ → ℕ
  | .rows, pitch, b, y => y * pitch + b
  | .tiles t, pitch, b, y => t.place pitch b y

/-- The layout a modifier names. -/
def layoutOf (modifier : UInt64) : Option Layout :=
  if modifier = drmFormatModLinear ∨ modifier = drmFormatModInvalid then some .rows
  else if modifier = i915FormatModXTiled then some (.tiles xTiling)
  else if modifier = i915FormatModYTiled ∨ modifier = i915FormatModYfTiled then
    some (.tiles yTiling)
  else none

theorem layoutOf_rows {modifier : UInt64} (h : RowMajor modifier) :
    layoutOf modifier = some .rows :=
  if_pos h

theorem intelXTiledOffset_eq :
    intelXTiledOffset id = fun pitch x y => xTiling.place pitch (4 * x) y := by
  funext pitch x y
  simp [intelXTiledOffset, intelXTileWidth, intelXTileHeight, Tiling.place, xTiling,
    Nat.mul_comm x 4, Nat.add_assoc]

theorem intelYTiledOffset_eq :
    intelYTiledOffset id = fun pitch x y => yTiling.place pitch (4 * x) y := by
  funext pitch x y
  simp [intelYTiledOffset, intelYTileWidth, intelYTileHeight, intelYOword, Tiling.place, yTiling,
    Nat.mul_comm x 4, Nat.add_assoc]

/-- The CPU reads 4-byte pixels from where they are in the layout of a modifier that names one. -/
theorem cpuOffset_eq {modifier : UInt64} {l : Layout} (h : layoutOf modifier = some l) :
    cpuOffset modifier = some fun pitch x y => l.place pitch (4 * x) y := by
  unfold layoutOf at h
  split at h
  next hl =>
    obtain rfl := Option.some.inj h
    rcases hl with hl | hl <;> subst hl <;> rfl
  · split at h
    next hx =>
      obtain rfl := Option.some.inj h
      subst hx
      exact congrArg some intelXTiledOffset_eq
    · split at h
      next hy =>
        obtain rfl := Option.some.inj h
        rcases hy with hy | hy <;> subst hy <;> exact congrArg some intelYTiledOffset_eq
      · cases h

/-! The image of a descriptor, as the claims of the header describe it. -/

def Is8Bit (fmt : UInt32) : Prop :=
  fmt = fmtXR24 ∨ fmt = fmtAR24 ∨ fmt = fmtXB24 ∨ fmt = fmtAB24

/-- The formats the pipeline knows. -/
def PipelineFormat (fmt : UInt32) : Prop := Is8Bit fmt ∨ NeedsReduction fmt

theorem Is8Bit.not_reduced {fmt : UInt32} (h : Is8Bit fmt) : ¬ NeedsReduction fmt := by
  rcases h with rfl | rfl | rfl | rfl <;> decide

/-- Source pixel `(x, y)` in its layout, zero where the buffer does not back it. -/
def DmabufDesc.pixel (desc : DmabufDesc) (buf : DmaBuf) (l : Layout) (x y : ℕ) : List UInt8 :=
  let off := l.place desc.pitch (bytesPerPixel desc.format * x) y
  if off + bytesPerPixel desc.format ≤ desc.height.toNat * desc.pitch then
    buf.bytes ((desc.offsets 0).toNat + off) (bytesPerPixel desc.format)
  else List.replicate (bytesPerPixel desc.format) 0

/-- The frame holds the decoded 8-bit image of the descriptor. -/
structure Decoded (desc : DmabufDesc) (buf : DmaBuf) (frame : FrameInfo) (h : Heap) : Prop where
  format : Is8Bit frame.format
  pixels : ∃ l out, layoutOf desc.modifier = some l ∧ frame.data = some out ∧
    ∀ y < desc.height.toNat, ∀ x < desc.width.toNat,
      h.load out (y * frame.stride.toNat + 4 * x) 4 =
        some (to8Bit desc.format desc.hdrEotf desc.hdrMaxNits (desc.pixel buf l x y))

section Claims
variable {egl : Prop} {desc : DmabufDesc} {buf : DmaBuf} {m : Machine} {frame : FrameInfo}

theorem Shows.load {h : Heap} {out : Slice} {stride width height : ℕ} {pic : ℕ → ℕ → List UInt8}
    (hs : Shows h out stride width height pic) (hl : h.Live out) (hw : 4 * width ≤ stride)
    (hlen : height * stride ≤ out.len) {x y : ℕ} (hx : x < width) (hy : y < height) :
    h.load out (y * stride + 4 * x) 4 = some (pic x y) := by
  have hrow := row_end_le stride hy
  have hcell := cell_end_le 4 hx
  rw [Heap.load_eq hl (by omega), ← hs y hy x hx]
  rfl

/-- A reduced format with 4-byte pixels is a 10-bit one. -/
theorem isAr30_of_four {fmt : UInt32} (h4 : bytesPerPixel fmt = 4) (hr : NeedsReduction fmt) :
    isAr30 fmt = true := by
  unfold bytesPerPixel at h4
  by_cases hw : isRgb16 fmt ∨ isRgb16f fmt
  · simp [hw] at h4
  · exact hr.resolve_right hw

/-- On the CPU everything is decoded but a tiled 8-byte format and a modifier that names no
layout. -/
theorem Converted.decoded {driver : String} (hf : PipelineFormat desc.format)
    (hwide : ¬ RowMajor desc.modifier →
      bytesPerPixel desc.format = 4 ∧ layoutOf desc.modifier ≠ none)
    (hc : Converted driver desc buf frame m) : Decoded desc buf frame m.heap := by
  cases hc with
  | @linear _ out ha hl hw hout hpic =>
    obtain ⟨-, hb, -⟩ := checkDesc_eq_zero.mp ha.check
    have hfour : (desc.width * 4).toNat = 4 * desc.width.toNat := mul_four_toNat hb.width_le
    refine ⟨?_, .rows, out, layoutOf_rows hl, rfl, fun y hy x hx => ?_⟩
    · dsimp only
      split
      · exact .inl rfl
      next h => exact hf.resolve_right h
    · have hrow := row_end_le desc.pitch hy
      have hcell := cell_end_le (bytesPerPixel desc.format) hx
      have hin : Layout.place .rows desc.pitch (bytesPerPixel desc.format * x) y +
          bytesPerPixel desc.format ≤ desc.height.toNat * desc.pitch := by
        change y * desc.pitch + bytesPerPixel desc.format * x + _ ≤ _
        omega
      rw [hfour, hpic.load hout.2.1 le_rfl (by rw [hout.1]; nlinarith) hx hy, DmabufDesc.pixel,
        if_pos hin]
      rfl
  | @tiled _ out off ha hl hdrv hoff hout hpic =>
    obtain ⟨hbpp, hnamed⟩ := hwide hl
    obtain ⟨l, hl'⟩ := Option.ne_none_iff_exists'.mp hnamed
    obtain rfl := Option.some.inj (hoff.symm.trans (cpuOffset_eq hl'))
    refine ⟨?_, l, out, hl', rfl, fun y hy x hx => ?_⟩
    · dsimp only
      split
      · exact .inl rfl
      next h =>
        exact hf.resolve_right fun hr => h (isAr30_of_four hbpp hr)
    · have hlen : desc.height.toNat * desc.pitch ≤ out.len := by
        rw [hout.1, Nat.mul_comm]
      refine (hpic.load hout.2.1 ha.row_fits hlen hx hy).trans ?_
      simp only [DmabufDesc.tiledPic, DmabufDesc.pixel, hbpp]
      split
      · rfl
      next h => rw [to8Bit_of_not fun hr => h (isAr30_of_four hbpp hr)]

/-- A tiled 8-byte format keeps its name. -/
theorem Converted.not_decoded {driver : String} (hl : ¬ RowMajor desc.modifier)
    (hwide : bytesPerPixel desc.format ≠ 4) (hc : Converted driver desc buf frame m) :
    ¬ Is8Bit frame.format := by
  cases hc with
  | linear ha hl' => exact absurd hl' hl
  | tiled =>
    have h30 : ¬ isAr30 desc.format = true := fun h30 => by
      have := isAr30_not_wide h30
      exact hwide (by simp [bytesPerPixel, this.1, this.2])
    rw [if_neg h30]
    exact fun h8 => hwide (bytesPerPixel_of_not h8.not_reduced)

/-- What a run that returned 0 says of its descriptor. -/
theorem Converted.convertible {m' : Machine} (hc : Converted m.ctx.driverName desc buf frame m')
    (hu : m'.ctx.userOut = m.ctx.userOut) : Convertible m desc buf := by
  have hfit : ∀ {size}, m'.OutFits size → m.OutFits size := fun h u hu' => h u (hu.trans hu')
  cases hc with
  | linear ha hl hw hout => exact ⟨ha, fun _ => ⟨hw, hfit hout.fits⟩, fun h => absurd hl h⟩
  | tiled ha hl hdrv hoff hout =>
    exact ⟨ha, fun h => absurd h hl, fun _ => ⟨hdrv, by simp [hoff], hfit hout.fits⟩⟩

/-- Without an EGL backend a convert that returns 0 hands out the decoded image, for exactly
the descriptors that are not tiled ones the CPU accepts with a format of 8 bytes, or a modifier that
names no layout. -/
theorem drmtapConvertDmabuf_decodes_iff (hm : m.Buffered) (hf : PipelineFormat desc.format) :
    (∀ r m' s', Cmd.Runs (convertEnv False desc buf) (drmtapConvertDmabuf desc frame) m false
        r m' s' → r.1 = 0 → Decoded desc buf r.2 m'.heap) ↔
      ¬ (Convertible m desc buf ∧ ¬ RowMajor desc.modifier ∧
        (bytesPerPixel desc.format = 8 ∨ layoutOf desc.modifier = none)) := by
  constructor
  · intro h hn
    obtain ⟨hc, hl, hbad⟩ := hn
    obtain ⟨r, m', s', hr, h0, hcv⟩ :=
      Cmd.can_iff.mp (drmtapConvertDmabuf_can False hm hc frame false)
    have hd := h r m' s' hr h0
    rcases hbad with h8 | hnone
    · exact hcv.not_decoded hl (by omega) hd.format
    · obtain ⟨l, -, hlayout, -⟩ := hd.pixels
      rw [hnone] at hlayout
      cases hlayout
  · intro h r m' s' hr h0
    obtain ⟨hctx, hres⟩ := Cmd.wp_runs (drmtapConvertDmabuf_spec hm frame) hr
    obtain ⟨-, -, hcv⟩ := (hres.resolve_left fun hneg => hneg.1.ne h0).resolve_left
      fun hgpu => hgpu.2.1
    have hu : m'.ctx.userOut = m.ctx.userOut := hctx.elim Converts.userOut Converts.userOut
    have h4 : bytesPerPixel desc.format = 4 ∨ bytesPerPixel desc.format = 8 := by
      unfold bytesPerPixel
      split <;> simp
    apply hcv.decoded hf
    intro hl
    constructor
    · exact h4.resolve_right fun h8 => h ⟨hcv.convertible hu, hl, .inl h8⟩
    · exact fun hnone => h ⟨hcv.convertible hu, hl, .inr hnone⟩

end Claims

theorem Machine.opened_buffered (driverName : String) : (Machine.opened driverName).Buffered :=
  ⟨by simp [opened, Ctx.opened], by simp [opened, Ctx.opened], by simp [opened, Ctx.opened]⟩

/-- One pixel of a format, in a row of `pitch` bytes at the start of its file. -/
def onePixel (format pitch : UInt32) (modifier : UInt64) : DmabufDesc where
  dmaBufFd := 3
  width := 1
  height := 1
  format := format
  modifier := modifier
  fbId := 1
  numPlanes := 1
  offsets _ := 0
  pitches _ := pitch
  hdrEotf := 0
  hdrMaxNits := 0

theorem onePixel_accepted {format pitch : UInt32} {modifier : UInt64}
    (hc : checkDesc (onePixel format pitch modifier) = 0) (byte : ℕ → UInt8) :
    Accepted (onePixel format pitch modifier) ⟨pitch.toNat, byte⟩ :=
  ⟨hc, show (0 : ℤ) ≤ 3 by decide, ⟨by simp [onePixel, DmabufDesc.pitch],
    fun p h1 hp => absurd hp (by simp [numPlanesOf, onePixel]; omega)⟩⟩

theorem onePixel_convertible {format pitch : UInt32} {modifier : UInt64} (hl : RowMajor modifier)
    (hc : checkDesc (onePixel format pitch modifier) = 0)
    (hw : bytesPerPixel format ≤ pitch.toNat) (byte : ℕ → UInt8) :
    Convertible (.opened "i915") (onePixel format pitch modifier) ⟨pitch.toNat, byte⟩ :=
  ⟨onePixel_accepted hc byte, fun _ => ⟨by simpa [onePixel, DmabufDesc.pitch] using hw, by
      simp [Machine.OutFits, Machine.opened, Ctx.opened]⟩, fun h => absurd hl h⟩

theorem drmtapConvertDmabuf_decodes_linear :
    Cmd.can (convertEnv False (onePixel fmtXR24 4 drmFormatModLinear) ⟨4, fun _ => 7⟩)
      (drmtapConvertDmabuf (onePixel fmtXR24 4 drmFormatModLinear) .cleared)
      (fun r _ _ => r.1 = 0) (.opened "i915") false ∧
    ∀ r m' s', Cmd.Runs (convertEnv False (onePixel fmtXR24 4 drmFormatModLinear) ⟨4, fun _ => 7⟩)
      (drmtapConvertDmabuf (onePixel fmtXR24 4 drmFormatModLinear) .cleared)
      (.opened "i915") false r m' s' → r.1 = 0 →
    Decoded (onePixel fmtXR24 4 drmFormatModLinear) ⟨4, fun _ => 7⟩ r.2 m'.heap := by
  constructor
  · exact Cmd.can_mono (drmtapConvertDmabuf_can False (Machine.opened_buffered _)
      (onePixel_convertible (.inl rfl) (by decide) (by decide) _) .cleared false)
      fun _ _ _ h => h.1
  · exact (drmtapConvertDmabuf_decodes_iff (Machine.opened_buffered _) (.inl (.inl rfl))).mpr
      fun h => h.2.1 (.inl rfl)

/-- An X-tiled pixel of 8 bytes on an Intel device: the convert returns 0 with the source's
own format. -/
theorem drmtapConvertDmabuf_tiled_wide : ¬ ∀ r m' s',
    Cmd.Runs (convertEnv False (onePixel fmtXR48 8 i915FormatModXTiled) ⟨8, fun _ => 7⟩)
      (drmtapConvertDmabuf (onePixel fmtXR48 8 i915FormatModXTiled) .cleared)
      (.opened "i915") false r m' s' → r.1 = 0 →
    Decoded (onePixel fmtXR48 8 i915FormatModXTiled) ⟨8, fun _ => 7⟩ r.2 m'.heap := by
  have hl : ¬ RowMajor i915FormatModXTiled := by
    unfold RowMajor
    decide
  have hx : layoutOf i915FormatModXTiled = some (.tiles xTiling) := rfl
  have hc : Convertible (.opened "i915") (onePixel fmtXR48 8 i915FormatModXTiled)
      ⟨8, fun _ => 7⟩ :=
    ⟨onePixel_accepted (by decide) _, fun h => absurd h hl,
      fun _ => ⟨.inl (by decide), by simp [onePixel, cpuOffset_eq hx], by
        simp [Machine.OutFits, Machine.opened, Ctx.opened]⟩⟩
  intro h
  obtain ⟨r, m', s', hr, h0, hcv⟩ := Cmd.can_iff.mp
    (drmtapConvertDmabuf_can False (Machine.opened_buffered _) hc .cleared false)
  exact hcv.not_decoded hl (by decide) (h r m' s' hr h0).format

/-! Bounds, whoever made the descriptor. -/

section Bounds
variable {u32 : ℕ → ℕ} {frame : FrameInfo} {data : Option Slice} {force : Bool}

theorem reduceLinearToXrgb8888_exact (hu : Exact32 u32)
    (hb : Bounded frame.width.toNat frame.height.toNat frame.stride.toNat) (d : Slice) :
    reduceLinearToXrgb8888 u32 d frame = reduceLinearToXrgb8888 id d frame := by
  have hred : ∀ ctx out, reducePixels u32 ctx d out frame (frame.width * 4) =
      reducePixels id ctx d out frame (frame.width * 4) := fun ctx out =>
    funext (reducePixels_exact ctx hu hb)
  unfold reduceLinearToXrgb8888
  simp only [hred]

theorem cpuDeswizzle_exact (hu : Exact32 u32)
    (hb : Bounded frame.width.toNat frame.height.toNat frame.stride.toNat) (d : Slice) :
    cpuDeswizzle u32 d frame = cpuDeswizzle id d frame := by
  have hred : ∀ (ctx : Ctx) (out : Slice) (data : Option Slice),
      reduceInPlace u32 ctx out { frame with data := data } =
        reduceInPlace id ctx out { frame with data := data } := fun ctx out data =>
    funext (reduceInPlace_exact ctx hu hb)
  have hdes : ∀ out : Slice, drmtapDeswizzle u32 (some d) (some out) frame.width.toNat
      frame.height.toNat frame.stride.toNat frame.stride.toNat frame.modifier
        (frame.stride.toNat * frame.height.toNat) =
      drmtapDeswizzle id (some d) (some out) frame.width.toNat frame.height.toNat
        frame.stride.toNat frame.stride.toNat frame.modifier
        (frame.stride.toNat * frame.height.toNat) := fun out => funext (drmtapDeswizzle_exact hu hb)
  unfold cpuDeswizzle
  simp only [hred, hdes]

/-- No 32-bit computation of the pipeline wraps on a checked frame: arithmetic that is exact
below 2^32 and arbitrary above gives the same program as the natural numbers. -/
theorem gpuAutoProcess_exact (hu : Exact32 u32)
    (hb : Bounded frame.width.toNat frame.height.toNat frame.stride.toNat) :
    gpuAutoProcess u32 data frame force = gpuAutoProcess id data frame force := by
  unfold gpuAutoProcess cpuProcess
  simp only [reduceLinearToXrgb8888_exact hu hb, cpuDeswizzle_exact hu hb]

end Bounds

/-- On a checked frame the pipeline stays inside its source and its destination, and computes
no offset that wraps; a convert maps exactly the interval its descriptor claims, inside the
file, or fails without having mapped anything. -/
theorem cpu_pipeline_in_bounds :
    (∀ (u32 : ℕ → ℕ) (m : Machine) (frame : FrameInfo) (d : Slice) (force : Bool),
      Exact32 u32 → m.Buffered →
      drmtapValidateFbDims frame.width frame.height = 0 →
      validateFbSize frame.stride frame.height = 0 →
      m.heap.Live d → ¬ m.Out d.base → d.len = frame.stride.toNat * frame.height.toNat →
      gpuAutoProcess u32 (some d) frame force = gpuAutoProcess id (some d) frame force ∧
        Cmd.wp (pipeEnv False) (gpuAutoProcess u32 (some d) frame force)
          (fun _ m' _ => Converts m m') m ()) ∧
    ∀ (m : Machine) (desc : DmabufDesc) (buf : DmaBuf) (frame : FrameInfo), m.Buffered →
      Cmd.wp (convertEnv False desc buf) (drmtapConvertDmabuf desc frame)
        (fun r _ mapped => mapped = false → r.1 < 0) m false := by
  constructor
  · intro u32 m frame d force hu hm hdim hsize hd ho hlen
    have hb : Bounded frame.width.toNat frame.height.toNat frame.stride.toNat :=
      checkGeometry_eq_zero.mp ((if_pos hdim).trans hsize)
    have hs : ∀ d', some d = some d' → Source m frame d' := by
      rintro _ ⟨⟩
      exact ⟨hd, ho, by rw [hlen, Nat.mul_comm]⟩
    exact ⟨gpuAutoProcess_exact hu hb,
      Cmd.wp_mono (gpuAutoProcess_spec hu hm hb hs force) fun _ _ _ h => h.1⟩
  · intro m desc buf frame hm
    refine Cmd.wp_mono (drmtapConvertDmabuf_spec hm frame) ?_
    rintro r m' s' ⟨-, hneg | ⟨-, he, -⟩ | ⟨-, hs', -⟩⟩ h
    · exact hneg.1
    · exact he.elim
    · simp [hs'] at h

theorem cpu_pipeline_in_bounds_one :
    (∀ force, Cmd.wp (pipeEnv False)
      (gpuAutoProcess wrap32 (some ⟨0, 4⟩) (frameOfDesc (onePixel fmtXR30 4 0)) force)
      (fun _ m' _ => Converts ⟨.opened "i915" 0, (Heap.empty.alloc 4 fun _ => 7).2⟩ m')
      ⟨.opened "i915" 0, (Heap.empty.alloc 4 fun _ => 7).2⟩ ()) ∧
    Cmd.wp (convertEnv False (onePixel fmtXR30 4 0) ⟨3, fun _ => 7⟩)
      (drmtapConvertDmabuf (onePixel fmtXR30 4 0) .cleared)
      (fun r _ mapped => mapped = false → r.1 < 0) (.opened "i915") false :=
  ⟨fun force => (cpu_pipeline_in_bounds.1 wrap32 _ _ _ force wrap32_exact
      ⟨by simp [Ctx.opened], by simp [Ctx.opened], by simp [Ctx.opened]⟩ (by decide) (by decide)
      (Heap.alloc_live _ _ _) (by simp [Machine.Out, Ctx.opened]) (by decide)).2,
    cpu_pipeline_in_bounds.2 _ _ _ _ (Machine.opened_buffered _)⟩

end Drmtap
