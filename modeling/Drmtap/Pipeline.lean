import Drmtap.AutoProcess
import Drmtap.PixelRaster

/-! What the conversion pipeline does to a frame and to memory. -/
namespace Drmtap

open Memory Effect

/-- The calls of the conversion pipeline. -/
def PipeOp : Op → Prop
  | .malloc _ | .free _ | .eglAvailable | .eglRender _ _ _ _ _ _ _ | .eglReadback _
  | .eglThreadCleanup => True
  | _ => False

/-- `egl` says whether the device has an EGL backend, a static property of it. -/
def PipeAns (egl : Prop) : (o : Op) → Ans o → Prop
  | .eglAvailable, r => r = true ↔ egl
  | _, _ => True

abbrev pipeEnv (egl : Prop) : Env := .only PipeOp (PipeAns egl)

namespace Machine

/-- The blocks a conversion may write: the caller's output buffer and the context's own. -/
def Out (m : Machine) (b : ℕ) : Prop :=
  (∃ u, m.ctx.userOut = some u ∧ u.base = b) ∨ ∃ s, m.ctx.deswizzleBuf = some s ∧ s.base = b

/-- The output buffers are there, and the context's own is the whole of its block. -/
structure Buffered (m : Machine) : Prop where
  user : ∀ u, m.ctx.userOut = some u → m.heap.Live u
  shadow : ∀ s, m.ctx.deswizzleBuf = some s → m.heap.Whole s
  apart : ∀ u s, m.ctx.userOut = some u → m.ctx.deswizzleBuf = some s → u.base ≠ s.base

theorem Buffered.out_lt {m : Machine} (hm : m.Buffered) {b : ℕ} (hb : m.Out b) :
    b < m.heap.next := by
  rcases hb with ⟨u, hu, rfl⟩ | ⟨s, hs, rfl⟩
  · exact (hm.user u hu).lt_next
  · exact (hm.shadow s hs).live.lt_next

end Machine

/-- What the pipeline may do to the machine: replace and write the output buffers. -/
structure Converts (m m' : Machine) : Prop where
  ctx : m'.ctx =
    { m.ctx with
      outGen := m'.ctx.outGen, outSizes := m'.ctx.outSizes, deswizzleBuf := m'.ctx.deswizzleBuf }
  next : m.heap.next ≤ m'.heap.next
  keep : ∀ b < m.heap.next, ¬ m.Out b → m'.heap.block b = m.heap.block b
  out : ∀ b < m.heap.next, m'.Out b → m.Out b
  buffered : m'.Buffered

namespace Converts
variable {m m' m'' : Machine}

theorem refl (hm : m.Buffered) : Converts m m :=
  ⟨rfl, le_rfl, fun _ _ _ => rfl, fun _ _ h => h, hm⟩

theorem trans (h₁ : Converts m m') (h₂ : Converts m' m'') : Converts m m'' where
  ctx := by
    rw [h₂.ctx, h₁.ctx]
  next := h₁.next.trans h₂.next
  keep b hb ho :=
    (h₂.keep b (hb.trans_le h₁.next) fun h => ho (h₁.out b hb h)).trans (h₁.keep b hb ho)
  out b hb ho := h₁.out b hb (h₂.out b (hb.trans_le h₁.next) ho)
  buffered := h₂.buffered

theorem userOut (h : Converts m m') : m'.ctx.userOut = m.ctx.userOut := by rw [h.ctx]

theorem live (h : Converts m m') {s : Slice} (hs : m.heap.Live s) (ho : ¬ m.Out s.base) :
    m'.heap.Live s := by
  obtain ⟨B, hB, hl⟩ := hs
  exact ⟨B, (h.keep _ (Heap.Live.lt_next ⟨B, hB, hl⟩) ho).trans hB, hl⟩

theorem read (h : Converts m m') {b : ℕ} (hb : b < m.heap.next) (ho : ¬ m.Out b) (i : ℕ) :
    m'.heap.read b i = m.heap.read b i := by
  rw [Heap.read, Heap.read, h.keep b hb ho]

/-- Writing into an output buffer. -/
theorem of_filled (hm : m.Buffered) {b : ℕ} (hb : m.Out b) {h : Heap} {A : ℕ → Prop}
    {V : ℕ → UInt8} (hf : Filled m.heap h b A V) : Converts m { m with heap := h } where
  ctx := rfl
  next := hf.next.ge
  keep c _ hc := hf.other c fun he => hc (he ▸ hb)
  out _ _ ho := ho
  buffered :=
    { user := fun u hu => hf.live (hm.user u hu)
      shadow := fun s hs => hf.whole (hm.shadow s hs)
      apart := hm.apart }

end Converts

/-- `out` is the destination `drmtap_ensure_out` resolves for `size` bytes. -/
def Dest (m : Machine) (size : ℕ) (out : Slice) : Prop :=
  out.len = size ∧ m.heap.Live out ∧
    ((∃ u, m.ctx.userOut = some u ∧ u.base = out.base ∧ size ≤ u.len) ∨
      (m.ctx.userOut = none ∧ ∃ s, m.ctx.deswizzleBuf = some s ∧ s.base = out.base))

theorem Dest.out {m : Machine} {size : ℕ} {out : Slice} (hd : Dest m size out) :
    m.Out out.base :=
  hd.2.2.imp (fun ⟨u, hu, hb, _⟩ => ⟨u, hu, hb⟩) And.right

/-- The caller's buffer, if there is one, has room for `size` bytes. -/
def Machine.OutFits (m : Machine) (size : ℕ) : Prop := ∀ u, m.ctx.userOut = some u → size ≤ u.len

theorem Dest.fits {m : Machine} {size : ℕ} {out : Slice} (hd : Dest m size out) :
    m.OutFits size := by
  intro u hu
  rcases hd.2.2 with ⟨u', hu', -, hl⟩ | ⟨hn, -⟩
  · obtain rfl := Option.some.inj (hu.symm.trans hu')
    exact hl
  · exact absurd (hn.symm.trans hu) (by simp)

/-- Everything `drmtap_ensure_buf` can do with a buffer it owns. -/
inductive EnsureBuf (m : Machine) (buf : Option Slice) (size : ℕ) :
    ℤ × Option Slice → Machine → Prop where
  | refused {e} (he : e < 0) : EnsureBuf m buf size (e, buf) m
  | kept {b} (hb : buf = some b) (hl : size ≤ b.len) : EnsureBuf m buf size (0, some b) m
  | lost : EnsureBuf m buf size (-ENOMEM, none) { m with heap := m.heap.without buf }
  | fresh (g : ℕ → UInt8) : EnsureBuf m buf size
      (0, some ((m.heap.without buf).alloc size g).1)
      { m with heap := ((m.heap.without buf).alloc size g).2 }

theorem drmtapEnsureBuf_spec {egl : Prop} {m : Machine} {buf : Option Slice}
    (hb : ∀ b, buf = some b → m.heap.Whole b) (size : ℕ) :
    Cmd.wp (pipeEnv egl) (drmtapEnsureBuf buf size) (fun r m' _ => EnsureBuf m buf size r m' ∧
      (r.1 = 0 → 0 < size ∧ size ≤ drmtapMaxFbBytes)) m () := by
  have hneg : ∀ {e : ℤ}, e < 0 → e = 0 → 0 < size ∧ size ≤ drmtapMaxFbBytes := by omega
  have hnone : (-ENOMEM : ℤ) < 0 := by decide
  unfold drmtapEnsureBuf
  simp only [Cmd.wp_ite, Cmd.wp_bind, Cmd.wp_pure]
  refine ⟨fun _ => ⟨.refused (by decide), hneg (by decide)⟩, fun h0 =>
    ⟨fun _ => ⟨.refused (by decide), hneg (by decide)⟩, fun hmax => ⟨fun hk => ?_, fun _ => ?_⟩⟩⟩
  · cases buf with
    | none => cases hk
    | some b => exact ⟨.kept rfl (by simpa using hk), fun _ => by omega⟩
  · cases buf with
    | none =>
      simp only [freeBuf, Cmd.wp_pure, wp_malloc]
      exact ⟨trivial, fun _ _ => ⟨.lost, hneg hnone⟩, fun g _ _ => ⟨.fresh g, fun _ => by omega⟩⟩
    | some b =>
      simp only [freeBuf, wp_free, wp_malloc]
      exact ⟨trivial, fun _ _ _ => ⟨_, (hb b rfl).free, trivial,
        fun _ _ => ⟨.lost, hneg hnone⟩, fun g _ _ => ⟨.fresh g, fun _ => by omega⟩⟩⟩

/-- Without a buffer of the caller's, the context's own may be replaced. -/
theorem Converts.of_replaced {m : Machine} {size : ℕ} (hu : m.ctx.userOut = none) {h : Heap}
    {buf : Option Slice} (hn : m.heap.next ≤ h.next)
    (hk : ∀ b < m.heap.next, (∀ s, m.ctx.deswizzleBuf = some s → b ≠ s.base) →
      h.block b = m.heap.block b)
    (hb : ∀ s, buf = some s → h.Whole s ∧
      (m.ctx.deswizzleBuf = some s ∨ m.heap.next ≤ s.base)) :
    Converts m { ctx := (m.ctx.bumpOutGen size).setShadow buf, heap := h } where
  ctx := rfl
  next := hn
  keep b hlt ho := hk b hlt fun s hs he => ho (.inr ⟨s, hs, he.symm⟩)
  out b hlt ho := by
    rcases ho with ⟨u, hu', -⟩ | ⟨s, hs, rfl⟩
    · exact absurd (hu.symm.trans hu') (by simp)
    · exact .inr ⟨s, (hb s hs).2.resolve_right (by omega), rfl⟩
  buffered :=
    { user := fun u hu' => absurd (hu.symm.trans hu') (by simp)
      shadow := fun s hs => (hb s hs).1
      apart := fun u s hu' => absurd (hu.symm.trans hu') (by simp) }

theorem Converts.bump {m : Machine} (hm : m.Buffered) (size : ℕ) :
    Converts m { m with ctx := m.ctx.bumpOutGen size } :=
  ⟨rfl, le_rfl, fun _ _ _ => rfl, fun _ _ h => h, hm.user, hm.shadow, hm.apart⟩

theorem drmtapEnsureOut_spec {egl : Prop} {m : Machine} (hm : m.Buffered) (size : ℕ) :
    Cmd.wp (pipeEnv egl) (drmtapEnsureOut size) (fun r m' _ => Converts m m' ∧
      match r with
      | .ok out => Dest m' size out ∧ 0 < size ∧ size ≤ drmtapMaxFbBytes
      | .error e => e < 0) m () := by
  have hbump := Converts.bump hm size
  unfold drmtapEnsureOut
  simp only [Cmd.wp_ite, Cmd.wp_bind, Cmd.wp_pure, wp_modifyCtx, wp_getCtx]
  refine ⟨fun _ => ⟨.refl hm, by decide⟩, fun h0 => ⟨fun _ => ⟨hbump, by decide⟩, fun hmax => ?_⟩⟩
  split
  next u hu =>
    simp only [Cmd.wp_ite, Cmd.wp_pure]
    refine ⟨fun _ => ⟨hbump, by decide⟩, fun hlen => ⟨hbump, ⟨rfl, ?_, ?_⟩, by omega, by omega⟩⟩
    · exact (hm.user u hu).mono (by omega)
    · exact .inl ⟨u, hu, rfl, not_lt.mp hlen⟩
  next hu =>
    simp only [Cmd.wp_bind, wp_modifyCtx]
    refine Cmd.wp_mono (drmtapEnsureBuf_spec hbump.buffered.shadow size) ?_
    rintro r m' - ⟨hr, hz⟩
    have hsame : ∀ buf, (∀ s, buf = some s → m.ctx.deswizzleBuf = some s) →
        Converts m { ctx := (m.ctx.bumpOutGen size).setShadow buf, heap := m.heap } := fun buf hb =>
      Converts.of_replaced hu le_rfl (fun _ _ _ => rfl) fun s hs =>
        ⟨hm.shadow s (hb s hs), .inl (hb s hs)⟩
    cases hr with
    | refused he =>
      split
      · rw [if_pos he.ne]
        exact ⟨hsame _ fun _ h => h, he⟩
      · exact ⟨hsame _ fun _ h => h, he⟩
    | @kept b hb hl =>
      simp only [ne_eq, not_true_eq_false, if_false, Cmd.wp_pure]
      refine ⟨hsame (some b) ?_, ⟨rfl, (hm.shadow b hb).live.mono hl, .inr ⟨hu, b, rfl, rfl⟩⟩, hz rfl⟩
      rintro _ ⟨⟩
      exact hb
    | lost =>
      refine ⟨Converts.of_replaced hu ?_ (fun b _ hb => Heap.without_block hb) (by simp), ?_⟩
      · exact (Heap.without_next m.heap _).symm.le
      · exact show (-ENOMEM : ℤ) < 0 by decide
    | fresh g =>
      simp only [ne_eq, not_true_eq_false, if_false, Cmd.wp_pure]
      refine ⟨Converts.of_replaced hu ?_ (fun b hlt hb => ?_) ?_,
        ⟨rfl, Heap.alloc_live _ _ _, .inr ⟨hu, _, rfl, rfl⟩⟩, hz rfl⟩
      · exact (Heap.without_next m.heap _).symm.le.trans (Nat.le_succ _)
      · exact (Heap.alloc_block_of_lt (by simpa using hlt) _ _).trans (Heap.without_block hb)
      · intro s hs
        obtain rfl := Option.some.inj hs
        exact ⟨Heap.alloc_whole _ _ _, .inr (Heap.without_next m.heap _).symm.le⟩

/-! The converters, on a checked frame. -/

theorem drmtapValidateFbDims_eq_zero {width height : UInt32} :
    drmtapValidateFbDims width height = 0 ↔ 0 < width.toNat ∧ 0 < height.toNat ∧
      width.toNat ≤ drmtapMaxDim ∧ height.toNat ≤ drmtapMaxDim ∧
      width.toNat * height.toNat ≤ drmtapMaxFbBytes / 4 := by
  have hinval : ¬ (-EINVAL : ℤ) = 0 := by decide
  have hbig : ¬ (-EFBIG : ℤ) = 0 := by decide
  have hz : ∀ a : UInt32, a = 0 ↔ a.toNat = 0 := fun a => (UInt32.toNat_inj (b := 0)).symm
  unfold drmtapValidateFbDims
  simp only [hz]
  split_ifs <;> simp only [hinval, hbig, false_iff, true_iff] <;> omega

theorem validateFbSize_eq_zero {stride height : UInt32} :
    validateFbSize stride height = 0 ↔ 0 < stride.toNat ∧ 0 < height.toNat ∧
      height.toNat * stride.toNat ≤ drmtapMaxFbBytes := by
  have hinval : ¬ (-EINVAL : ℤ) = 0 := by decide
  have hbig : ¬ (-EFBIG : ℤ) = 0 := by decide
  have hz : ∀ a : UInt32, a = 0 ↔ a.toNat = 0 := fun a => (UInt32.toNat_inj (b := 0)).symm
  unfold validateFbSize
  simp only [hz]
  split_ifs with h0 h1
  · simp only [hinval, false_iff]
    omega
  · simp only [hbig, false_iff]
    rw [Nat.div_lt_iff_lt_mul (by omega)] at h1
    omega
  · rw [Nat.div_lt_iff_lt_mul (by omega)] at h1
    simp only [true_iff]
    omega

theorem checkGeometry_eq_zero {width height stride : UInt32} :
    checkGeometry width height stride = 0 ↔ Bounded width.toNat height.toNat stride.toNat := by
  have hmax : drmtapMaxFbBytes / 4 * 4 = drmtapMaxFbBytes := by decide
  unfold checkGeometry
  split
  next hd =>
    obtain ⟨hw, hh, hw', hh', hp⟩ := drmtapValidateFbDims_eq_zero.mp hd
    rw [validateFbSize_eq_zero]
    exact ⟨fun ⟨hs, _, hb⟩ => ⟨hw, hh, hs, hw', hh', by omega, hb⟩,
      fun hb => ⟨hb.stride_pos, hb.height_pos, hb.bytes⟩⟩
  next hd =>
    refine ⟨fun h => absurd h hd, fun hb => absurd (drmtapValidateFbDims_eq_zero.mpr ?_) hd⟩
    have := hb.pixels
    exact ⟨hb.width_pos, hb.height_pos, hb.width_le, hb.height_le, by omega⟩

theorem checkGeometry_nonpos (width height stride : UInt32) :
    checkGeometry width height stride ≤ 0 := by
  unfold checkGeometry drmtapValidateFbDims validateFbSize
  split_ifs <;> decide

theorem Bounded.nonzero {w h s : ℕ} (hb : Bounded w h s) : ¬ (w = 0 ∨ h = 0) := by
  have := hb.width_pos
  have := hb.height_pos
  omega

theorem mul_four_toNat {w : UInt32} (hw : w.toNat ≤ drmtapMaxDim) :
    (w * 4).toNat = 4 * w.toNat := by
  have : drmtapMaxDim = 32768 := rfl
  rw [UInt32.toNat_mul]
  simp
  omega

theorem Bounded.stride_lt {w h s : ℕ} (hb : Bounded w h s) : s < 2 ^ 32 :=
  hb.stride_le.trans_lt (by decide)

section Frames
variable (ctx : Ctx) {frame : FrameInfo} {data out : Slice} {h : Heap}

/-- Room for the tight 4-byte form of a checked frame, apart from its source. -/
structure Room (h : Heap) (frame : FrameInfo) (data out : Slice) : Prop where
  dataLive : h.Live data
  outLive : h.Live out
  apart : data.base ≠ out.base
  dataLen : frame.height.toNat * frame.stride.toNat ≤ data.len

theorem reducePixels_exact {u32 : ℕ → ℕ} (hu : Exact32 u32)
    (hb : Bounded frame.width.toNat frame.height.toNat frame.stride.toNat) (h : Heap) :
    reducePixels u32 ctx data out frame (frame.width * 4) h =
      reducePixels id ctx data out frame (frame.width * 4) h := by
  have hd : frame.height.toNat * (frame.width * 4).toNat < 2 ^ 32 := by
    have hp := hb.pixels
    have : drmtapMaxFbBytes < 2 ^ 32 := by decide
    rw [mul_four_toNat hb.width_le]
    nlinarith
  unfold reducePixels
  split_ifs
  · rfl
  · exact drmtapConvertFormat_exact hu (UInt32.toNat_lt _) (fun y hy => mul_lt_of_row hy hb.bytes_lt)
      (fun y hy => mul_lt_of_row hy hd) h
  · rfl
  · rfl

/-- The reduction of a linear frame: the 8-bit picture, unless a row of the source is shorter
than its pixels. -/
theorem reducePixels_spec {u32 : ℕ → ℕ} (hu : Exact32 u32)
    (hb : Bounded frame.width.toNat frame.height.toNat frame.stride.toNat)
    (hr : Room h frame data out) (hout : frame.width.toNat * frame.height.toNat * 4 ≤ out.len)
    (hfmt : isAr30 frame.format ∨ isRgb16 frame.format ∨ isRgb16f frame.format) :
    (frame.stride.toNat < bytesPerPixel frame.format * frame.width.toNat ∧
      reducePixels u32 ctx data out frame (frame.width * 4) h = some (-EINVAL, h)) ∨
    ∃ h', reducePixels u32 ctx data out frame (frame.width * 4) h = some (0, h') ∧
      bytesPerPixel frame.format * frame.width.toNat ≤ frame.stride.toNat ∧
      Drawn h h' out (4 * frame.width.toNat) 4 frame.width.toNat frame.height.toNat fun x y =>
        to8Bit frame.format ctx.curHdrEotf ctx.curHdrMaxNits
          (bytesAt h data (y * frame.stride.toNat + bytesPerPixel frame.format * x)
            (bytesPerPixel frame.format)) := by
  rw [reducePixels_exact ctx hu hb]
  have hz := hb.nonzero
  have hd : (frame.width * 4).toNat = 4 * frame.width.toNat := mul_four_toNat hb.width_le
  have hfit : frame.height.toNat * (frame.width * 4).toNat ≤ out.len := by
    rw [hd]
    nlinarith
  have hbuf (unit : ℕ) (hu : unit * frame.width.toNat ≤ frame.stride.toNat) :
      Buffers h data out unit frame.width.toNat frame.height.toNat frame.stride.toNat
        (frame.width * 4).toNat :=
    ⟨hr.dataLive, hr.outLive, hu, hd.ge, hr.dataLen, hfit, fun he => absurd he hr.apart⟩
  unfold reducePixels to8Bit bytesPerPixel
  rw [← hd]
  by_cases h30 : isAr30 frame.format
  · have hw := isAr30_not_wide h30
    simp only [h30, hw.1, hw.2, or_self, Bool.false_eq_true, ↓reduceIte]
    rcases Nat.lt_or_ge frame.stride.toNat (4 * frame.width.toNat) with hs | hs
    · refine .inl ⟨hs, ?_⟩
      split_ifs
      · exact drmtapTonemapHdr10_refused hz hs h30 _
      · exact drmtapConvertFormat_refused hz hs _ _
    · split_ifs
      · obtain ⟨h', he, hf⟩ := drmtapTonemapHdr10_drawn (hbuf 4 hs) hz hb.stride_lt h30
          ctx.curHdrMaxNits
        exact .inr ⟨h', he, hs, hf⟩
      · obtain ⟨h', he, hf⟩ := drmtapConvertFormat_drawn (hbuf 4 hs) hz h30
        exact .inr ⟨h', he, hs, hf⟩
  · have hwide : isRgb16 frame.format ∨ isRgb16f frame.format := hfmt.resolve_left h30
    simp only [h30, hwide, Bool.false_eq_true, ↓reduceIte]
    rcases Nat.lt_or_ge frame.stride.toNat (8 * frame.width.toNat) with hs | hs
    · refine .inl ⟨hs, ?_⟩
      split_ifs
      · exact convertWide_refused hz hs _
      · exact convertWide_refused hz hs _
    · by_cases h16 : isRgb16 frame.format
      · simp only [h16, ↓reduceIte]
        obtain ⟨h', he, hf⟩ := convertWide_drawn (hbuf 8 hs) hz hb.stride_lt _
        exact .inr ⟨h', he, hs, hf⟩
      · have h16f := hwide.resolve_left h16
        simp only [h16, h16f, Bool.false_eq_true, ↓reduceIte]
        obtain ⟨h', he, hf⟩ := convertWide_drawn (hbuf 8 hs) hz hb.stride_lt _
        exact .inr ⟨h', he, hs, hf⟩

theorem reduceInPlace_exact {u32 : ℕ → ℕ} (hu : Exact32 u32)
    (hb : Bounded frame.width.toNat frame.height.toNat frame.stride.toNat) (h : Heap) :
    reduceInPlace u32 ctx out frame h = reduceInPlace id ctx out frame h := by
  unfold reduceInPlace
  split_ifs
  · rfl
  · have hrows : ∀ y < frame.height.toNat, y * frame.stride.toNat < 2 ^ 32 :=
      fun y hy => mul_lt_of_row hy hb.bytes_lt
    exact drmtapConvertFormat_exact hu (UInt32.toNat_lt _) hrows hrows h

theorem reduceInPlace_spec {u32 : ℕ → ℕ} (hu : Exact32 u32)
    (hb : Bounded frame.width.toNat frame.height.toNat frame.stride.toNat) (hout : h.Live out)
    (hlen : frame.height.toNat * frame.stride.toNat ≤ out.len)
    (hw : 4 * frame.width.toNat ≤ frame.stride.toNat) (h30 : isAr30 frame.format) :
    ∃ h', reduceInPlace u32 ctx out frame h = some (0, h') ∧
      Drawn h h' out frame.stride.toNat 4 frame.width.toNat frame.height.toNat fun x y =>
        to8Bit frame.format ctx.curHdrEotf ctx.curHdrMaxNits
          (bytesAt h out (y * frame.stride.toNat + 4 * x) 4) := by
  rw [reduceInPlace_exact ctx hu hb]
  have hbuf : Buffers h out out 4 frame.width.toNat frame.height.toNat frame.stride.toNat
      frame.stride.toNat := ⟨hout, hout, hw, hw, hlen, hlen, fun _ => ⟨rfl, rfl⟩⟩
  unfold reduceInPlace to8Bit
  simp only [h30, ↓reduceIte]
  split_ifs
  · exact drmtapTonemapHdr10_drawn hbuf hb.nonzero hb.stride_lt h30 ctx.curHdrMaxNits
  · exact drmtapConvertFormat_drawn hbuf hb.nonzero h30

end Frames

/-! `gpu_auto_process` -/

def NeedsReduction (fmt : UInt32) : Prop := isAr30 fmt ∨ isRgb16 fmt ∨ isRgb16f fmt

instance (fmt : UInt32) : Decidable (NeedsReduction fmt) := by
  unfold NeedsReduction
  infer_instance

/-- LINEAR, or no modifier at all. -/
def RowMajor (modifier : UInt64) : Prop :=
  modifier = drmFormatModLinear ∨ modifier = drmFormatModInvalid

def DecodesTiles (driver : String) : Prop :=
  drmtapGpuIntelMatch driver ∨ drmtapGpuNvidiaMatch driver ∨ drmtapGpuAmdMatch driver

/-- The pixels of a frame are at `d`, apart from the output buffers. -/
structure Source (m : Machine) (frame : FrameInfo) (d : Slice) : Prop where
  live : m.heap.Live d
  apart : ¬ m.Out d.base
  len : frame.height.toNat * frame.stride.toNat ≤ d.len

/-- The 4-byte pixels of `pic` are at `out`, in rows of `stride` bytes. -/
def Shows (h : Heap) (out : Slice) (stride width height : ℕ) (pic : ℕ → ℕ → List UInt8) : Prop :=
  ∀ y < height, ∀ x < width, bytesAt h out (y * stride + 4 * x) 4 = pic x y

theorem to8Bit_length {fmt eotf maxNits : UInt32} {px : List UInt8}
    (h : NeedsReduction fmt ∨ px.length = 4) : (to8Bit fmt eotf maxNits px).length = 4 := by
  have hn : ¬ NeedsReduction fmt → px.length = 4 := h.resolve_left
  unfold NeedsReduction at hn
  unfold to8Bit
  by_cases h1 : isAr30 fmt
  · simp [h1]
  · by_cases h2 : isRgb16 fmt
    · simp [h1, h2]
    · by_cases h3 : isRgb16f fmt <;> simp_all

/-- The reduced picture of a linear frame at `d`. -/
def linearPic (ctx : Ctx) (h : Heap) (frame : FrameInfo) (d : Slice) (x y : ℕ) : List UInt8 :=
  to8Bit frame.format ctx.curHdrEotf ctx.curHdrMaxNits
    (bytesAt h d (y * frame.stride.toNat + bytesPerPixel frame.format * x)
      (bytesPerPixel frame.format))

/-- The picture the CPU makes of a tiled frame at `d`: 4-byte pixels, of which only the 10-bit
ones are reduced. -/
def tiledPic (ctx : Ctx) (h : Heap) (frame : FrameInfo) (d : Slice) (off : ℕ → ℕ → ℕ → ℕ)
    (x y : ℕ) : List UInt8 :=
  let px := backedBytes h d (frame.height.toNat * frame.stride.toNat)
    (off frame.stride.toNat x y) 4
  if isAr30 frame.format then to8Bit frame.format ctx.curHdrEotf ctx.curHdrMaxNits px else px

/-- What a successful `gpu_auto_process` makes of a frame. -/
inductive Processed (egl : Prop) (m : Machine) (data : Option Slice) (frame : FrameInfo)
    (force : Bool) : FrameInfo → Machine → Prop where
  | idle {m'} (hd : data = none) (hf : force = false)
      (hi : frame.dmaBufFd < 0 ∨ frame.modifier = drmFormatModLinear ∨
        (frame.modifier = drmFormatModInvalid ∧ ¬ egl)) :
      Processed egl m data frame force frame m'
  | passed {m' d} (hd : data = some d) (hf : force = false) (hl : RowMajor frame.modifier)
      (h8 : ¬ NeedsReduction frame.format) : Processed egl m data frame force frame m'
  | reduced {m' d out} (hd : data = some d) (hf : force = false) (hl : RowMajor frame.modifier)
      (hr : NeedsReduction frame.format)
      (hw : bytesPerPixel frame.format * frame.width.toNat ≤ frame.stride.toNat)
      (hout : Dest m' (frame.width.toNat * frame.height.toNat * 4) out)
      (hpic : Shows m'.heap out (4 * frame.width.toNat) frame.width.toNat frame.height.toNat
        (linearPic m.ctx m.heap frame d)) :
      Processed egl m data frame force
        { frame with data := some out, format := fmtXR24, stride := frame.width * 4 } m'
  | untiled {m' d out off} (hd : data = some d) (hf : force = false)
      (hl : ¬ RowMajor frame.modifier) (hdrv : DecodesTiles m.ctx.driverName)
      (hoff : cpuOffset frame.modifier = some off)
      (hw : 4 * frame.width.toNat ≤ frame.stride.toNat)
      (hout : Dest m' (frame.stride.toNat * frame.height.toNat) out)
      (hpic : Shows m'.heap out frame.stride.toNat frame.width.toNat frame.height.toNat
        (tiledPic m.ctx m.heap frame d off)) :
      Processed egl m data frame force
        { frame with data := some out,
                     format := if isAr30 frame.format then fmtXR24 else frame.format } m'
  | gpu {m' out} (he : egl) (hfd : 0 ≤ frame.dmaBufFd)
      (hout : Dest m' (frame.width.toNat * frame.height.toNat * 4) out) :
      Processed egl m data frame force
        { frame with data := some out, format := fmtXR24, stride := frame.width * 4 } m'

theorem Shows.of_drawn {h h' : Heap} {out : Slice} {stride width height : ℕ}
    {pic : ℕ → ℕ → List UInt8} (hd : Drawn h h' out stride 4 width height pic)
    (hw : 4 * width ≤ stride) (hlen : ∀ x y, (pic x y).length = 4) :
    Shows h' out stride width height pic :=
  fun y hy x hx => hd.cell_eq hw hx hy (hlen x y)

theorem linearPic_length {ctx : Ctx} {h : Heap} {frame : FrameInfo} {d : Slice}
    (hr : NeedsReduction frame.format ∨ bytesPerPixel frame.format = 4) (x y : ℕ) :
    (linearPic ctx h frame d x y).length = 4 :=
  to8Bit_length (hr.imp id fun h => by rw [bytesAt_length, h])

theorem tiledPic_length {ctx : Ctx} {h : Heap} {frame : FrameInfo} {d : Slice}
    {off : ℕ → ℕ → ℕ → ℕ} (x y : ℕ) : (tiledPic ctx h frame d off x y).length = 4 := by
  unfold tiledPic
  split
  · exact to8Bit_length (.inr (backedBytes_length _ _ _ _ _))
  · exact backedBytes_length _ _ _ _ _

namespace Converts
variable {m m' : Machine} {frame : FrameInfo} {d : Slice}

theorem source (hc : Converts m m') (hs : Source m frame d) : Source m' frame d :=
  ⟨hc.live hs.live hs.apart, fun ho => hs.apart (hc.out _ hs.live.lt_next ho), hs.len⟩

theorem bytesAt_eq (hc : Converts m m') (hs : Source m frame d) (off n : ℕ) :
    bytesAt m'.heap d off n = bytesAt m.heap d off n := by
  unfold bytesAt
  simp only [hc.read hs.live.lt_next hs.apart]

theorem linearPic_eq (hc : Converts m m') (hs : Source m frame d) :
    linearPic m'.ctx m'.heap frame d = linearPic m.ctx m.heap frame d := by
  funext x y
  rw [linearPic, linearPic, hc.bytesAt_eq hs, hc.ctx]

theorem tiledPic_eq (hc : Converts m m') (hs : Source m frame d) (off : ℕ → ℕ → ℕ → ℕ) :
    tiledPic m'.ctx m'.heap frame d off = tiledPic m.ctx m.heap frame d off := by
  funext x y
  rw [tiledPic, tiledPic, backedBytes, backedBytes, hc.bytesAt_eq hs, hc.ctx]

end Converts

/-- The result is about the pixels the frame had when the call began. -/
theorem Processed.of_converts {egl : Prop} {m m₁ m' : Machine} {data : Option Slice}
    {frame frame' : FrameInfo} {force : Bool} (hp : Processed egl m₁ data frame force frame' m')
    (hc : Converts m m₁) (hs : ∀ d, data = some d → Source m frame d) :
    Processed egl m data frame force frame' m' := by
  cases hp with
  | idle hd hf hi => exact .idle hd hf hi
  | passed hd hf hl h8 => exact .passed hd hf hl h8
  | reduced hd hf hl hr hw hout hpic =>
    exact .reduced hd hf hl hr hw hout (hc.linearPic_eq (hs _ hd) ▸ hpic)
  | untiled hd hf hl hdrv hoff hw hout hpic =>
    refine .untiled hd hf hl ?_ hoff hw hout (hc.tiledPic_eq (hs _ hd) _ ▸ hpic)
    rw [hc.ctx] at hdrv
    exact hdrv
  | gpu he hfd hout => exact .gpu he hfd hout

theorem Dest.of_filled {m : Machine} {size : ℕ} {out : Slice} (hd : Dest m size out) {h : Heap}
    {A : ℕ → Prop} {V : ℕ → UInt8} (hf : Filled m.heap h out.base A V) :
    Dest { m with heap := h } size out :=
  ⟨hd.1, hf.live hd.2.1, hd.2.2⟩

section Process
variable {egl : Prop} {u32 : ℕ → ℕ} {m : Machine} {frame : FrameInfo} {d : Slice}

theorem reduceLinearToXrgb8888_spec (hu : Exact32 u32) (hm : m.Buffered)
    (hb : Bounded frame.width.toNat frame.height.toNat frame.stride.toNat)
    (hs : Source m frame d) (hl : RowMajor frame.modifier) :
    Cmd.wp (pipeEnv egl) (reduceLinearToXrgb8888 u32 d frame) (fun r m' _ => Converts m m' ∧
      (r.1 < 0 ∨ (0 ≤ r.1 ∧ Processed egl m (some d) frame false r.2 m'))) m () := by
  unfold reduceLinearToXrgb8888
  simp only [Cmd.wp_ite, Cmd.wp_bind, Cmd.wp_pure]
  refine ⟨fun h8 => ⟨.refl hm, .inr ⟨le_rfl, .passed rfl rfl hl ?_⟩⟩, fun h8 => ?_⟩
  · unfold NeedsReduction
    tauto
  · have hr : NeedsReduction frame.format := by
      unfold NeedsReduction
      tauto
    refine Cmd.wp_mono (drmtapEnsureOut_spec hm _) ?_
    rintro (e | out) m₁ - ⟨hc, hout⟩
    · exact ⟨hc, .inl hout⟩
    · obtain ⟨hdest, -, -⟩ := hout
      have hs₁ := hc.source hs
      have hroom : Room m₁.heap frame d out :=
        ⟨hs₁.live, hdest.2.1, fun he => hs₁.apart (he ▸ hdest.out), hs₁.len⟩
      simp only [Cmd.wp_bind, wp_getCtx, wp_onHeap, heap_machine, setHeap_machine, Cmd.wp_ite,
        Cmd.wp_pure]
      rcases reducePixels_spec m₁.ctx hu hb hroom hdest.1.ge hr with ⟨-, he⟩ | ⟨h', he, hw, hf⟩
      · exact ⟨_, _, he, fun _ => ⟨hc, .inl (by decide)⟩, fun h => absurd (by decide) h⟩
      · refine ⟨_, _, he, fun h => absurd rfl h, fun _ =>
          ⟨hc.trans (.of_filled hc.buffered hdest.out hf), .inr ⟨by decide, ?_⟩⟩⟩
        refine .reduced rfl rfl hl hr hw (hdest.of_filled hf) ?_
        rw [← hc.linearPic_eq hs]
        exact .of_drawn hf le_rfl (linearPic_length (.inl hr))

/-- The spec of `cpuDeswizzle` -/
theorem cpuDeswizzle_spec (hu : Exact32 u32) (hm : m.Buffered)
    (hb : Bounded frame.width.toNat frame.height.toNat frame.stride.toNat)
    (hs : Source m frame d) (hl : ¬ RowMajor frame.modifier) :
    Cmd.wp (pipeEnv egl) (cpuDeswizzle u32 d frame) (fun r m' _ => Converts m m' ∧
      (r.1 < 0 ∨ (r.1 = 0 ∧ Processed egl m (some d) frame false r.2 m'))) m () := by
  unfold cpuDeswizzle
  simp only [Cmd.wp_bind]
  refine Cmd.wp_mono (drmtapEnsureOut_spec hm _) ?_
  rintro (e | out) m₁ - ⟨hc, hout⟩
  · exact ⟨hc, .inl hout⟩
  · obtain ⟨hdest, -, -⟩ := hout
    have hs₁ := hc.source hs
    have hne : d.base ≠ out.base := fun he => hs₁.apart (he ▸ hdest.out)
    have hlen : frame.height.toNat * frame.stride.toNat ≤ out.len := by
      rw [hdest.1, Nat.mul_comm]
    simp only [Cmd.wp_bind, wp_getCtx, wp_onHeap, heap_machine, setHeap_machine, Cmd.wp_ite,
      Cmd.wp_pure]
    refine ⟨fun hdrv => ?_, fun _ => ⟨hc, .inl (by decide)⟩⟩
    rw [drmtapDeswizzle_exact hu hb, Nat.mul_comm frame.stride.toNat]
    rcases drmtapDeswizzle_spec hb hs₁.live hdest.2.1 hne hs₁.len hlen frame.modifier with
      ⟨-, he⟩ | ⟨-, -, he⟩ | ⟨off, h', hoff, hw, he, hf⟩
    · exact ⟨_, _, he, fun _ => ⟨hc, .inl (by decide)⟩, fun h => absurd (by decide) h⟩
    · exact ⟨_, _, he, fun _ => ⟨hc, .inl (by decide)⟩, fun h => absurd (by decide) h⟩
    · have hdrv' : DecodesTiles m.ctx.driverName := by
        rw [hc.ctx] at hdrv
        exact hdrv
      have hw' : 4 * frame.width.toNat ≤ frame.stride.toNat := by omega
      have hc₂ := hc.trans (.of_filled hc.buffered hdest.out hf)
      have hd₂ := hdest.of_filled hf
      refine ⟨_, _, he, fun h => absurd rfl h, fun _ => ⟨fun h30 => ?_, fun h30 => ⟨hc₂, .inr
        ⟨trivial, ?_⟩⟩⟩⟩
      · obtain ⟨h₃, he₃, hf₃⟩ := reduceInPlace_spec m₁.ctx hu hb hd₂.2.1 hlen hw' h30
        refine ⟨_, _, he₃, fun h => absurd rfl h, fun _ =>
          ⟨hc₂.trans (.of_filled hc₂.buffered hd₂.out hf₃), .inr ⟨trivial, ?_⟩⟩⟩
        have hpic : Shows h₃ out frame.stride.toNat frame.width.toNat frame.height.toNat
            (tiledPic m.ctx m.heap frame d off) := by
          refine .of_drawn (hf.trans (hf₃.congr hw' fun y hy x hx => ?_)) hw' tiledPic_length
          rw [← hc.tiledPic_eq hs, tiledPic, if_pos h30]
          exact congrArg _ (hf.cell_eq hw' hx hy (backedBytes_length _ _ _ _ _))
        have hp : Processed egl m (some d) frame false _ _ :=
          .untiled rfl rfl hl hdrv' hoff hw' (hd₂.of_filled hf₃) hpic
        simpa only [h30, ↓reduceIte] using hp
      · have hpic : Shows h' out frame.stride.toNat frame.width.toNat frame.height.toNat
            (tiledPic m.ctx m.heap frame d off) := by
          refine .of_drawn (hf.congr hw' fun y hy x hx => ?_) hw' tiledPic_length
          rw [← hc.tiledPic_eq hs, tiledPic, if_neg h30]
        have hp : Processed egl m (some d) frame false _ _ :=
          .untiled rfl rfl hl hdrv' hoff hw' hd₂ hpic
        simpa only [h30, Bool.false_eq_true, ↓reduceIte] using hp

/-- A GPU convert that succeeds leaves the frame in the destination it resolved. -/
theorem drmtapGpuEglConvert_spec (hm : m.Buffered) (fd : ℤ) (width height stride format : UInt32)
    (modifier : UInt64) (fbId : UInt32) :
    Cmd.wp (pipeEnv egl) (drmtapGpuEglConvert fd width height stride format modifier fbId)
      (fun r m' _ => Converts m m' ∧
        match r with
        | .ok out => Dest m' (width.toNat * height.toNat * 4) out
        | .error e => e < 0) m () := by
  have hdim : drmtapValidateFbDims width height = 0 ∨ drmtapValidateFbDims width height < 0 := by
    unfold drmtapValidateFbDims
    split_ifs <;> decide
  unfold drmtapGpuEglConvert
  simp only [Cmd.wp_ite, Cmd.wp_bind, Cmd.wp_pure, Cmd.wp_call]
  refine ⟨fun h => ⟨.refl hm, hdim.resolve_left h⟩, fun _ => ⟨trivial, ?_⟩⟩
  rintro (_ | e) _ -
  · simp only [Cmd.wp_bind]
    refine Cmd.wp_mono (drmtapEnsureOut_spec hm _) ?_
    rintro (e | out) m₁ - ⟨hc, hout⟩
    · exact ⟨hc, hout⟩
    · obtain ⟨hdest, -, -⟩ := hout
      simp only [Cmd.wp_bind, Cmd.wp_call]
      refine ⟨trivial, ?_⟩
      rintro (_ | ⟨bytes, err⟩) _ -
      · exact ⟨hc, hdest⟩
      · have hl : 0 + ((List.range (width.toNat * height.toNat * 4)).map bytes).length ≤ out.len := by
          simp [hdest.1]
        obtain ⟨h', he, hf⟩ := Heap.store_filled (V := bytes) hdest.2.1 hl fun i hi => by simp
        have hc' := hc.trans (.of_filled hc.buffered hdest.out hf)
        simp only [Cmd.wp_bind, wp_onHeap, heap_machine, setHeap_machine, Cmd.wp_ite,
          Cmd.wp_pure, Option.map_eq_some_iff]
        exact ⟨(), h', ⟨h', he, rfl⟩, fun _ => ⟨hc', by decide⟩, fun _ => ⟨hc', hdest.of_filled hf⟩⟩
  · have := e.pos
    exact ⟨.refl hm, by simp only [Errno.neg]; omega⟩

theorem eglAttempt_spec (hm : m.Buffered) (data : Option Slice) (force : Bool) :
    Cmd.wp (pipeEnv egl) (eglAttempt frame) (fun r m' _ => Converts m m' ∧
      ∀ r', r = some r' →
        r'.1 < 0 ∨ (r'.1 = 0 ∧ Processed egl m data frame force r'.2 m')) m () := by
  unfold eglAttempt
  simp only [Cmd.wp_ite, Cmd.wp_bind, Cmd.wp_pure, Cmd.wp_call]
  refine ⟨fun hfd => ⟨trivial, fun avail _ hav => ⟨fun ha => ?_, fun _ => ⟨.refl hm, by simp⟩⟩⟩,
    fun _ => ⟨.refl hm, by simp⟩⟩
  refine Cmd.wp_mono (drmtapGpuEglConvert_spec hm _ _ _ _ _ _ _) ?_
  rintro (e | out) m₁ - ⟨hc, hr⟩
  · simp only [Cmd.wp_ite, Cmd.wp_pure]
    refine ⟨fun _ => ⟨hc, ?_⟩, fun _ => ⟨hc, by simp⟩⟩
    rintro _ ⟨⟩
    exact .inl hr
  · refine ⟨hc, ?_⟩
    rintro _ ⟨⟩
    exact .inr ⟨rfl, .gpu (hav.2.mp ha) hfd hr⟩

theorem layoutIsLinear_spec (modifier : UInt64) :
    Cmd.wp (pipeEnv egl) (layoutIsLinear modifier) (fun r m' _ => m' = m ∧
      (r = true ↔ modifier = drmFormatModLinear ∨
        (modifier = drmFormatModInvalid ∧ ¬ egl))) m () := by
  have hne : drmFormatModInvalid ≠ drmFormatModLinear := by decide
  unfold layoutIsLinear
  simp only [Cmd.wp_ite, Cmd.wp_bind, Cmd.wp_pure, Cmd.wp_call]
  refine ⟨fun h => ⟨trivial, by simp [h]⟩, fun h => ⟨fun hi => ⟨trivial, fun avail _ hav =>
    ⟨trivial, ?_⟩⟩, fun hi => ⟨trivial, by simp [h, hi]⟩⟩⟩
  have hav' : avail = true ↔ egl := hav.2
  rw [← hav', Bool.not_eq_true', Bool.not_eq_true, hi]
  simp [hne]

theorem cpuProcess_spec (hu : Exact32 u32) (hm : m.Buffered)
    (hb : Bounded frame.width.toNat frame.height.toNat frame.stride.toNat)
    {data : Option Slice} (hs : ∀ d, data = some d → Source m frame d) (force : Bool)
    (hlin : force = false → frame.modifier ≠ drmFormatModLinear) :
    Cmd.wp (pipeEnv egl) (cpuProcess u32 data frame force) (fun r m' _ => Converts m m' ∧
      (r.1 < 0 ∨ (r.1 = 0 ∧ Processed egl m data frame force r.2 m'))) m () := by
  unfold cpuProcess
  simp only [Cmd.wp_ite, Cmd.wp_pure]
  refine ⟨fun _ => ⟨.refl hm, .inl (by decide)⟩, fun hf => ?_⟩
  obtain rfl : force = false := by simpa using hf
  split
  · exact ⟨.refl hm, .inl (show (-ENOTSUP : ℤ) < 0 by decide)⟩
  next d =>
    simp only [Cmd.wp_ite, Cmd.wp_bind, Cmd.wp_pure]
    refine ⟨fun hi => ?_, fun hi => ?_⟩
    · refine Cmd.wp_mono (reduceLinearToXrgb8888_spec hu hm hb (hs d rfl) (.inr hi)) ?_
      rintro ⟨red, frame'⟩ m' - ⟨hc, hr⟩
      refine ⟨fun hneg => ⟨hc, .inl hneg⟩, fun hneg => ⟨hc, .inr ⟨trivial, ?_⟩⟩⟩
      exact (hr.resolve_left hneg).2
    · exact cpuDeswizzle_spec hu hm hb (hs d rfl) (not_or.mpr ⟨hlin rfl, hi⟩)

/-- The spec of `gpu_auto_process` on a checked frame, with its pixels mapped or not. -/
theorem gpuAutoProcess_spec (hu : Exact32 u32) (hm : m.Buffered)
    (hb : Bounded frame.width.toNat frame.height.toNat frame.stride.toNat)
    {data : Option Slice} (hs : ∀ d, data = some d → Source m frame d) (force : Bool) :
    Cmd.wp (pipeEnv egl) (gpuAutoProcess u32 data frame force) (fun r m' _ => Converts m m' ∧
      (r.1 < 0 ∨ (r.1 = 0 ∧ Processed egl m data frame force r.2 m'))) m () := by
  unfold gpuAutoProcess
  simp only [Cmd.wp_ite, Cmd.wp_bind, Cmd.wp_pure]
  refine ⟨?_, fun _ => ?_⟩
  · rintro ⟨hd, hf, hfd⟩
    obtain rfl : force = false := by simpa using hf
    exact ⟨.refl hm, .inr ⟨trivial, .idle hd rfl (.inl hfd)⟩⟩
  · refine Cmd.wp_mono (layoutIsLinear_spec frame.modifier) ?_
    rintro isLinear m₀ - ⟨rfl, hlin⟩
    refine ⟨?_, fun hnl => ?_⟩
    · rintro ⟨hl, hf⟩
      obtain rfl : force = false := by simpa using hf
      cases data with
      | none => exact ⟨.refl hm, .inr ⟨rfl, .idle rfl rfl (.inr (hlin.mp hl))⟩⟩
      | some d =>
        have hrow : RowMajor frame.modifier := (hlin.mp hl).imp id And.left
        simp only [Cmd.wp_bind, Cmd.wp_ite, Cmd.wp_pure]
        refine Cmd.wp_mono (reduceLinearToXrgb8888_spec hu hm hb (hs d rfl) hrow) ?_
        rintro ⟨red, frame'⟩ m' - ⟨hc, hr⟩
        refine ⟨fun hneg => ⟨hc, .inl hneg⟩, fun hneg => ⟨hc, .inr ⟨trivial, ?_⟩⟩⟩
        exact (hr.resolve_left hneg).2
    · refine Cmd.wp_mono (eglAttempt_spec hm data force) ?_
      rintro (_ | r) m₁ - ⟨hc, hr⟩
      · have hs₁ : ∀ d, data = some d → Source m₁ frame d := fun d hd => hc.source (hs d hd)
        refine Cmd.wp_mono (cpuProcess_spec hu hc.buffered hb hs₁ force fun hf hmod => ?_) ?_
        · exact hnl ⟨hlin.mpr (.inl hmod), by simp [hf]⟩
        · rintro r m₂ - ⟨hc₂, hr₂⟩
          exact ⟨hc.trans hc₂, hr₂.imp id fun h => ⟨h.1, h.2.of_converts hc hs⟩⟩
      · exact ⟨hc, hr r rfl⟩

end Process

/-! What the pipeline leaves of a frame. -/

/-- The frames are of one buffer: all but the pixels, their pitch and their format agree. -/
def FrameInfo.SameBuffer (f f' : FrameInfo) : Prop :=
  f' = { f with data := f'.data, stride := f'.stride, format := f'.format }

theorem FrameInfo.SameBuffer.refl (f : FrameInfo) : f.SameBuffer f := rfl

section Yields
variable {u32 : ℕ → ℕ} {frame : FrameInfo}

theorem reduceLinearToXrgb8888_yields (d : Slice) :
    Cmd.Yields (reduceLinearToXrgb8888 u32 d frame) fun r => frame.SameBuffer r.2 := by
  refine .ite (.pure (.refl frame)) ?_
  apply Cmd.Yields.call_bind
  rintro (e | out)
  · exact .pure rfl
  · exact .call_bind fun _ => .call_bind fun _ => .ite (.pure rfl) (.pure rfl)

theorem eglAttempt_yields :
    Cmd.Yields (eglAttempt frame) fun r => ∀ r', r = some r' → frame.SameBuffer r'.2 := by
  have hnone : ∀ r', (none : Option (ℤ × FrameInfo)) = some r' → frame.SameBuffer r'.2 := by simp
  apply Cmd.Yields.ite
  · apply Cmd.Yields.call_bind
    intro avail
    apply Cmd.Yields.ite
    · apply Cmd.Yields.call_bind
      rintro (e | out)
      · refine .ite (.pure ?_) (.pure hnone)
        rintro _ ⟨⟩
        rfl
      · refine .pure ?_
        rintro _ ⟨⟩
        rfl
    · exact .pure hnone
  · exact .pure hnone

theorem cpuDeswizzle_yields (d : Slice) :
    Cmd.Yields (cpuDeswizzle u32 d frame) fun r => frame.SameBuffer r.2 := by
  apply Cmd.Yields.call_bind
  rintro (e | out)
  · exact .pure rfl
  · refine .call_bind fun ctx => .ite ?_ (.pure rfl)
    refine .call_bind fun ret => .ite (.pure rfl) (.ite ?_ (.pure rfl))
    exact .call_bind fun conv => .ite (.pure rfl) (.pure rfl)

theorem cpuProcess_yields (data : Option Slice) (force : Bool) :
    Cmd.Yields (cpuProcess u32 data frame force) fun r => frame.SameBuffer r.2 := by
  refine .ite (.pure (.refl frame)) ?_
  cases data with
  | none => exact .pure rfl
  | some d =>
    apply Cmd.Yields.ite
    · refine .bind (reduceLinearToXrgb8888_yields d) fun r hr => ?_
      exact .ite (.pure hr) (.pure hr)
    · exact cpuDeswizzle_yields d

theorem gpuAutoProcess_yields (data : Option Slice) (force : Bool) :
    Cmd.Yields (gpuAutoProcess u32 data frame force) fun r => frame.SameBuffer r.2 := by
  refine .ite (.pure (.refl frame)) ?_
  apply Cmd.Yields.call_bind
  intro isLinear
  apply Cmd.Yields.ite
  · cases data with
    | none => exact .pure rfl
    | some d =>
      refine .bind (reduceLinearToXrgb8888_yields d) fun r hr => ?_
      exact .ite (.pure hr) (.pure hr)
  · refine .bind eglAttempt_yields fun r hr => ?_
    cases r with
    | none => exact cpuProcess_yields data force
    | some r' => exact .pure (hr r' rfl)

end Yields

end Drmtap
