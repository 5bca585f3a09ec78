import Drmtap.ConvertDmabuf

/-! When a convert can succeed: no call of it fails, and every gate of it passes. -/
namespace Drmtap

open Memory Effect

section Pipeline
variable {egl : Prop} {m : Machine} {frame : FrameInfo} {d : Slice}

/-- With no call failing, a buffer of a legal size is there. -/
theorem drmtapEnsureBuf_can {buf : Option Slice} (hb : ∀ b, buf = some b → m.heap.Whole b)
    {size : ℕ} (h0 : 0 < size) (hmax : size ≤ drmtapMaxFbBytes) :
    Cmd.can (pipeEnv egl) (drmtapEnsureBuf buf size)
      (fun r _ _ => r.1 = 0 ∧ r.2 ≠ none) m () := by
  unfold drmtapEnsureBuf
  rw [if_neg h0.ne', if_neg (not_lt.mpr hmax)]
  split
  next hk =>
    cases buf with
    | none => cases hk
    | some b => exact ⟨rfl, by simp⟩
  next =>
    have hfresh : ∀ (m : Machine) (k : Option Slice → M (ℤ × Option Slice)),
        (∀ b, k (some b) = pure (0, some b)) →
        Cmd.can (pipeEnv egl) (malloc size >>= k) (fun r _ _ => r.1 = 0 ∧ r.2 ≠ none) m () := by
      intro m k hk
      rw [Cmd.can_bind]
      refine can_malloc (g := fun _ => 0) (u := ()) ⟨trivial, trivial⟩ ?_
      rw [hk]
      exact ⟨rfl, by simp⟩
    rw [Cmd.can_bind]
    cases buf with
    | none =>
      simp only [freeBuf, Cmd.can_pure]
      apply hfresh m
      exact fun _ => rfl
    | some b =>
      simp only [freeBuf, can_free]
      refine ⟨(), (), ⟨trivial, trivial⟩, _, (hb b rfl).free, ?_⟩
      apply hfresh
      exact fun _ => rfl

theorem drmtapEnsureOut_can (hm : m.Buffered) {size : ℕ} (h0 : 0 < size)
    (hmax : size ≤ drmtapMaxFbBytes) (hfit : m.OutFits size) :
    Cmd.can (pipeEnv egl) (drmtapEnsureOut size) (fun r m' _ =>
      ∃ out, r = .ok out ∧ Converts m m' ∧ Dest m' size out) m () := by
  suffices h : Cmd.can (pipeEnv egl) (drmtapEnsureOut size) (fun r _ _ => ∃ out, r = .ok out) m () by
    refine Cmd.can_mono (Cmd.can_and (drmtapEnsureOut_spec hm size) h) ?_
    rintro _ m' - ⟨⟨hc, hr⟩, out, rfl⟩
    exact ⟨out, rfl, hc, hr.1⟩
  unfold drmtapEnsureOut
  rw [if_neg h0.ne']
  simp only [Cmd.can_bind, can_modifyCtx]
  rw [if_neg (not_lt.mpr hmax)]
  simp only [Cmd.can_bind, can_getCtx]
  split
  next u hu =>
    rw [if_neg (not_lt.mpr (hfit u hu))]
    exact ⟨_, rfl⟩
  next =>
    simp only [Cmd.can_bind, can_modifyCtx]
    refine Cmd.can_mono (drmtapEnsureBuf_can (Converts.bump hm size).buffered.shadow h0 hmax) ?_
    rintro ⟨ret, buf⟩ m' - ⟨rfl, hb⟩
    cases buf with
    | none => exact absurd rfl hb
    | some b => exact ⟨_, rfl⟩

/-- The tight 4-byte picture of a checked frame is within the cap. -/
theorem Bounded.tight {w h s : ℕ} (hb : Bounded w h s) :
    0 < w * h * 4 ∧ w * h * 4 ≤ drmtapMaxFbBytes := by
  have := Nat.mul_pos hb.width_pos hb.height_pos
  have := hb.pixels
  omega

theorem Bounded.padded {w h s : ℕ} (hb : Bounded w h s) :
    0 < s * h ∧ s * h ≤ drmtapMaxFbBytes := by
  have := Nat.mul_pos hb.stride_pos hb.height_pos
  have := hb.bytes
  rw [Nat.mul_comm] at this
  omega

theorem reduceLinearToXrgb8888_can (hm : m.Buffered)
    (hb : Bounded frame.width.toNat frame.height.toNat frame.stride.toNat)
    (hs : Source m frame d)
    (hw : bytesPerPixel frame.format * frame.width.toNat ≤ frame.stride.toNat)
    (hfit : m.OutFits (frame.width.toNat * frame.height.toNat * 4)) :
    Cmd.can (pipeEnv egl) (reduceLinearToXrgb8888 wrap32 d frame) (fun r _ _ => 0 ≤ r.1) m () := by
  unfold reduceLinearToXrgb8888
  split
  · exact le_refl (0 : ℤ)
  next h8 =>
    have hr : NeedsReduction frame.format := by
      unfold NeedsReduction
      tauto
    rw [Cmd.can_bind]
    refine Cmd.can_mono (drmtapEnsureOut_can hm hb.tight.1 hb.tight.2 hfit) ?_
    rintro _ m₁ - ⟨out, rfl, hc, hdest⟩
    have hs₁ := hc.source hs
    have hroom : Room m₁.heap frame d out :=
      ⟨hs₁.live, hdest.2.1, fun he => hs₁.apart (he ▸ hdest.out), hs₁.len⟩
    simp only [Cmd.can_bind, can_getCtx, can_onHeap, heap_machine, setHeap_machine]
    rcases reducePixels_spec m₁.ctx wrap32_exact hb hroom hdest.1.ge hr with ⟨hlt, -⟩ | ⟨h', he, -, -⟩
    · exact absurd hw (not_le.mpr hlt)
    · exact ⟨_, _, he, by simp⟩

theorem cpuDeswizzle_can (hm : m.Buffered)
    (hb : Bounded frame.width.toNat frame.height.toNat frame.stride.toNat)
    (hs : Source m frame d) (hdrv : DecodesTiles m.ctx.driverName)
    (hoff : cpuOffset frame.modifier ≠ none)
    (hw : 4 * frame.width.toNat ≤ frame.stride.toNat)
    (hfit : m.OutFits (frame.stride.toNat * frame.height.toNat)) :
    Cmd.can (pipeEnv egl) (cpuDeswizzle wrap32 d frame) (fun r _ _ => r.1 = 0) m () := by
  unfold cpuDeswizzle
  rw [Cmd.can_bind]
  refine Cmd.can_mono (drmtapEnsureOut_can hm hb.padded.1 hb.padded.2 hfit) ?_
  rintro _ m₁ - ⟨out, rfl, hc, hdest⟩
  have hs₁ := hc.source hs
  have hne : d.base ≠ out.base := fun he => hs₁.apart (he ▸ hdest.out)
  have hlen : frame.height.toNat * frame.stride.toNat ≤ out.len := by
    rw [hdest.1, Nat.mul_comm]
  have hdrv' : DecodesTiles m₁.ctx.driverName := by
    rw [hc.ctx]
    exact hdrv
  simp only [Cmd.can_bind, can_getCtx]
  unfold DecodesTiles at hdrv'
  rw [if_pos hdrv']
  simp only [Cmd.can_bind, can_onHeap, heap_machine, setHeap_machine]
  rw [drmtapDeswizzle_exact wrap32_exact hb, Nat.mul_comm frame.stride.toNat]
  rcases drmtapDeswizzle_spec hb hs₁.live hdest.2.1 hne hs₁.len hlen frame.modifier with
    ⟨hnone, -⟩ | ⟨-, hlt, -⟩ | ⟨off, h', -, -, he, hf⟩
  · exact absurd hnone hoff
  · omega
  · refine ⟨_, _, he, ?_⟩
    simp only [ne_eq, not_true_eq_false, if_false]
    split
    next h30 =>
      have hd₂ := hdest.of_filled hf
      obtain ⟨h₃, he₃, -⟩ := reduceInPlace_spec m₁.ctx wrap32_exact hb hd₂.2.1 hlen hw h30
      simp only [Cmd.can_bind, can_onHeap, heap_machine]
      exact ⟨_, _, he₃, rfl⟩
    next => exact rfl

/-- A mapped frame is processed when its layout can be read and the output fits. -/
structure Processable (m : Machine) (frame : FrameInfo) : Prop where
  rows : RowMajor frame.modifier →
    bytesPerPixel frame.format * frame.width.toNat ≤ frame.stride.toNat ∧
      m.OutFits (frame.width.toNat * frame.height.toNat * 4)
  tiles : ¬ RowMajor frame.modifier → DecodesTiles m.ctx.driverName ∧
    cpuOffset frame.modifier ≠ none ∧ 4 * frame.width.toNat ≤ frame.stride.toNat ∧
      m.OutFits (frame.stride.toNat * frame.height.toNat)

theorem layoutIsLinear_can (modifier : UInt64) :
    Cmd.can (pipeEnv egl) (layoutIsLinear modifier) (fun r m' _ => m' = m ∧
      (r = true ↔ modifier = drmFormatModLinear ∨
        (modifier = drmFormatModInvalid ∧ ¬ egl))) m () := by
  refine Cmd.can_mono (Cmd.can_and (layoutIsLinear_spec modifier) (R := fun _ _ _ => True) ?_)
    fun _ _ _ h => h.1
  unfold layoutIsLinear
  split
  · trivial
  · split
    · classical
      exact ⟨decide egl, (), ⟨trivial, decide_eq_true_iff⟩, trivial⟩
    · trivial

theorem gpuAutoProcess_can (hm : m.Buffered)
    (hb : Bounded frame.width.toNat frame.height.toNat frame.stride.toNat)
    (hs : Source m frame d) (hp : Processable m frame) (hfd : frame.dmaBufFd < 0) :
    Cmd.can (pipeEnv egl) (gpuAutoProcess wrap32 (some d) frame false)
      (fun r _ _ => r.1 = 0) m () := by
  have hred : RowMajor frame.modifier → Cmd.can (pipeEnv egl) (do
      let r ← reduceLinearToXrgb8888 wrap32 d frame
      if r.1 < 0 then pure r else pure (0, r.2) : M (ℤ × FrameInfo))
      (fun r _ _ => r.1 = 0) m () := by
    intro hl
    obtain ⟨hw, hfit⟩ := hp.rows hl
    rw [Cmd.can_bind]
    refine Cmd.can_mono (reduceLinearToXrgb8888_can hm hb hs hw hfit) ?_
    rintro ⟨red, frame'⟩ m' - hr
    simp only [not_lt.mpr hr, if_false, Cmd.can_pure]
  have hcpu : frame.modifier ≠ drmFormatModLinear → Cmd.can (pipeEnv egl)
      (cpuProcess wrap32 (some d) frame false) (fun r _ _ => r.1 = 0) m () := by
    intro hlin
    unfold cpuProcess
    rw [if_neg (by simp)]
    simp only
    split
    next hi => exact hred (.inr hi)
    next hi =>
      obtain ⟨hdrv, hoff, hw, hfit⟩ := hp.tiles (not_or.mpr ⟨hlin, hi⟩)
      exact cpuDeswizzle_can hm hb hs hdrv hoff hw hfit
  have hegl : eglAttempt frame = pure none := if_neg (not_le.mpr hfd)
  unfold gpuAutoProcess
  rw [if_neg (by simp), hegl, Cmd.can_bind]
  refine Cmd.can_mono (layoutIsLinear_can frame.modifier) ?_
  rintro isLinear _ _ ⟨rfl, hlin⟩
  split
  next h => exact hred ((hlin.mp h.1).imp id And.left)
  next h => exact hcpu fun hmod => h ⟨hlin.mpr (.inl hmod), by simp⟩

end Pipeline

/-- The CPU can convert a descriptor into the output of `m`. -/
structure Convertible (m : Machine) (desc : DmabufDesc) (buf : DmaBuf) : Prop where
  accepted : Accepted desc buf
  rows : RowMajor desc.modifier → bytesPerPixel desc.format * desc.width.toNat ≤ desc.pitch ∧
    m.OutFits (desc.width.toNat * desc.height.toNat * 4)
  tiles : ¬ RowMajor desc.modifier → DecodesTiles m.ctx.driverName ∧
    cpuOffset desc.modifier ≠ none ∧ m.OutFits (desc.pitch * desc.height.toNat)

section Convert
variable {egl : Prop} {m : Machine} {desc : DmabufDesc} {buf : DmaBuf} {mapped : Slice} {s : Bool}

theorem convertEnv_serves : (convertEnv egl desc buf).Serves PipeOp (PipeAns egl) := by
  intro o ho r hr s
  cases o <;> first | exact ho.elim | exact ⟨hr, rfl⟩

theorem convertMapped_can (hm : m.Buffered) (he : m.ctx.curHdrEotf = desc.hdrEotf)
    (hn : m.ctx.curHdrMaxNits = desc.hdrMaxNits) (hc : Convertible m desc buf)
    (hp : Mapping m desc buf mapped) :
    Cmd.can (pipeEnv egl) (convertMapped desc mapped (frameOfDesc desc))
      (fun r m' _ => r.1 = 0 ∧ r.2.data ≠ none ∧ Converts m m') m () := by
  suffices h : Cmd.can (pipeEnv egl) (convertMapped desc mapped (frameOfDesc desc))
      (fun r _ _ => r.1 = 0) m () by
    refine Cmd.can_mono (Cmd.can_and (convertMapped_spec hm he hn hc.accepted hp) h) ?_
    rintro r m' - ⟨⟨hcv, hr⟩, h0⟩
    exact ⟨h0, (hr.resolve_left fun h => h.ne h0).2.data_ne, hcv⟩
  obtain ⟨-, hb, -⟩ := checkDesc_eq_zero.mp hc.accepted.check
  have hs : Source m { frameOfDesc desc with data := some mapped, dmaBufFd := -1 } mapped :=
    ⟨hp.live, hp.apart, hp.len.ge⟩
  have hpr : Processable m { frameOfDesc desc with data := some mapped, dmaBufFd := -1 } :=
    ⟨hc.rows, fun hl => ⟨(hc.tiles hl).1, (hc.tiles hl).2.1, hc.accepted.row_fits, (hc.tiles hl).2.2⟩⟩
  unfold convertMapped
  rw [Cmd.can_bind]
  have hrun : Cmd.can (pipeEnv egl) (gpuAutoProcess wrap32 (some mapped)
      { frameOfDesc desc with data := some mapped, dmaBufFd := -1 } false) _ m () :=
    Cmd.can_and (gpuAutoProcess_spec wrap32_exact hm hb (by rintro _ ⟨⟩; exact hs) false)
      (gpuAutoProcess_can hm hb hs hpr (show (-1 : ℤ) < 0 by decide))
  refine Cmd.can_mono hrun ?_
  rintro ⟨_, frame⟩ m₁ - ⟨⟨hcv, hr⟩, rfl⟩
  have hs₁ := hcv.source hs
  have hskip : ∀ {size out}, Dest m₁ size out → some out ≠ some mapped := by
    rintro size out hd ⟨⟩
    exact hs₁.apart hd.out
  cases (hr.resolve_left (lt_irrefl _)).2 with
  | idle hd => simp at hd
  | passed _ _ hl h8 =>
    have hfour : (desc.width * 4).toNat = 4 * desc.width.toNat := mul_four_toNat hb.width_le
    have hsize : (desc.width * 4).toNat * desc.height.toNat =
        desc.width.toNat * desc.height.toNat * 4 := by
      rw [hfour]
      ring
    have hfit : m₁.OutFits (desc.width.toNat * desc.height.toNat * 4) := fun u hu =>
      (hc.rows hl).2 u (hcv.userOut ▸ hu)
    simp only [and_self, if_true, Cmd.can_bind, hsize]
    refine Cmd.can_mono (drmtapEnsureOut_can hcv.buffered hb.tight.1 hb.tight.2 hfit) ?_
    rintro _ m₂ - ⟨out, rfl, hc₂, hdest⟩
    have hs₂ := hc₂.source hs₁
    have hne : mapped.base ≠ out.base := fun he => hs₂.apart (he ▸ hdest.out)
    obtain ⟨h', A, V, hrun, -⟩ := repackLinear_spec hs₂.live hdest.2.1 hne hfour
      hc.accepted.row_fits hp.len.ge (by rw [hdest.1, ← hsize, Nat.mul_comm])
    simp only [Cmd.can_bind, can_onHeap, heap_machine, Cmd.can_pure, Option.map_eq_some_iff]
    exact ⟨(), h', ⟨h', hrun, rfl⟩, trivial⟩
  | reduced _ _ _ _ _ hout _ =>
    simp only [hskip hout, and_false, if_false, Cmd.can_pure]
  | untiled _ _ _ _ _ _ hout _ =>
    simp only [hskip hout, and_false, if_false, Cmd.can_pure]
  | gpu _ hfd => exact absurd (show (0 : ℤ) ≤ -1 from hfd) (by decide)

/-- The size of an accepted descriptor's file is positive. -/
theorem Accepted.size_pos (ha : Accepted desc buf) : 0 < buf.size := by
  obtain ⟨-, hb, -⟩ := checkDesc_eq_zero.mp ha.check
  have himage := ha.backed.image
  have hpos : 0 < desc.pitch * desc.height.toNat := Nat.mul_pos hb.stride_pos hb.height_pos
  omega

theorem convertCpu_can (hm : m.Buffered) (he : m.ctx.curHdrEotf = desc.hdrEotf)
    (hn : m.ctx.curHdrMaxNits = desc.hdrMaxNits) (hc : Convertible m desc buf) :
    Cmd.can (convertEnv egl desc buf) (convertCpu desc (frameOfDesc desc)) (fun r m' _ =>
      r.1 = 0 ∧ Converted m.ctx.driverName desc buf r.2 m') m s := by
  have ha := hc.accepted
  have hpos := ha.size_pos
  have himage := ha.backed.image
  suffices h : Cmd.can (convertEnv egl desc buf) (convertCpu desc (frameOfDesc desc))
      (fun r _ _ => r.1 = 0) m s by
    refine Cmd.can_mono (Cmd.can_and (convertCpu_spec hm he hn ha.check fun _ => ha.backed) h) ?_
    rintro r m' s' ⟨⟨-, hr⟩, h0⟩
    exact ⟨h0, (hr.resolve_left fun h => h.1.ne h0).2.2⟩
  unfold convertCpu fdSizeForMap
  rw [if_neg (not_lt.mpr ha.fd)]
  simp only [Cmd.can_bind, Cmd.can_call]
  refine ⟨true, s, ⟨trivial, rfl⟩, ?_⟩
  rw [if_neg (by simp)]
  simp only [Cmd.can_bind, Cmd.can_call]
  refine ⟨buf.size, s, ⟨.inr rfl, rfl⟩, ?_⟩
  rw [if_neg (not_le.mpr hpos), Cmd.can_pure, if_neg]
  · rw [Cmd.can_bind]
    refine can_mmap (g := fun i => buf.byte ((desc.offsets 0).toNat + i)) (u := true)
      ⟨rfl, rfl⟩ ?_
    have hmap := Mapping.of_alloc hm desc buf
    have halloc := Converts.of_alloc hm ((desc.pitches 0).toNat * desc.height.toNat)
      fun i => buf.byte ((desc.offsets 0).toNat + i)
    simp only [heap_machine, setHeap_machine, Cmd.can_bind]
    refine Cmd.can_mono (Cmd.can_quiet convertEnv_serves
      (convertMapped_can halloc.buffered he hn ⟨ha, hc.rows, hc.tiles⟩ hmap)) ?_
    rintro ⟨_, frame⟩ m₁ _ ⟨⟨rfl, hdata, hcv⟩, rfl⟩
    have hwhole : m₁.heap.Whole ⟨m.heap.next, (desc.pitches 0).toNat * desc.height.toNat⟩ :=
      (Heap.alloc_whole _ _ _).congr (hcv.keep _ (Nat.lt_succ_self _) hmap.apart)
    simp only [Cmd.can_call, can_munmap, heap_machine, setHeap_machine, hdata, and_false, if_false]
    exact ⟨(), true, ⟨trivial, rfl⟩, (), true, ⟨trivial, rfl⟩, _, hwhole.free, rfl⟩
  · rw [not_or, not_le, not_lt]
    exact ⟨hpos, by exact_mod_cast himage⟩

theorem checkFd_can (ha : Accepted desc buf) :
    Cmd.can (convertEnv egl desc buf) (checkFd desc) (fun r m' s' => r = 0 ∧ m' = m ∧ s' = s)
      m s := by
  have hpos := ha.size_pos
  have himage := ha.backed.image
  unfold checkFd fdSize
  rw [if_neg (not_lt.mpr ha.fd)]
  simp only [Cmd.can_bind, Cmd.can_call]
  refine ⟨true, s, ⟨trivial, rfl⟩, ?_⟩
  rw [if_neg (by simp)]
  simp only [Cmd.can_bind, Cmd.can_call]
  refine ⟨buf.size, s, ⟨.inr rfl, rfl⟩, ?_⟩
  rw [if_neg (not_le.mpr hpos), Cmd.can_pure]
  refine ⟨(), s, ⟨trivial, rfl⟩, ?_⟩
  rw [if_neg, if_neg]
  · exact ⟨rfl, rfl, rfl⟩
  · rintro ⟨p, h1, hp, hlt⟩
    exact absurd (ha.backed.planes p h1 hp) (not_le.mpr hlt)
  · rw [not_or, not_le, not_lt]
    exact ⟨hpos, by exact_mod_cast himage⟩

/-- A convertible descriptor is converted by the CPU in some run, whatever the backend. -/
theorem drmtapConvertDmabuf_can (egl : Prop) (hm : m.Buffered) (hc : Convertible m desc buf)
    (frame : FrameInfo) (s : Bool) :
    Cmd.can (convertEnv egl desc buf) (drmtapConvertDmabuf desc frame) (fun r m' _ =>
      r.1 = 0 ∧ Converted m.ctx.driverName desc buf r.2 m') m s := by
  have ha := hc.accepted
  have hdim : drmtapValidateFbDims desc.width desc.height = 0 := by
    by_contra hne
    obtain ⟨-, hb, -⟩ := checkDesc_eq_zero.mp ha.check
    have := checkGeometry_eq_zero.mpr hb
    rw [checkGeometry, if_neg hne] at this
    exact hne this
  have hcpu : Cmd.can (convertEnv egl desc buf) _ _ (m.stage desc) s :=
    convertCpu_can (hm.stage desc) rfl rfl ⟨ha, hc.rows, hc.tiles⟩
  unfold drmtapConvertDmabuf
  rw [ha.check, if_neg (by simp), Cmd.can_bind, can_modifyCtx, Cmd.can_bind]
  refine Cmd.can_mono (checkFd_can ha) ?_
  rintro _ _ s ⟨rfl, rfl, rfl⟩
  simp only [ne_eq, not_true_eq_false, if_false, Cmd.can_bind, Cmd.can_call]
  by_cases he : egl
  · refine ⟨true, s, ⟨by simpa [PipeAns] using he, rfl⟩, ?_⟩
    -- the backend fails to render
    unfold drmtapGpuEglConvert
    rw [if_pos rfl, Cmd.can_bind, if_neg (by simpa using hdim)]
    simp only [Cmd.can_bind, Cmd.can_call]
    exact ⟨some ⟨1, Nat.one_pos⟩, s, ⟨trivial, rfl⟩, hcpu⟩
  · exact ⟨false, s, ⟨by simpa [PipeAns] using he, rfl⟩, hcpu⟩

end Convert

end Drmtap
