import Drmtap.ConvertSound

/-! The frame that a convert which returns 0 hands to its consumer: for which descriptors, and which
outcomes of the backend, it says what it holds. -/
namespace Drmtap

open Memory Effect

/-! What the backend delivers -/

/-- What the backend read back, where nothing was called after that. -/
def delivered (_ : Option Readback) : (o : Op) → Ans o → Option Readback
  | .eglReadback _, .unchanged => some .unchanged
  | .eglReadback _, .pixels bytes glError => if glError then none else some (.pixels bytes glError)
  | _, _ => none

/-- The kernel and the backend as one convert meets them, with what the backend delivers. -/
abbrev deliveringEnv (egl : Prop) (desc : DmabufDesc) (buf : DmaBuf) : Env :=
  (convertEnv egl desc buf).noted delivered

/-- What was delivered stands in a destination, in rows of `4 * width` bytes. An unchanged frame was
delivered by an earlier convert, and its bytes are left as they were. -/
def Readback.Stands (before h : Heap) (out : Slice) (width height : ℕ) : Readback → Prop
  | .unchanged => before.next ≤ out.base ∨ h.block out.base = before.block out.base
  | .pixels bytes _ => Shows h out (4 * width) width height fun x y =>
    (List.range 4).map fun i => bytes ((y * width + x) * 4 + i)

/-- The frame says what it holds: rows of `4 * width` bytes in the resolved destination. -/
structure Truthful (desc : DmabufDesc) (frame : FrameInfo) (m : Machine) : Prop where
  modifier : frame.modifier = drmFormatModLinear
  stride : frame.stride.toNat = 4 * desc.width.toNat
  width : frame.width = desc.width
  height : frame.height = desc.height
  data : ∃ out, frame.data = some out ∧ Dest m (frame.stride.toNat * frame.height.toNat) out

/-- The picture stands in the rows that the frame describes: what the backend delivered, or else
the pixels of the descriptor. -/
def FrameInfo.RowByRow (frame : FrameInfo) (desc : DmabufDesc) (buf : DmaBuf) (before h : Heap)
    (read : Option Readback) : Prop :=
  ∃ out, frame.data = some out ∧ match read with
    | none => Shows h out frame.stride.toNat desc.width.toNat desc.height.toNat (desc.linearPic buf)
    | some r => frame.stride.toNat = 4 * desc.width.toNat ∧
      r.Stands before h out desc.width.toNat desc.height.toNat

theorem Truthful.of_tight {desc : DmabufDesc} {frame : FrameInfo} {m : Machine}
    (hb : Bounded desc.width.toNat desc.height.toNat desc.pitch)
    {out : Slice} (hout : Dest m (desc.width.toNat * desc.height.toNat * 4) out)
    (hd : frame.data = some out) (hs : frame.stride = desc.width * 4)
    (hm : frame.modifier = drmFormatModLinear) (hw : frame.width = desc.width)
    (hh : frame.height = desc.height) : Truthful desc frame m := by
  have hfour : frame.stride.toNat = 4 * desc.width.toNat := by
    rw [hs, mul_four_toNat hb.width_le]
  refine ⟨hm, hfour, hw, hh, out, hd, ?_⟩
  rw [hfour, hh, show 4 * desc.width.toNat * desc.height.toNat =
    desc.width.toNat * desc.height.toNat * 4 by ring]
  exact hout

section Deliver
variable {egl : Prop} {desc : DmabufDesc} {buf : DmaBuf} {m : Machine} {frame : FrameInfo} {s : Bool}
  {n : Option Readback}

/-- The destination that is resolved is a new block, or has not been touched. -/
theorem drmtapEnsureOut_leaves (hm : m.Buffered) (size : ℕ) :
    Cmd.wp (pipeEnv egl) (drmtapEnsureOut size) (fun r m' _ => ∀ out, r = .ok out →
      m.heap.next ≤ out.base ∨ m'.heap.block out.base = m.heap.block out.base) m () := by
  have herror {e : ℤ} {P : Slice → Prop} : ∀ out, (.error e : Except ℤ Slice) = .ok out → P out := by
    intro out he
    cases he
  have hsame {r : Except ℤ Slice} : ∀ out, r = .ok out →
      m.heap.next ≤ out.base ∨ m.heap.block out.base = m.heap.block out.base :=
    fun _ _ => .inr rfl
  unfold drmtapEnsureOut
  simp only [Cmd.wp_ite, Cmd.wp_bind, Cmd.wp_pure, wp_modifyCtx, wp_getCtx]
  refine ⟨fun _ => herror, fun _ => ⟨fun _ => herror, fun _ => ?_⟩⟩
  split
  · rw [Cmd.wp_ite]
    exact ⟨fun _ => herror, fun _ => hsame⟩
  · rw [Cmd.wp_bind]
    apply Cmd.wp_mono (drmtapEnsureBuf_spec (Converts.bump hm size).buffered.shadow size)
    intro r m' _ hr
    simp only [Cmd.wp_bind, wp_modifyCtx]
    cases hr.1 with
    | refused he =>
      split
      · rw [Cmd.wp_ite]
        exact ⟨fun _ => herror, fun _ => hsame⟩
      · exact herror
    | kept =>
      simp only [ne_eq, not_true_eq_false, if_false, Cmd.wp_pure]
      exact fun _ _ => .inr trivial
    | lost => exact herror
    | fresh g =>
      simp only [ne_eq, not_true_eq_false, if_false, Cmd.wp_pure]
      intro out hout
      obtain rfl := Except.ok.inj hout
      exact .inl (Heap.without_next m.heap _).ge

/-- A GPU convert that succeeds has been delivered a picture, and leaves it in the destination. -/
theorem drmtapGpuEglConvert_delivers (hm : m.Buffered) (fd : ℤ) (width height stride format : UInt32)
    (modifier : UInt64) (fbId : UInt32) :
    Cmd.wp (deliveringEnv egl desc buf)
      (drmtapGpuEglConvert fd width height stride format modifier fbId)
      (fun r m' x => x.1 = s ∧ Converts m m' ∧ ∀ out, r = .ok out →
        Dest m' (width.toNat * height.toNat * 4) out ∧
        ∃ read, x.2 = some read ∧ read.Stands m.heap m'.heap out width.toNat height.toNat) m
      (s, n) := by
  have herror {e : ℤ} {P : Slice → Prop} : ∀ out, (.error e : Except ℤ Slice) = .ok out → P out := by
    intro out he
    cases he
  unfold drmtapGpuEglConvert
  dsimp only
  rw [Cmd.wp_ite]
  refine ⟨fun _ => ⟨rfl, .refl hm, herror⟩, fun _ => ?_⟩
  rw [Cmd.wp_bind, Cmd.wp_call]
  refine ⟨trivial, ?_⟩
  intro rendered x hx
  have hs : x.1 = s := hx.1.2
  cases rendered with
  | some e => exact ⟨hs, .refl hm, herror⟩
  | none =>
    rw [Cmd.wp_bind]
    have hout : Cmd.wp (pipeEnv egl) (drmtapEnsureOut (width.toNat * height.toNat * 4)) _ m () :=
      Cmd.wp_and (drmtapEnsureOut_spec hm _) (drmtapEnsureOut_leaves hm _)
    apply Cmd.wp_mono (Cmd.wp_noted (Cmd.wp_quiet (convertEnv_quiet egl desc buf) hout) x.2)
    intro r m₁ x₁ h₁
    obtain ⟨⟨⟨hc, hr⟩, hleft⟩, hx₁⟩ := h₁
    cases r with
    | error e => exact ⟨hx₁.trans hs, hc, herror⟩
    | ok dst =>
      obtain ⟨hdest, -, -⟩ := hr
      rw [Cmd.wp_bind, Cmd.wp_call]
      refine ⟨trivial, ?_⟩
      intro read x₂ hx₂
      have hs₂ : x₂.1 = s := hx₂.1.2.trans (hx₁.trans hs)
      cases read with
      | unchanged =>
        refine ⟨hs₂, hc, ?_⟩
        intro out he
        obtain rfl := Except.ok.inj he
        exact ⟨hdest, .unchanged, hx₂.2, hleft _ rfl⟩
      | pixels bytes glError =>
        have hlen : 0 + ((List.range (width.toNat * height.toNat * 4)).map bytes).length ≤
            dst.len := by
          simp [hdest.1]
        obtain ⟨h', hstore, hf⟩ := Heap.store_filled (V := bytes) hdest.2.1 hlen fun i hi => by simp
        have hc' := hc.trans (.of_filled hc.buffered hdest.out hf)
        simp only [Cmd.wp_bind, wp_onHeap, heap_machine, setHeap_machine, Cmd.wp_ite,
          Cmd.wp_pure, Option.map_eq_some_iff]
        refine ⟨(), h', ⟨h', hstore, rfl⟩, fun _ => ⟨hs₂, hc', herror⟩, fun hgood => ⟨hs₂, hc', ?_⟩⟩
        intro out he
        obtain rfl := Except.ok.inj he
        refine ⟨hdest.of_filled hf, .pixels bytes glError, ?_, ?_⟩
        · rw [hx₂.2]
          exact if_neg hgood
        · intro y hy x hx
          apply List.map_congr_left
          intro i hi
          have hi := List.mem_range.mp hi
          have hcell := cell_end_le 4 hx
          have hrow := row_end_le (4 * width.toNat) hy
          have hat : y * (4 * width.toNat) + 4 * x + i = (y * width.toNat + x) * 4 + i := by ring
          rw [hf.hit, hat]
          rw [List.length_map, List.length_range]
          constructor
          · exact Nat.zero_le _
          · nlinarith

/-- A conversion by the CPU ends with the release of its mapping. -/
theorem convertCpu_last (frame : FrameInfo) :
    Cmd.wlp ((Env.noting delivered).restrict fun _ _ _ => True) (convertCpu desc frame)
      (fun r _ read => r.1 = 0 → read = none) m n := by
  have hinval {read : Option Readback} : (-EINVAL : ℤ) = 0 → read = none := fun h => by cases h
  have hany {α : Type} (c : M α) (m : Machine) (n : Option Readback) :
      Cmd.wlp ((Env.noting delivered).restrict fun _ _ _ => True) c (fun _ _ _ => True) m n :=
    Cmd.wlp_true (E := (Env.noting delivered).restrict fun _ _ _ => True) (fun _ _ => trivial) c m n
  unfold convertCpu
  simp only [Cmd.wlp_ite, Cmd.wlp_bind, Cmd.wlp_pure, Cmd.wlp_call]
  refine ⟨fun _ => hinval, fun _ => ⟨trivial, fun began n₁ _ => ⟨fun _ => hinval, fun _ => ?_⟩⟩⟩
  apply Cmd.wlp_mono (hany _ _ _)
  intro size m₁ n₂ _
  refine ⟨fun _ => ⟨trivial, fun _ _ _ => hinval⟩, fun _ => ?_⟩
  rw [wlp_mmap]
  refine ⟨trivial, ?_, ?_⟩
  · intro e n₃ hn₃
    simp only [Cmd.wlp_bind, Cmd.wlp_call, Cmd.wlp_pure]
    refine ⟨trivial, fun _ n₄ hn₄ _ => ?_⟩
    exact hn₄.1
  · intro g n₃ _
    simp only [Cmd.wlp_bind, Cmd.wlp_call, wlp_munmap, Cmd.wlp_pure]
    apply Cmd.wlp_mono (hany _ _ _)
    intro r m₂ n₄ _
    refine ⟨trivial, fun _ n₅ _ => ⟨trivial, fun _ n₆ hn₆ _ _ _ => ?_⟩⟩
    exact hn₆.1

/-- The CPU is not delivered anything. -/
theorem convertCpu_delivers (hm : m.Buffered) (he : m.ctx.curHdrEotf = desc.hdrEotf)
    (hn : m.ctx.curHdrMaxNits = desc.hdrMaxNits) (hcheck : checkDesc desc = 0)
    (hback : 0 ≤ desc.dmaBufFd → desc.Backed buf) :
    Cmd.wp (deliveringEnv egl desc buf) (convertCpu desc (frameOfDesc desc)) (fun r m' x =>
      r.1 = 0 → x.2 = none ∧ Converts m m' ∧ Converted m.ctx.driverName desc buf r.2 m') m
      (s, n) := by
  apply Cmd.wp_of_runs (Cmd.wp_noted (convertCpu_spec hm he hn hcheck hback) n)
  intro r m' x hr h h0
  obtain ⟨hc, hres⟩ := h
  obtain ⟨-, -, hcv⟩ := hres.resolve_left fun hneg => hneg.1.ne h0
  have hnotes := hr.notes (A := fun _ _ => True) fun _ _ _ _ _ => trivial
  exact ⟨Cmd.wlp_runs (convertCpu_last _) hnotes h0, hc, hcv⟩

/-- A convert that returns 0 was delivered the frame by the backend, or had it decoded by the
CPU. -/
theorem drmtapConvertDmabuf_delivers (hm : m.Buffered) :
    Cmd.wp (deliveringEnv egl desc buf) (drmtapConvertDmabuf desc frame) (fun r m' x => r.1 = 0 →
      (x.2 = none ∧ Converted m.ctx.driverName desc buf r.2 m' ∧
        m'.ctx.userOut = m.ctx.userOut) ∨
      ∃ read, x.2 = some read ∧ Truthful desc r.2 m' ∧
        r.2.RowByRow desc buf m.heap m'.heap (some read)) m (s, n) := by
  have hst := hm.stage desc
  have hcpu (m₁ : Machine) (x : Bool × Option Readback) (hcheck : checkDesc desc = 0)
      (hback : 0 ≤ desc.dmaBufFd → desc.Backed buf) (hc : Converts (m.stage desc) m₁) :
      Cmd.wp (deliveringEnv egl desc buf) (convertCpu desc (frameOfDesc desc)) (fun r m' x =>
        r.1 = 0 → (x.2 = none ∧ Converted m.ctx.driverName desc buf r.2 m' ∧
          m'.ctx.userOut = m.ctx.userOut) ∨
        ∃ read, x.2 = some read ∧ Truthful desc r.2 m' ∧
          r.2.RowByRow desc buf m.heap m'.heap (some read)) m₁ x := by
    have hctx := hc.ctx
    apply Cmd.wp_mono (convertCpu_delivers (s := x.1) (n := x.2) hc.buffered (by rw [hctx]; rfl)
      (by rw [hctx]; rfl) hcheck hback)
    intro r m' x' h h0
    obtain ⟨hnone, hc', hcv⟩ := h h0
    rw [hctx] at hcv
    exact .inl ⟨hnone, hcv, (hc.trans hc').userOut⟩
  unfold drmtapConvertDmabuf
  rw [Cmd.wp_ite]
  refine ⟨fun hne h0 => absurd h0 hne, fun hcheck => ?_⟩
  have hcheck : checkDesc desc = 0 := not_not.mp hcheck
  rw [Cmd.wp_bind, wp_modifyCtx, Cmd.wp_bind]
  apply Cmd.wp_mono (Cmd.wp_noted checkFd_spec n)
  intro ret m₁ x₁ h₁
  obtain ⟨rfl, -, hr⟩ := h₁
  rw [Cmd.wp_ite]
  refine ⟨fun hne h0 => absurd h0 hne, fun hz => ?_⟩
  have hback := (hr.resolve_left fun h => h.ne (not_not.mp hz)).2
  rw [Cmd.wp_bind, Cmd.wp_call]
  refine ⟨trivial, ?_⟩
  intro avail x₂ _
  rw [Cmd.wp_ite]
  refine ⟨fun _ => ?_, fun _ => hcpu _ _ hcheck hback (.refl hst)⟩
  rw [Cmd.wp_bind]
  apply Cmd.wp_mono (drmtapGpuEglConvert_delivers (s := x₂.1) (n := x₂.2) hst _ _ _ _ _ _ _)
  intro r m₂ x₃ h₃
  obtain ⟨-, hc, hout⟩ := h₃
  cases r with
  | error e => exact hcpu _ _ hcheck hback hc
  | ok out =>
    intro _
    obtain ⟨hdest, read, hread, hstands⟩ := hout out rfl
    obtain ⟨-, hb, -⟩ := checkDesc_eq_zero.mp hcheck
    refine .inr ⟨read, hread, .of_tight hb hdest rfl rfl rfl rfl rfl, out, rfl, ?_, hstands⟩
    exact mul_four_toNat hb.width_le

end Deliver

section Claims
variable {egl : Prop} {desc : DmabufDesc} {buf : DmaBuf} {m : Machine} {frame : FrameInfo}

theorem Converted.truthful {driver : String} {before : Heap} (hl : desc.modifier = drmFormatModLinear)
    (hc : Converted driver desc buf frame m) :
    Truthful desc frame m ∧ frame.RowByRow desc buf before m.heap none := by
  cases hc with
  | @linear _ out ha _ hw hout hpic =>
    obtain ⟨-, hb, -⟩ := checkDesc_eq_zero.mp ha.check
    refine ⟨.of_tight hb hout rfl rfl hl rfl rfl, out, rfl, ?_⟩
    dsimp only
    rw [mul_four_toNat hb.width_le]
    exact hpic
  | tiled _ hl' => exact absurd (.inl hl) hl'

theorem Converted.modifier_eq {driver : String} (hc : Converted driver desc buf frame m) :
    frame.modifier = desc.modifier := by
  cases hc <;> rfl

/-- A convert that returns 0 describes what it hands out wherever the backend delivered the frame,
and otherwise for exactly the descriptors whose modifier is LINEAR already. So where the backend
does not deliver, every convert keeps its word for exactly those, and those that the CPU refuses. -/
theorem drmtapConvertDmabuf_truthful_iff (hm : m.Buffered) :
    (∀ r m' x, Cmd.Runs (deliveringEnv egl desc buf) (drmtapConvertDmabuf desc frame) m
        (false, none) r m' x → r.1 = 0 →
      (Truthful desc r.2 m' ∧ r.2.RowByRow desc buf m.heap m'.heap x.2 ↔
        x.2 ≠ none ∨ desc.modifier = drmFormatModLinear)) ∧
    ((∀ r m' x, Cmd.Runs (deliveringEnv egl desc buf) (drmtapConvertDmabuf desc frame) m
        (false, none) r m' x → x.2 = none → r.1 = 0 →
      Truthful desc r.2 m' ∧ r.2.RowByRow desc buf m.heap m'.heap x.2) ↔
        desc.modifier = drmFormatModLinear ∨ ¬ Convertible m desc buf) := by
  have heach (r m' x) (hr : Cmd.Runs (deliveringEnv egl desc buf) (drmtapConvertDmabuf desc frame) m
      (false, none) r m' x) (h0 : r.1 = 0) :
      Truthful desc r.2 m' ∧ r.2.RowByRow desc buf m.heap m'.heap x.2 ↔
        x.2 ≠ none ∨ desc.modifier = drmFormatModLinear := by
    rcases Cmd.wp_runs (drmtapConvertDmabuf_delivers hm) hr h0 with hcpu | hgpu
    · obtain ⟨hnone, hcv, -⟩ := hcpu
      rw [hnone]
      constructor
      · intro h
        exact .inr (hcv.modifier_eq.symm.trans h.1.modifier)
      · intro h
        exact hcv.truthful (h.resolve_left fun h => h rfl)
    · obtain ⟨read, hread, htruthful, hrows⟩ := hgpu
      rw [hread]
      exact iff_of_true ⟨htruthful, hrows⟩ (.inl (by simp))
  refine ⟨heach, ?_, ?_⟩
  · intro h
    by_contra hn
    obtain ⟨hl, hc⟩ := not_or.mp hn
    obtain ⟨r, m', s', hr, h0, hcv⟩ := Cmd.can_iff.mp
      (drmtapConvertDmabuf_can egl hm (not_not.mp hc) frame false)
    obtain ⟨read, hr⟩ := hr.noted delivered none
    have hnot : ¬ Truthful desc r.2 m' := fun ht => hl (hcv.modifier_eq.symm.trans ht.modifier)
    have hnone : read = none := by
      by_contra hne
      exact hnot ((heach _ _ _ hr h0).mpr (.inl hne)).1
    exact hnot (h _ _ _ hr hnone h0).1
  · intro h r m' x hr hnone h0
    apply (heach r m' x hr h0).mpr (.inr _)
    rcases Cmd.wp_runs (drmtapConvertDmabuf_delivers hm) hr h0 with hcpu | hgpu
    · obtain ⟨-, hcv, hu⟩ := hcpu
      exact h.resolve_right fun hn => hn (hcv.convertible hu)
    · obtain ⟨read, hread, -⟩ := hgpu
      rw [hnone] at hread
      cases hread

/-- A backend that fails nowhere delivers. -/
theorem drmtapConvertDmabuf_can_deliver (hm : m.Buffered) (ha : Accepted desc buf)
    (hfit : m.OutFits (desc.width.toNat * desc.height.toNat * 4)) :
    Cmd.can (deliveringEnv True desc buf) (drmtapConvertDmabuf desc frame)
      (fun r _ x => r.1 = 0 ∧ x.2 ≠ none) m (false, none) := by
  obtain ⟨-, hb, -⟩ := checkDesc_eq_zero.mp ha.check
  have hdim : drmtapValidateFbDims desc.width desc.height = 0 := by
    have hg : checkGeometry desc.width desc.height (desc.pitches 0) = 0 :=
      checkGeometry_eq_zero.mpr hb
    by_contra hne
    rw [checkGeometry, if_neg hne] at hg
    exact hne hg
  unfold drmtapConvertDmabuf
  rw [ha.check, if_neg (by simp), Cmd.can_bind, can_modifyCtx, Cmd.can_bind]
  apply Cmd.can_mono (Cmd.can_noted (checkFd_can ha) none)
  intro r m₁ x h₁
  obtain ⟨hr, hm₁, -⟩ := h₁
  subst hr hm₁
  simp only [ne_eq, not_true_eq_false, if_false, Cmd.can_bind, Cmd.can_call]
  refine ⟨true, (x.1, none), ⟨⟨by simp [PipeAns], rfl⟩, rfl⟩, ?_⟩
  unfold drmtapGpuEglConvert
  rw [if_pos rfl, Cmd.can_bind, if_neg (by simpa using hdim)]
  simp only [Cmd.can_bind, Cmd.can_call]
  refine ⟨none, (x.1, none), ⟨⟨trivial, rfl⟩, rfl⟩, ?_⟩
  have hserves : (convertEnv True desc buf).Serves PipeOp (PipeAns True) := convertEnv_serves
  have hout := Cmd.can_quiet hserves (s := x.1) (drmtapEnsureOut_can (hm.stage desc) hb.tight.1 hb.tight.2 hfit)
  dsimp only
  rw [Cmd.can_bind]
  apply Cmd.can_mono (Cmd.can_noted hout none)
  intro r m₂ x₂ h₂
  obtain ⟨⟨out, hr, -⟩, -⟩ := h₂
  subst hr
  simp only [Cmd.can_bind, Cmd.can_call]
  exact ⟨.unchanged, (x₂.1, some .unchanged), ⟨⟨trivial, rfl⟩, rfl⟩, rfl, by simp⟩

end Claims

/-- An X-tiled pixel that the backend delivers. -/
theorem drmtapConvertDmabuf_truthful_delivered : ∃ r m' x,
    Cmd.Runs (deliveringEnv True (onePixel fmtXR24 8 i915FormatModXTiled) ⟨8, fun _ => 7⟩)
      (drmtapConvertDmabuf (onePixel fmtXR24 8 i915FormatModXTiled) .cleared) (.opened "i915")
      (false, none) r m' x ∧ r.1 = 0 ∧
    Truthful (onePixel fmtXR24 8 i915FormatModXTiled) r.2 m' ∧
    r.2.RowByRow (onePixel fmtXR24 8 i915FormatModXTiled) ⟨8, fun _ => 7⟩
      (Machine.opened "i915").heap m'.heap x.2 := by
  have hm := Machine.opened_buffered "i915"
  have ha : Accepted (onePixel fmtXR24 8 i915FormatModXTiled) ⟨8, fun _ => 7⟩ :=
    onePixel_accepted (by decide) fun _ => 7
  obtain ⟨r, m', x, hr, h0, hread⟩ := Cmd.can_iff.mp (drmtapConvertDmabuf_can_deliver hm ha
    (by simp [Machine.OutFits, Machine.opened, Ctx.opened]))
  exact ⟨r, m', x, hr, h0,
    ((drmtapConvertDmabuf_truthful_iff hm).1 r m' x hr h0).mpr (.inl hread)⟩

/-- Without a modifier the CPU hands out rows it does not call LINEAR. -/
theorem drmtapConvertDmabuf_invalid : ¬ ∀ r m' s',
    Cmd.Runs (convertEnv False (onePixel fmtXR24 4 drmFormatModInvalid) ⟨4, fun _ => 7⟩)
      (drmtapConvertDmabuf (onePixel fmtXR24 4 drmFormatModInvalid) .cleared)
      (.opened "i915") false r m' s' → r.1 = 0 →
    Truthful (onePixel fmtXR24 4 drmFormatModInvalid) r.2 m' := by
  have hc : Convertible (.opened "i915") (onePixel fmtXR24 4 drmFormatModInvalid)
      ⟨4, fun _ => 7⟩ := onePixel_convertible (.inr rfl) (by decide) (by decide) _
  intro h
  obtain ⟨r, m', s', hr, h0, hcv⟩ := Cmd.can_iff.mp
    (drmtapConvertDmabuf_can False (Machine.opened_buffered _) hc .cleared false)
  have hmod := hcv.modifier_eq.symm.trans (h r m' s' hr h0).modifier
  exact absurd hmod (by decide)

end Drmtap
