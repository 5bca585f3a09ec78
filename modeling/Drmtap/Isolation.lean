import Drmtap.Converters
import Drmtap.GrabPlane
import Drmtap.OutputBuffer

/-! Memory that is not among the buffers of the library is left alone by every call, but for the
conversions that go into the output buffer of the caller. -/
namespace Drmtap

open Memory Effect

/-- Block `b` is of the output buffer that the caller has set. -/
def Lent (user : Option Slice) (b : ℕ) : Prop := ∃ s, user = some s ∧ s.base = b

namespace Machine

/-- Block `b` is none of the library's own buffers, and `user` is the output buffer. -/
structure Clear (K : (SlotId → FastSlot) → Prop) (user : Option Slice) (b : ℕ) (m : Machine) :
    Prop where
  spared : m.Spared K b
  user : m.ctx.userOut = user

/-- Block `b` is of the size it had and, unless it is lent, as it was. -/
structure Kept (user : Option Slice) (b : ℕ) (m m' : Machine) : Prop where
  size : (m'.heap.block b).map Block.size = (m.heap.block b).map Block.size
  same : ¬ Lent user b → m'.heap.block b = m.heap.block b

instance (user : Option Slice) (b : ℕ) : IsPreorder Machine (Kept user b) where
  refl _ := ⟨rfl, fun _ => rfl⟩
  trans _ _ _ h h' := ⟨h'.size.trans h.size, fun hb => (h'.same hb).trans (h.same hb)⟩

end Machine

abbrev Isolates {α : Type} (K : (SlotId → FastSlot) → Prop) (user : Option Slice) (b : ℕ)
    (m : M α) (Q : α → Prop) : Prop :=
  Cmd.Stays (fun _ => True) (Machine.Clear K user b) (Machine.Kept user b) m Q

section Convert
variable {K : (SlotId → FastSlot) → Prop} {user : Option Slice} {b : ℕ} {α : Type}

theorem isolates_of_spares {m : M α} {Q : α → Prop} (h : Spares K b m Q) :
    Isolates K user b m Q := by
  refine h.weaken (fun _ _ => trivial) (fun m hm => hm.spared) ?_
  intro m m' hm hm' hs
  exact ⟨⟨hm', hs.userOut.trans hm.user⟩, by rw [hs.block], fun _ => hs.block⟩

theorem isolates_getCtx : Isolates K user b getCtx fun c =>
    c.userOut = user ∧ (∀ s, c.deswizzleBuf = some s → s.base ≠ b) ∧ K c.fastSlots :=
  .bind .get fun _ hm => .pure ⟨hm.user, hm.spared.shadow, hm.spared.slots⟩

/-- A step that writes into a slice of another block, or of the one that is lent. -/
theorem isolates_writes {out : Slice} (hout : out.base = b → Lent user b)
    {f : Heap → Option (α × Heap)} (hf : ∀ h a h', f h = some (a, h') → Writes out h h') :
    Isolates K user b (onHeap f) fun _ => True := by
  intro m hm
  rw [wlp_onHeap]
  intro a h' he
  have hw := hf _ a h' he
  refine ⟨⟨hm.spared.of_heap hw.next.ge, hm.user⟩, ⟨?_, fun hlent => ?_⟩, trivial⟩
  · by_cases hb : b = out.base
    · rw [hb]
      exact hw.size
    · exact congrArg _ (hw.other b hb)
  · exact hw.other b fun hb => hlent (hout hb.symm)

theorem isolates_converter {out : Slice} (hout : out.base = b → Lent user b)
    {f : Heap → Option (ℤ × Heap)} (hf : Quits out f) :
    Isolates K user b (onHeap f) fun _ => True :=
  isolates_writes hout fun h r h' he => (hf h r h' he).1

/-- The destination of a conversion. -/
theorem isolates_ensureOut (size : ℕ) : Isolates K user b (drmtapEnsureOut size) fun r =>
    ∀ out, r = .ok out → out.base = b → Lent user b := by
  apply Cmd.Stays.ite (.pure (by simp))
  have hbump : Isolates K user b (modifyCtx (·.bumpOutGen size)) fun _ => True :=
    .modify (fun m hm => ⟨⟨hm.spared.lt, hm.spared.shadow, hm.spared.pixel, hm.spared.slots,
      hm.spared.memo⟩, hm.user⟩) fun _ => ⟨rfl, fun _ => rfl⟩
  apply Cmd.Stays.bind hbump
  intro _ _
  apply Cmd.Stays.ite (.pure (by simp))
  apply Cmd.Stays.bind isolates_getCtx
  rintro ctx ⟨huser, hshadow, -⟩
  cases hu : ctx.userOut with
  | some out =>
    apply Cmd.Stays.ite (.pure (by simp))
    refine .pure ?_
    rintro _ ⟨⟩ hb
    exact ⟨out, huser.symm.trans hu, hb⟩
  | none =>
    apply Cmd.Stays.bind (isolates_of_spares (spares_ensureBuf hshadow size))
    rintro ⟨ret, buf⟩ hbuf
    have hset : Isolates K user b (modifyCtx (·.setShadow buf)) fun _ => True :=
      .modify (fun m hm => ⟨⟨hm.spared.lt, hbuf, hm.spared.pixel, hm.spared.slots,
        hm.spared.memo⟩, hm.user⟩) fun _ => ⟨rfl, fun _ => rfl⟩
    apply Cmd.Stays.bind hset
    intro _ _
    cases buf with
    | none => exact .pure (by simp)
    | some out =>
      apply Cmd.Stays.ite (.pure (by simp))
      refine .pure ?_
      rintro _ ⟨⟩ hb
      exact absurd hb (hbuf out rfl)

theorem isolates_reduceLinear (u32 : ℕ → ℕ) (data : Slice) (frame : FrameInfo) :
    Isolates K user b (reduceLinearToXrgb8888 u32 data frame) fun _ => True := by
  apply Cmd.Stays.ite (.pure trivial)
  apply Cmd.Stays.bind (isolates_ensureOut _)
  rintro (e | out) hout
  · exact .pure trivial
  · apply Cmd.Stays.bind isolates_getCtx
    intro ctx _
    apply Cmd.Stays.bind (isolates_converter (hout out rfl) (reducePixels_quits u32 ctx frame _))
    intro ret _
    exact .ite (.pure trivial) (.pure trivial)

theorem isolates_eglConvert (fd : ℤ) (width height stride format : UInt32) (modifier : UInt64)
    (fbId : UInt32) :
    Isolates K user b (drmtapGpuEglConvert fd width height stride format modifier fbId) fun _ =>
      True := by
  apply Cmd.Stays.ite (.pure trivial)
  apply Cmd.Stays.bind (.call trivial)
  rintro (_ | e) -
  · apply Cmd.Stays.bind (isolates_ensureOut _)
    rintro (e | dst) hdst
    · exact .pure trivial
    · apply Cmd.Stays.bind (.call trivial)
      rintro (_ | ⟨bytes, glError⟩) -
      · exact .pure trivial
      · have hstore : Isolates K user b (onHeap fun h => (h.store dst 0 ((List.range
            (width.toNat * height.toNat * 4)).map bytes)).map ((), ·)) fun _ => True :=
          isolates_writes (hdst dst rfl) fun h r h' he => by
            obtain ⟨h₁, hs, heq⟩ := Option.map_eq_some_iff.mp he
            obtain ⟨-, rfl⟩ := Prod.mk.inj heq
            exact .store hs
        apply Cmd.Stays.bind hstore
        intro _ _
        exact .ite (.pure trivial) (.pure trivial)
  · exact .pure trivial

theorem isolates_eglAttempt (frame : FrameInfo) :
    Isolates K user b (eglAttempt frame) fun _ => True := by
  refine .ite (.bind (.call trivial) fun avail _ => .ite ?_ (.pure trivial)) (.pure trivial)
  apply Cmd.Stays.bind (isolates_eglConvert _ _ _ _ _ _ _)
  rintro (e | out) -
  · exact .ite (.pure trivial) (.pure trivial)
  · exact .pure trivial

theorem isolates_cpuDeswizzle (u32 : ℕ → ℕ) (data : Slice) (frame : FrameInfo) :
    Isolates K user b (cpuDeswizzle u32 data frame) fun _ => True := by
  apply Cmd.Stays.bind (isolates_ensureOut _)
  rintro (e | out) hout
  · exact .pure trivial
  · apply Cmd.Stays.bind isolates_getCtx
    intro ctx _
    apply Cmd.Stays.ite _ (.pure trivial)
    apply Cmd.Stays.bind
      (isolates_converter (hout out rfl) (drmtapDeswizzle_quits u32 _ _ _ _ _ _))
    intro ret _
    apply Cmd.Stays.ite (.pure trivial)
    apply Cmd.Stays.ite _ (.pure trivial)
    apply Cmd.Stays.bind (isolates_converter (hout out rfl) (reduceInPlace_quits u32 ctx _))
    intro conv _
    exact .ite (.pure trivial) (.pure trivial)

theorem isolates_layoutIsLinear (modifier : UInt64) :
    Isolates K user b (layoutIsLinear modifier) fun _ => True :=
  .ite (.pure trivial) (.ite (.bind (.call trivial) fun _ _ => .pure trivial) (.pure trivial))

theorem isolates_autoProcess (u32 : ℕ → ℕ) (data : Option Slice) (frame : FrameInfo)
    (force : Bool) : Isolates K user b (gpuAutoProcess u32 data frame force) fun r =>
      frame.SameBuffer r.2 := by
  have hreduce (d : Slice) : Isolates K user b (reduceLinearToXrgb8888 u32 d frame >>= fun r =>
      if r.1 < 0 then pure (r.1, r.2) else pure (0, r.2)) fun _ => True :=
    .bind (isolates_reduceLinear u32 d frame) fun r _ => .ite (.pure trivial) (.pure trivial)
  have hall : Isolates K user b (gpuAutoProcess u32 data frame force) fun _ => True := by
    apply Cmd.Stays.ite (.pure trivial)
    apply Cmd.Stays.bind (isolates_layoutIsLinear _)
    intro isLinear _
    apply Cmd.Stays.ite
    · cases data with
      | none => exact .pure trivial
      | some d => exact hreduce d
    · apply Cmd.Stays.bind (isolates_eglAttempt frame)
      rintro (_ | r) -
      · apply Cmd.Stays.ite (.pure trivial)
        cases data with
        | none => exact .pure trivial
        | some d => exact .ite (hreduce d) (isolates_cpuDeswizzle u32 d frame)
      · exact .pure trivial
  exact (hall.yields (gpuAutoProcess_yields data force)).mono fun _ h => h.1

/-! A convert -/

theorem isolates_fdSize (fd : ℤ) : Isolates K user b (fdSize fd) fun _ => True := by
  refine .bind (.call trivial) fun size _ => .ite (.bind (.call trivial) ?_) (.pure trivial)
  rintro (_ | s) - <;> exact .pure trivial

theorem isolates_fdSizeForMap (fd : ℤ) : Isolates K user b (fdSizeForMap fd) fun _ => True := by
  refine .bind (.call trivial) fun size _ => .ite (.bind (.call trivial) ?_) (.pure trivial)
  rintro (_ | s) - <;> exact .pure trivial

theorem isolates_checkFd (desc : DmabufDesc) : Isolates K user b (checkFd desc) fun _ => True := by
  apply Cmd.Stays.ite (.pure trivial)
  refine .bind (.call trivial) fun began _ => .ite (.pure trivial) ?_
  refine .bind (isolates_fdSize _) fun size _ => .bind (.call trivial) fun _ _ => ?_
  exact .ite (.pure trivial) (.ite (.pure trivial) (.pure trivial))

theorem isolates_convertMapped (desc : DmabufDesc) (mapped : Slice) (frame : FrameInfo) :
    Isolates K user b (convertMapped desc mapped frame) fun _ => True := by
  apply Cmd.Stays.bind (isolates_autoProcess _ _ _ _)
  intro r _
  apply Cmd.Stays.ite _ (.pure trivial)
  apply Cmd.Stays.bind (isolates_ensureOut _)
  rintro (e | out) hout
  · exact .pure trivial
  · refine .bind (isolates_writes (hout out rfl) fun h r h' he => ?_) fun _ _ => .pure trivial
    obtain ⟨h₁, hrep, heq⟩ := Option.map_eq_some_iff.mp he
    obtain ⟨-, rfl⟩ := Prod.mk.inj heq
    exact repackLinear_writes hrep

theorem isolates_convertCpu (desc : DmabufDesc) (frame : FrameInfo) :
    Isolates K user b (convertCpu desc frame) fun _ => True := by
  apply Cmd.Stays.ite (.pure trivial)
  refine .bind (.call trivial) fun began _ => .ite (.pure trivial) ?_
  apply Cmd.Stays.bind (isolates_fdSizeForMap _)
  intro size _
  apply Cmd.Stays.ite (.bind (.call trivial) fun _ _ => .pure trivial)
  apply Cmd.Stays.bind (isolates_of_spares (spares_mmap _ _ _))
  rintro (e | mapped) hmapped
  · exact .bind (.call trivial) fun _ _ => .pure trivial
  · apply Cmd.Stays.bind (isolates_convertMapped desc mapped frame)
    intro r _
    apply Cmd.Stays.bind (.call trivial)
    intro _ _
    apply Cmd.Stays.bind (isolates_of_spares (spares_munmap (hmapped mapped rfl)))
    exact fun _ _ => .pure trivial

theorem isolates_convertDmabuf (desc : DmabufDesc) (frame : FrameInfo) :
    Isolates K user b (drmtapConvertDmabuf desc frame) fun _ => True := by
  apply Cmd.Stays.ite (.pure trivial)
  have hstage : Isolates K user b (modifyCtx (stageDesc desc)) fun _ => True :=
    .modify (fun m hm => ⟨⟨hm.spared.lt, hm.spared.shadow, hm.spared.pixel, hm.spared.slots,
      hm.spared.memo⟩, hm.user⟩) fun _ => ⟨rfl, fun _ => rfl⟩
  apply Cmd.Stays.bind hstage
  intro _ _
  apply Cmd.Stays.bind (isolates_checkFd desc)
  intro ret _
  refine .ite (.pure trivial) (.bind (.call trivial) fun avail _ => ?_)
  apply Cmd.Stays.ite _ (isolates_convertCpu desc _)
  apply Cmd.Stays.bind (isolates_eglConvert _ _ _ _ _ _ _)
  rintro (e | out) -
  · exact isolates_convertCpu desc _
  · exact .pure trivial

/-! A grab -/

theorem prepareGrab_failed (doMmap : Bool) (frame : FrameInfo) :
    Cmd.Yields (prepareGrab doMmap frame) fun p => ∀ ret f, p = .done ret f → ret ≠ 0 := by
  have hof {planeId : UInt32} {prepared : Prepared} (h : prepared.Of planeId) :
      ∀ ret f, prepared = .done ret f → ret ≠ 0 := by
    rintro ret f rfl
    exact h
  have hdone {ret : ℤ} {f : FrameInfo} (h : ret ≠ 0) :
      ∀ ret' f', Prepared.done ret f = .done ret' f' → ret' ≠ 0 := by
    rintro _ _ ⟨⟩
    exact h
  have hread : Cmd.Yields readScanout fun r => ∀ ret, r = .error ret → ret ≠ 0 := by
    have hnodev : (- ENODEV : ℤ) ≠ 0 := by decide
    have herr {e : ℤ} (h : e ≠ 0) :
        ∀ ret, (.error e : Except ℤ (UInt32 × UInt32 × Fb2)) = .error ret → ret ≠ 0 := by
      rintro _ ⟨⟩
      exact h
    refine .call_bind fun planeId => .call_bind fun _ => .ite (.pure (herr hnodev)) ?_
    apply Cmd.Yields.call_bind
    rintro (_ | plane)
    · exact .pure (herr hnodev)
    · apply Cmd.Yields.ite
      · exact .pure (herr hnodev)
      · apply Cmd.Yields.call_bind
        rintro (e | fb2)
        · exact .pure (herr e.neg_ne_zero)
        · exact .pure (by simp)
  have hnotsup : (- ENOTSUP : ℤ) ≠ 0 := by decide
  refine .call_bind fun ctx => .ite (.pure (hdone hnotsup)) (.bind hread ?_)
  rintro (ret | ⟨planeId, fbId, fb2⟩) hret
  · exact .pure (hdone (hret ret rfl))
  · apply Cmd.Yields.call_bind
    intro _
    by_cases hbad : checkGeometry fb2.width fb2.height (fb2.pitches 0) ≠ 0
    · simp only [if_pos hbad]
      intro E st s p st' s' hr
      exact @hof planeId p (grabCleanup_of hbad E st s p st' s' hr)
    · simp only [if_neg hbad]
      apply Cmd.Yields.call_bind
      intro _ E st s p st' s' hr
      exact hof (prepareFramebuffer_of E st s p st' s' hr)

/-- What a grab hands out is in blocks of its own. -/
def Grabbed (b : ℕ) (ret : ℤ) (frame : FrameInfo) : Prop :=
  ret = 0 → ∀ p, frame.priv = some p → p.Spared b

theorem isolates_concludeGrab {frame : FrameInfo} (hf : ∀ p, frame.priv = some p → p.Spared b)
    (planeId : UInt32) (ret : ℤ) :
    Isolates K user b (concludeGrab planeId ret frame) fun r => Grabbed b r.1 r.2 := by
  apply Cmd.Stays.by_cases
  · intro hret
    refine .bind (isolates_of_spares (spares_frameRelease hf)) fun f _ => .pure ?_
    exact fun h0 => absurd h0 hret
  · intro _
    refine .bind (isolates_of_spares (spares_stage fun c =>
      ⟨c.fb2NumPlanes, _, _, planeId, _, _, rfl⟩)) fun _ _ => .pure ?_
    exact fun _ => hf

theorem isolates_finishGrab {prepared : Prepared} (hp : prepared.Spared b)
    (hfail : ∀ ret f, prepared = .done ret f → ret ≠ 0) (doMmap : Bool) :
    Isolates K user b (finishGrab doMmap prepared) fun r => Grabbed b r.1 r.2 := by
  have hpriv {f f' : FrameInfo} (h : f.SameBuffer f') : f'.priv = f.priv := by
    rw [h]
  cases prepared with
  | done ret frame =>
    exact .pure fun h0 => absurd h0 (hfail ret frame rfl)
  | ready planeId frame isVirgl =>
    apply Cmd.Stays.ite _ (isolates_concludeGrab hp.priv _ _)
    apply Cmd.Stays.bind (isolates_autoProcess _ _ _ _)
    rintro ⟨ret, frame'⟩ hsame
    apply isolates_concludeGrab
    rw [hpriv hsame]
    exact hp.priv
  | unmapped planeId frame priv e =>
    apply Cmd.Stays.bind (isolates_autoProcess _ _ _ _)
    rintro ⟨ret, frame'⟩ hsame
    apply Cmd.Stays.ite
    · have hne : (if ret = 0 then e.neg else ret) ≠ 0 := by
        split_ifs with h0
        · exact e.neg_ne_zero
        · exact h0
      refine (isolates_of_spares (spares_grabCleanupPriv hp.2.1 frame' _)).mono ?_
      exact fun r hr h0 => absurd (hr.symm.trans h0) hne
    · apply isolates_concludeGrab
      rw [hpriv hsame]
      exact hp.1.priv

theorem isolates_doGrab (doMmap : Bool) (frame : FrameInfo) :
    Isolates K user b (doGrab doMmap frame) fun r => Grabbed b r.1 r.2 := by
  apply Cmd.Stays.bind
    ((isolates_of_spares (spares_prepareGrab doMmap frame)).yields (prepareGrab_failed _ _))
  rintro prepared ⟨hfail, hp⟩
  exact isolates_finishGrab hp hfail doMmap

theorem isolates_grabDesc (desc : DmabufDesc) (frame : FrameInfo) :
    Isolates K user b (drmtapGrabDesc desc frame) fun r => Grabbed b r.1 r.2.2 := by
  apply Cmd.Stays.bind isolates_getCtx
  intro before _
  apply Cmd.Stays.bind (isolates_doGrab false frame)
  rintro ⟨ret, frame'⟩ hg
  apply Cmd.Stays.by_cases
  · intro hret
    exact .pure fun h0 => absurd h0 hret
  · intro hret
    have hf : ∀ p, frame'.priv = some p → p.Spared b := hg (not_not.mp hret)
    apply Cmd.Stays.ite
    · have hnotsup : (- ENOTSUP : ℤ) ≠ 0 := by decide
      apply Cmd.Stays.bind (isolates_of_spares (spares_frameRelease hf))
      intro f _
      refine .bind (isolates_of_spares (spares_stage fun c =>
        ⟨c.fb2NumPlanes, _, _, before.grabPlaneId, _, _, rfl⟩)) fun _ _ => .pure ?_
      exact fun h0 => absurd h0 hnotsup
    · exact .bind isolates_getCtx fun _ _ => .pure fun _ => hf

end Convert

/-! The fast path -/

section Fast
variable {user : Option Slice} {b : ℕ}

theorem isolates_processFast (frame : FrameInfo) :
    Isolates (SlotsSpared b) user b (processFast frame) fun _ => True := by
  apply Cmd.Stays.bind (isolates_autoProcess _ _ _ _)
  rintro ⟨pr, frame'⟩ -
  apply Cmd.Stays.ite (.pure trivial)
  apply Cmd.Stays.bind isolates_getCtx
  intro ctx _
  exact .bind (isolates_of_spares (spares_setGrabPlane _)) fun _ _ => .pure trivial

theorem isolates_showSlot (i : SlotId) (fbId : UInt32) :
    Isolates (SlotsSpared b) user b (showSlot i fbId) fun _ => True := by
  apply Cmd.Stays.bind (isolates_of_spares (spares_getSlot i))
  intro slot _
  exact .bind (isolates_of_spares (spares_restage slot)) fun _ _ => isolates_processFast _

theorem isolates_fastSame (i : SlotId) (fbId : UInt32) (frame : FrameInfo) :
    Isolates (SlotsSpared b) user b (fastSame i fbId frame) fun _ => True := by
  apply Cmd.Stays.bind (isolates_of_spares (spares_refreshSlot i))
  rintro (_ | e) -
  · exact isolates_showSlot i fbId
  · exact .pure trivial

theorem isolates_fastHit (i : SlotId) (fbId : UInt32) (frame : FrameInfo) :
    Isolates (SlotsSpared b) user b (fastHit i fbId frame) fun _ => True := by
  apply Cmd.Stays.bind (isolates_of_spares (spares_refreshSlot i))
  rintro (_ | e) -
  · exact .bind (isolates_of_spares (spares_setFastLast fbId)) fun _ _ => isolates_showSlot i fbId
  · exact .pure trivial

theorem isolates_storeSlot {fb2 : Fb2} (hsmall : Small fb2.width fb2.height (fb2.pitches 0))
    {mapped : Slice} (hm : mapped.base ≠ b) (i : SlotId) (fbId : UInt32) (primeFd : ℤ)
    (started : Bool) : Isolates (SlotsSpared b) user b (storeSlot i fb2 fbId primeFd mapped started)
      fun _ => True := by
  apply Cmd.Stays.bind (isolates_of_spares (spares_scanoutWidth _ _))
  intro width hle
  apply Cmd.Stays.bind isolates_getCtx
  intro ctx _
  have hslot : (slotOfFb2 fb2 fbId width primeFd mapped started ctx).Spared b := by
    refine ⟨?_, hsmall.narrow hle⟩
    rintro _ ⟨⟩
    exact hm
  apply Cmd.Stays.bind (isolates_of_spares (spares_setSlot i hslot))
  intro _ _
  exact .bind (isolates_of_spares (spares_setFastLast fbId)) fun _ _ => isolates_processFast _

theorem isolates_fastUnmapped (fb2 : Fb2) (fbId : UInt32) (primeFd : ℤ) (started : Bool)
    (frame : FrameInfo) :
    Isolates (SlotsSpared b) user b (fastUnmapped fb2 fbId primeFd started frame) fun _ => True := by
  have hdrop : Isolates (SlotsSpared b) user b (dropBuffer primeFd started (fb2.handles 0))
      fun _ => True := isolates_of_spares (spares_dropBuffer _ _ _)
  apply Cmd.Stays.bind (.call trivial)
  intro avail _
  apply Cmd.Stays.ite _ (.bind hdrop fun _ _ => .pure trivial)
  apply Cmd.Stays.bind (isolates_of_spares (spares_scanoutWidth _ _))
  intro width _
  apply Cmd.Stays.bind (isolates_autoProcess _ _ _ _)
  rintro ⟨pr, frame'⟩ -
  apply Cmd.Stays.bind hdrop
  intro _ _
  apply Cmd.Stays.bind (isolates_of_spares (spares_setFastLast 0))
  intro _ _
  apply Cmd.Stays.ite (.pure trivial)
  apply Cmd.Stays.bind isolates_getCtx
  intro ctx _
  exact .bind (isolates_of_spares (spares_setGrabPlane _)) fun _ _ => .pure trivial

theorem isolates_fastMiss (i : SlotId) (fbId : UInt32) (frame : FrameInfo) :
    Isolates (SlotsSpared b) user b (fastMiss i fbId frame) fun _ => True := by
  apply Cmd.Stays.bind (.call trivial)
  rintro (e | fb2) -
  · exact .pure trivial
  · apply Cmd.Stays.bind (isolates_of_spares (spares_closeAuxiliaryGemHandles fb2))
    intro _ _
    apply Cmd.Stays.ite
    · refine .bind (isolates_of_spares (spares_setFast fun c => ?_)) fun _ _ => ?_
      · exact ⟨c.fastPlaneId, c.fastLastFbId, c.fastInitialized, c.fastNoCpuMap, true, rfl⟩
      · exact .bind (isolates_of_spares spares_fastCleanup) fun _ _ => .pure trivial
    · apply Cmd.Stays.by_cases
      · intro _
        exact .bind (isolates_of_spares (spares_gemClose _)) fun _ _ => .pure trivial
      · intro hok
        have hsmall := (checkGeometry_eq_zero.mp (not_not.mp hok)).small
        apply Cmd.Stays.bind (isolates_of_spares (spares_stageFb2 fb2))
        intro _ _
        apply Cmd.Stays.bind (.call trivial)
        rintro (e | primeFd) -
        · exact .bind (isolates_of_spares (spares_gemClose _)) fun _ _ => .pure trivial
        · apply Cmd.Stays.bind (isolates_of_spares (spares_mapFast fb2 primeFd))
          rintro ⟨_ | mapped, started⟩ hmapped
          · exact isolates_fastUnmapped _ _ _ _ _
          · exact isolates_storeSlot hsmall (hmapped mapped rfl) _ _ _ _

theorem isolates_fastFrame (fbId : UInt32) (frame : FrameInfo) :
    Isolates (SlotsSpared b) user b (fastFrame fbId frame) fun _ => True := by
  apply Cmd.Stays.bind isolates_getCtx
  intro ctx _
  cases ctx.lastSlot fbId with
  | some i => exact isolates_fastSame i fbId frame
  | none =>
    apply Cmd.Stays.bind (isolates_of_spares spares_fastSyncClose)
    intro _ _
    apply Cmd.Stays.bind (isolates_of_spares (spares_findOrAllocSlot fbId))
    intro i _
    apply Cmd.Stays.bind (isolates_of_spares (spares_getSlot i))
    intro slot _
    exact .ite (isolates_fastHit i fbId frame) (isolates_fastMiss i fbId frame)

theorem isolates_grabMappedFast (frame : FrameInfo) :
    Isolates (SlotsSpared b) user b (drmtapGrabMappedFast frame) fun _ => True := by
  apply Cmd.Stays.bind isolates_getCtx
  intro ctx _
  refine .ite (.pure trivial) (.ite (.pure trivial) ?_)
  apply Cmd.Stays.bind (isolates_of_spares spares_startFast)
  intro started _
  apply Cmd.Stays.ite (.pure trivial)
  apply Cmd.Stays.bind (isolates_of_spares spares_readFastFb)
  intro fbId _
  apply Cmd.Stays.ite _ (isolates_fastFrame fbId frame)
  exact .bind (isolates_of_spares spares_fastCleanup) fun _ _ => .pure trivial

end Fast

end Drmtap
