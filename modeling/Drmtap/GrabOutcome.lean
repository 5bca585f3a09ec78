import Drmtap.ConvertSound
import Drmtap.GrabBalance

/-! How a grab ends: the conversion of what was prepared, and who owns what afterwards. -/
namespace Drmtap

open Memory Effect

/-- The pixels of a frame are there to be read. -/
def FrameInfo.Readable (frame : FrameInfo) (m : Machine) : Prop :=
  ∃ d, frame.data = some d ∧ m.heap.Live d ∧ frame.stride.toNat * frame.height.toNat ≤ d.len

/-- A frame without pixels that `gpu_auto_process` leaves alone. -/
def FrameInfo.Blank (egl : Prop) (frame : FrameInfo) (force : Bool) : Prop :=
  frame.data = none ∧ force = false ∧
    (frame.dmaBufFd < 0 ∨ frame.modifier = drmFormatModLinear ∨
      (frame.modifier = drmFormatModInvalid ∧ ¬ egl))

theorem FrameInfo.Readable.of_heap {frame : FrameInfo} {m m' : Machine} (hr : frame.Readable m)
    (h : m'.heap = m.heap) : frame.Readable m' := by
  unfold FrameInfo.Readable
  rw [h]
  exact hr

theorem FrameInfo.Blank.not_readable {egl : Prop} {frame : FrameInfo} {force : Bool} {m : Machine}
    (hb : frame.Blank egl force) : ¬ frame.Readable m := by
  rintro ⟨d, hd, -⟩
  exact absurd (hb.1.symm.trans hd) (by simp)

section Process
variable {egl : Prop} {u32 : ℕ → ℕ} {m m' : Machine} {frame frame' : FrameInfo} {force : Bool}

theorem gpuAutoProcess_blank (hb : frame.Blank egl force) :
    Cmd.wp (pipeEnv egl) (gpuAutoProcess u32 frame.data frame force)
      (fun r _ _ => r = (0, frame)) m () := by
  obtain ⟨hd, rfl, hi⟩ := hb
  rw [hd]
  unfold gpuAutoProcess
  simp only [Cmd.wp_ite, Cmd.wp_bind, Cmd.wp_pure]
  refine ⟨fun _ => trivial, fun hfd => ?_⟩
  refine Cmd.wp_mono (layoutIsLinear_spec frame.modifier) ?_
  rintro isLinear _ - ⟨-, hlin⟩
  have hl : isLinear = true := by
    refine hlin.mpr (hi.resolve_left fun h => hfd ?_)
    simpa using h
  exact ⟨fun _ => trivial, fun h => absurd ⟨hl, by simp⟩ h⟩

/-- What a conversion makes of the other frames can be read. -/
theorem Processed.readable (hc : Converts m m')
    (hb : Bounded frame.width.toNat frame.height.toNat frame.stride.toNat)
    (hs : ∀ d, frame.data = some d → Source m frame d) (hn : ¬ frame.Blank egl force)
    (hp : Processed egl m frame.data frame force frame' m') : frame'.Readable m' := by
  have htight : ∀ {out}, Dest m' (frame.width.toNat * frame.height.toNat * 4) out →
      ({ frame with data := some out, format := fmtXR24, stride := frame.width * 4 } :
        FrameInfo).Readable m' := by
    rintro out ⟨hlen, hlive, -⟩
    refine ⟨out, rfl, hlive, ?_⟩
    rw [hlen, show (frame.width * 4).toNat = 4 * frame.width.toNat from mul_four_toNat hb.width_le]
    exact le_of_eq (by ring)
  cases hp with
  | idle hd hf hi => exact absurd ⟨hd, hf, hi⟩ hn
  | @passed _ d hd =>
    have hsrc := hc.source (hs d hd)
    exact ⟨d, hd, hsrc.live, by rw [Nat.mul_comm]; exact hsrc.len⟩
  | reduced _ _ _ _ _ hout => exact htight hout
  | @untiled _ _ out _ _ _ _ _ _ _ hout => exact ⟨out, rfl, hout.2.1, hout.1.ge⟩
  | gpu _ _ hout => exact htight hout

/-- Without pixels to work on, a conversion that fails has changed nothing. -/
theorem gpuAutoProcess_none_yields :
    Cmd.Yields (gpuAutoProcess u32 none frame force) fun r => r.1 < 0 → r.2 = frame := by
  have hno : (-ENOTSUP, frame).1 < 0 → (-ENOTSUP, frame).2 = frame := fun _ => rfl
  refine .ite (.pure fun _ => rfl) ?_
  apply Cmd.Yields.call_bind
  intro isLinear
  refine .ite (.pure fun _ => rfl) ?_
  have htry : Cmd.Yields (eglAttempt frame) fun r => ∀ r', r = some r' → r'.1 < 0 → r'.2 = frame := by
    have hnone : ∀ r', (none : Option (ℤ × FrameInfo)) = some r' → r'.1 < 0 → r'.2 = frame := by
      simp
    apply Cmd.Yields.ite
    · apply Cmd.Yields.call_bind
      intro avail
      apply Cmd.Yields.ite
      · apply Cmd.Yields.call_bind
        rintro (e | out)
        · refine .ite (.pure ?_) (.pure hnone)
          rintro _ ⟨⟩ -
          rfl
        · refine .pure ?_
          rintro _ ⟨⟩ h
          exact absurd h (lt_irrefl 0)
      · exact .pure hnone
    · exact .pure hnone
  refine .bind htry fun r hr => ?_
  cases r with
  | none => exact .ite (.pure hno) (.pure hno)
  | some r' => exact .pure (hr r' rfl)

/-- The conversion of a checked frame, where the library holds what it holds. -/
theorem gpuAutoProcess_lib {g : WindowRule} {held : Multiset Resource} (hm : m.Buffered)
    (hb : Bounded frame.width.toNat frame.height.toNat frame.stride.toNat)
    (hs : ∀ d, frame.data = some d → Source m frame d) (force : Bool) :
    Cmd.wp (libEnv egl g) (gpuAutoProcess wrap32 frame.data frame force)
      (fun r m' held' => frame.SameBuffer r.2 ∧ Converts m m' ∧ held' = held ∧
        ((frame.Blank egl force ∧ r = (0, frame)) ∨
          (¬ frame.Blank egl force ∧ (r.1 < 0 ∨ (r.1 = 0 ∧ r.2.Readable m'))))) m held := by
  have hspec : Cmd.wp (pipeEnv egl) (gpuAutoProcess wrap32 frame.data frame force) _ m () :=
    gpuAutoProcess_spec wrap32_exact hm hb hs force
  by_cases hn : frame.Blank egl force
  · have hblank : Cmd.wp (pipeEnv egl) (gpuAutoProcess wrap32 frame.data frame force)
        (fun r m' _ => r = (0, frame) ∧ Converts m m') m () :=
      Cmd.wp_mono (Cmd.wp_and (gpuAutoProcess_blank hn) hspec) fun _ _ _ h => ⟨h.1, h.2.1⟩
    refine Cmd.wp_mono (Cmd.wp_quiet libEnv_pipe hblank) ?_
    rintro _ m' _ ⟨⟨rfl, hc⟩, rfl⟩
    exact ⟨.refl frame, hc, rfl, .inl ⟨hn, rfl⟩⟩
  · refine Cmd.wp_mono ((gpuAutoProcess_yields _ _).wp (Cmd.wp_quiet libEnv_pipe hspec)) ?_
    rintro r m' _ ⟨hf, ⟨hc, hr⟩, rfl⟩
    exact ⟨hf, hc, rfl, .inr ⟨hn, hr.imp id fun ⟨h0, hp⟩ => ⟨h0, hp.readable hc hb hs hn⟩⟩⟩

end Process

/-! Who owns what -/

/-- A frame that owns what its private data say, beside which nothing was taken. -/
structure Owned (rest : Multiset Resource) (frame : FrameInfo) (p : FramePriv) (m : Machine)
    (held : Multiset Resource) : Prop where
  ready : m.Ready
  priv : frame.priv = some p
  valid : p.Valid m
  held : held = p.owned + (m.sockets + rest)

/-- What a call leaves: on failure nothing of its own, else what its frame owns. -/
def Settled (rest : Multiset Resource) (ret : ℤ) (frame : FrameInfo) (m : Machine)
    (held : Multiset Resource) : Prop :=
  (ret < 0 ∧ m.Ready ∧ held = m.sockets + rest) ∨ (ret = 0 ∧ ∃ p, Owned rest frame p m held)

section Outcome
variable {egl : Prop} {m : Machine} {rest held : Multiset Resource} {frame : FrameInfo}
  {p : FramePriv}

theorem Loaded.owned (hl : Loaded rest frame p m held) : Owned rest frame p m held :=
  ⟨hl.ready, hl.priv, hl.valid, hl.held⟩

theorem Owned.tunes {m' : Machine} (ho : Owned rest frame p m held) (ht : Tunes m m') :
    Owned rest frame p m' held :=
  ⟨ht.ready ho.ready, ho.priv, ho.valid.tunes ht, by rw [ht.sockets, ho.held]⟩

theorem Owned.converts {m' : Machine} {frame' : FrameInfo} (ho : Owned rest frame p m held)
    (hc : Converts m m') (hf : frame.SameBuffer frame') : Owned rest frame' p m' held where
  ready := ho.ready.converts hc
  priv := by
    rw [hf]
    exact ho.priv
  valid := ho.valid.converts hc
  held := by
    have hs : m'.sockets = m.sockets := by
      unfold Machine.sockets
      rw [hc.ctx]
    rw [hs, ho.held]

theorem Owned.release (ho : Owned rest frame p m held) :
    Cmd.wp (libEnv egl .free) (drmtapFrameRelease frame)
      (fun f m' held' => f = .cleared ∧ m'.Ready ∧ held' = m'.sockets + rest) m held := by
  refine Cmd.wp_mono (drmtapFrameRelease_lib ho.ready ho.priv ho.valid ho.held) ?_
  rintro f m' _ ⟨hf, hc, hr, rfl⟩
  refine ⟨hf, hr, ?_⟩
  unfold Machine.sockets
  rw [hc]

theorem Loaded.process {g : WindowRule} (hl : Loaded rest frame p m held) (force : Bool) :
    Cmd.wp (libEnv egl g) (gpuAutoProcess wrap32 frame.data frame force)
      (fun r m' held' => Owned rest r.2 p m' held' ∧
        ((frame.Blank egl force ∧ r = (0, frame)) ∨
          (¬ frame.Blank egl force ∧ (r.1 < 0 ∨ (r.1 = 0 ∧ r.2.Readable m'))))) m held := by
  refine Cmd.wp_mono (gpuAutoProcess_lib hl.ready.buffered hl.bounded hl.source force) ?_
  rintro r m' _ ⟨hf, hc, rfl, hr⟩
  exact ⟨hl.owned.converts hc hf, hr⟩

theorem concludeGrab_lib {planeId : UInt32} {ret : ℤ} (hret : ret < 0 ∨ ret = 0)
    (ho : Owned rest frame p m held) : Cmd.wp (libEnv egl .free) (concludeGrab planeId ret frame)
      (fun r m' held' => Settled rest r.1 r.2 m' held' ∧ r.1 = ret ∧
        (ret = 0 → r.2 = frame ∧ m'.heap = m.heap)) m held := by
  unfold concludeGrab
  simp only [Cmd.wp_ite, Cmd.wp_bind, Cmd.wp_pure, wp_modifyCtx]
  constructor
  · intro hne
    refine Cmd.wp_mono ho.release ?_
    rintro f m' held' ⟨-, hr, hh⟩
    exact ⟨.inl ⟨hret.resolve_right hne, hr, hh⟩, trivial, fun h => absurd h hne⟩
  · intro h0
    have htunes : Tunes m { m with ctx := m.ctx.setGrabPlane planeId } :=
      ⟨rfl, ⟨rfl, rfl, rfl⟩, rfl, id⟩
    exact ⟨.inr ⟨rfl, p, ho.tunes htunes⟩, (not_not.mp h0).symm, fun _ => ⟨trivial, trivial⟩⟩

theorem grabCleanupPriv_lib {ret : ℤ} (hret : ret < 0) (ho : Owned rest frame p m held)
    (hnone : p.mapped = none) : Cmd.wp (libEnv egl .free) (grabCleanupPriv frame p ret)
      (fun r m' held' => r.1 < 0 ∧ Settled rest r.1 r.2 m' held') m held := by
  have hwin : p.syncStarted = false := by
    by_contra h
    exact (ho.valid.window (by simpa using h)).2 hnone
  unfold grabCleanupPriv
  simp only [Cmd.wp_bind, Cmd.wp_pure]
  have hheld : held = fdOf p.primeFd + (handleOf p.gemHandle + ({.record} + (m.sockets + rest))) := by
    rw [ho.held]
    simp only [FramePriv.owned, mappingOf, windowOf, hnone, hwin]
    simp
    abel
  refine closeFd_lib (fun _ => trivial) hheld ?_
  refine drmtapGemClose_spec rfl (lib_freePriv ho.valid.self rfl ⟨hret, .inl ⟨hret, ?_, rfl⟩⟩)
  exact ho.ready.release ho.valid.selfPrivate

/-- A prepared frame that is handed out without pixels. -/
def Prepared.Blank (egl : Prop) : Prepared → Prop
  | .ready _ frame isVirgl => frame.Blank egl isVirgl
  | _ => False

/-- The end of a grab: nothing is left over, and a mapped grab that succeeds has pixels, unless
what was prepared is blank. -/
theorem finishGrab_lib {doMmap : Bool} {prepared : Prepared} (hp : prepared.Balanced rest m held) :
    Cmd.wp (libEnv egl .free) (finishGrab doMmap prepared) (fun r m' held' =>
      Settled rest r.1 r.2 m' held' ∧
        (doMmap = true → ((r.1 = 0 → r.2.Readable m') ↔ ¬ prepared.Blank egl))) m held := by
  cases prepared with
  | done ret frame =>
    obtain ⟨hneg, hm, hh⟩ := hp
    exact ⟨.inl ⟨hneg, hm, hh⟩, fun _ => iff_of_true (fun h => absurd h hneg.ne) id⟩
  | ready planeId frame isVirgl =>
    obtain ⟨p, hl⟩ := hp
    unfold finishGrab
    simp only [Cmd.wp_ite, Cmd.wp_bind]
    constructor
    · rintro -
      refine Cmd.wp_mono (hl.process isVirgl) ?_
      rintro ⟨ret, frame'⟩ m₁ held₁ ⟨ho, hr⟩
      rcases hr with ⟨hb, hout⟩ | ⟨hb, hr⟩
      · obtain ⟨rfl, rfl⟩ := Prod.mk.inj hout
        refine Cmd.wp_mono (concludeGrab_lib (.inr rfl) ho) ?_
        rintro r m' held' ⟨hset, h0, hsame⟩
        refine ⟨hset, fun _ => iff_of_false (fun hpix => ?_) (not_not.mpr hb)⟩
        exact hb.not_readable ((hsame rfl).1 ▸ hpix h0)
      · refine Cmd.wp_mono (concludeGrab_lib (hr.imp id And.left) ho) ?_
        rintro r m' held' ⟨hset, hret, hsame⟩
        refine ⟨hset, fun _ => iff_of_true (fun h0 => ?_) hb⟩
        obtain ⟨hret', hpix⟩ := hr.resolve_left fun h => h.ne (hret.symm.trans h0)
        obtain ⟨hf, hheap⟩ := hsame hret'
        rw [hf]
        exact hpix.of_heap hheap
    · intro hno
      refine Cmd.wp_mono (concludeGrab_lib (.inr rfl) hl.owned) ?_
      rintro r m' held' ⟨hset, -, -⟩
      exact ⟨hset, fun h => absurd h hno⟩
  | unmapped planeId frame p e =>
    obtain ⟨hl, hmap, hdata⟩ := hp
    have hfail : Cmd.Yields (gpuAutoProcess wrap32 frame.data frame false) fun r =>
        r.1 < 0 → r.2 = frame := by
      rw [hdata]
      exact gpuAutoProcess_none_yields
    have hprocess : Cmd.wp (libEnv egl .free) _ _ m held := hfail.wp (hl.process false)
    rw [hdata] at hprocess
    unfold finishGrab
    simp only [Cmd.wp_ite, Cmd.wp_bind]
    refine Cmd.wp_mono hprocess ?_
    rintro ⟨rc, frame'⟩ m₁ held₁ ⟨hf, ho, hr⟩
    constructor
    · intro hnone
      have hneg : (if rc = 0 then e.neg else rc) < 0 := by
        split_ifs with h0
        · exact e.neg_lt_zero
        · rcases hr with ⟨-, hout⟩ | ⟨-, hr⟩
          · exact absurd (Prod.mk.inj hout).1 h0
          · exact hr.resolve_right fun h => h0 h.1
      refine Cmd.wp_mono (grabCleanupPriv_lib hneg ho hmap) ?_
      rintro r m' held' ⟨hneg, hset⟩
      exact ⟨hset, fun _ => iff_of_true (fun h => absurd h hneg.ne) id⟩
    · intro hsome
      have hpix : frame'.Readable m₁ := by
        rcases hr with ⟨-, hout⟩ | ⟨-, hneg | ⟨-, hpix⟩⟩
        · exact absurd ((Prod.mk.inj hout).2 ▸ hdata) hsome
        · exact absurd (hf hneg ▸ hdata) hsome
        · exact hpix
      refine Cmd.wp_mono (concludeGrab_lib (.inr rfl) ho) ?_
      rintro r m' held' ⟨hset, -, hsame⟩
      refine ⟨hset, fun _ => iff_of_true (fun _ => ?_) id⟩
      obtain ⟨hsame, hheap⟩ := hsame rfl
      rw [hsame]
      exact hpix.of_heap hheap

theorem doGrab_lib {doMmap : Bool} (hm : m.Ready) (frame : FrameInfo) :
    Cmd.wp (libEnv egl .free) (doGrab doMmap frame)
      (fun r m' held' => Settled rest r.1 r.2 m' held') m (m.sockets + rest) := by
  unfold doGrab
  rw [Cmd.wp_bind]
  refine Cmd.wp_mono (prepareGrab_lib hm) ?_
  intro prepared m₁ held₁ hp
  exact Cmd.wp_mono (finishGrab_lib hp) fun _ _ _ h => h.1

theorem drmtapGrabDesc_lib (hm : m.Ready) (desc : DmabufDesc) (frame : FrameInfo) :
    Cmd.wp (libEnv egl .free) (drmtapGrabDesc desc frame)
      (fun r m' held' => Settled rest r.1 r.2.2 m' held') m (m.sockets + rest) := by
  unfold drmtapGrabDesc
  simp only [Cmd.wp_bind, wp_getCtx, Cmd.wp_ite, Cmd.wp_pure, wp_modifyCtx]
  refine Cmd.wp_mono (doGrab_lib hm frame) ?_
  rintro ⟨ret, frame'⟩ m₁ held₁ hset
  refine ⟨fun _ => hset, fun h0 => ⟨fun _ => ?_, fun _ => ?_⟩⟩
  · obtain ⟨p, ho⟩ := (hset.resolve_left fun h => h0 h.1.ne).2
    refine Cmd.wp_mono ho.release ?_
    rintro f m₂ held₂ ⟨-, hr, hh⟩
    have ht : Tunes m₂ { m₂ with ctx := m₂.ctx.setGrabPlane m.ctx.grabPlaneId } :=
      ⟨rfl, ⟨rfl, rfl, rfl⟩, rfl, id⟩
    exact .inl ⟨by decide, ht.ready hr, by rw [ht.sockets, hh]⟩
  · exact (not_not.mp h0 : ret = 0) ▸ hset

end Outcome

theorem Machine.opened_ready (driver : String) : (Machine.opened driver).Ready where
  buffered := Machine.opened_buffered driver
  pixel := by simp [Machine.opened, Ctx.opened]
  memo := by simp [Machine.opened, Ctx.opened, Ctx.MemoOk]

/-- The three plain grabs balance what they take, whatever is answered: a failure leaves nothing
beside the connection to the helper, a success what the frame owns, and to release the frame, then
or later, gives exactly that back. A window is open while it is owned. -/
theorem plain_grabs_balance {egl : Prop} {m : Machine} (hm : m.Ready)
    (rest : Multiset Resource) (frame : FrameInfo) (desc : DmabufDesc) :
    Cmd.wp (libEnv egl .free) (drmtapGrab frame)
        (fun r m' held => Settled rest r.1 r.2 m' held) m (m.sockets + rest) ∧
      Cmd.wp (libEnv egl .free) (drmtapGrabMapped frame)
        (fun r m' held => Settled rest r.1 r.2 m' held) m (m.sockets + rest) ∧
      Cmd.wp (libEnv egl .free) (drmtapGrabDesc desc frame)
        (fun r m' held => Settled rest r.1 r.2.2 m' held) m (m.sockets + rest) ∧
      ∀ (frame : FrameInfo) (p : FramePriv) (m : Machine) (held : Multiset Resource),
        Owned rest frame p m held →
        Cmd.wp (libEnv egl .free) (drmtapFrameRelease frame)
          (fun f m' held' => f = .cleared ∧ m'.Ready ∧ held' = m'.sockets + rest) m held :=
  ⟨doGrab_lib hm frame, doGrab_lib hm frame, drmtapGrabDesc_lib hm desc frame,
    fun _ _ _ _ ho => ho.release⟩

theorem plain_grabs_balance_opened :
    Cmd.wp (libEnv False .free) (drmtapGrabMapped .cleared)
      (fun r m' held => Settled 0 r.1 r.2 m' held) (.opened "i915")
      ((Machine.opened "i915").sockets + 0) :=
  (plain_grabs_balance (Machine.opened_ready _) 0 .cleared
    (descOfGrab (.opened "i915" 0) .cleared)).2.1

end Drmtap
