import Drmtap.FastSlots

/-! The fast path balances what it takes, from call to call. -/
namespace Drmtap

open Memory Effect

/-- What a call of the fast path leaves: its slots hold all that it took, and a frame that it
returns has pixels. -/
structure FastDone (fd : ℤ) (R : Multiset Resource) (ret : ℤ) (frame : FrameInfo) (m : Machine)
    (held : Multiset Resource) : Prop where
  fast : m.Fast
  helperFd : m.ctx.helperFd = fd
  held : held = m.ctx.owned + R
  sign : ret < 0 ∨ ret = 0
  pixels : ret = 0 → frame.Readable m

section Fast
variable {egl : Prop} {g : WindowRule} {m : Machine} {rest R held : Multiset Resource}
  {frame : FrameInfo}

/-- A call that ends with an error. -/
theorem FastDone.failed (hf : m.Fast) {ret : ℤ} (hret : ret < 0) (hh : held = m.ctx.owned + R) :
    FastDone m.ctx.helperFd R ret frame m held :=
  ⟨hf, rfl, hh, .inl hret, fun h => absurd h hret.ne⟩

theorem processFast_lib (hf : m.Fast)
    (hb : Bounded frame.width.toNat frame.height.toNat frame.stride.toNat) {d : Slice}
    (hd : frame.data = some d) (hs : Source m frame d) (hh : held = m.ctx.owned + R) :
    Cmd.wp (libEnv egl g) (processFast frame)
      (fun r m' held' => FastDone m.ctx.helperFd R r.1 r.2 m' held') m held := by
  have hsrc : ∀ d', frame.data = some d' → Source m frame d' := by
    intro d' hd'
    obtain rfl := Option.some.inj (hd.symm.trans hd')
    exact hs
  unfold processFast
  simp only [Cmd.wp_bind, Cmd.wp_ite, Cmd.wp_pure, wp_getCtx, wp_modifyCtx]
  refine Cmd.wp_mono (gpuAutoProcess_lib hf.ready.buffered hb hsrc false) ?_
  rintro ⟨ret, frame'⟩ m₁ _ ⟨-, hc, rfl, hr⟩
  replace hr := (hr.resolve_left fun h => absurd (hd.symm.trans h.1.1) (by simp)).2
  have hf₁ := hf.converts hc
  have hctx : m₁.ctx.helperFd = m.ctx.helperFd ∧ m₁.ctx.owned = m.ctx.owned := by
    rw [hc.ctx]
    exact ⟨rfl, rfl⟩
  constructor
  · intro hne
    rw [← hctx.1]
    exact .failed hf₁ (hr.resolve_right fun h => hne h.1) (by rw [hh, hctx.2])
  · intro h0
    have hpix : frame'.Readable m₁ := (hr.resolve_left fun h => h0 h.ne).2
    exact ⟨hf₁.tunes ⟨rfl, ⟨rfl, rfl, rfl⟩, rfl, id⟩ ⟨rfl, rfl⟩, hctx.1, hh.trans (hctx.2 ▸ rfl),
      .inr rfl, fun _ => hpix.of_heap rfl⟩

theorem FastSlot.Cached.source {slot : FastSlot} (hc : slot.Cached m) (fbId : UInt32) :
    ∃ d, (slot.frame fbId).data = some d ∧ Source m (slot.frame fbId) d := by
  obtain ⟨b, hb, hw, hp, hl⟩ := hc.mapped
  refine ⟨b, hb, hw.live, hp.1, ?_⟩
  rw [hl, hc.size]
  exact le_of_eq (Nat.mul_comm _ _)

theorem showSlot_lib (hf : m.Fast) {i : SlotId} (hi : (m.ctx.fastSlots i).Cached m) (fbId : UInt32)
    (hh : held = m.ctx.owned + R) : Cmd.wp (libEnv egl g) (showSlot i fbId)
      (fun r m' held' => FastDone m.ctx.helperFd R r.1 r.2 m' held') m held := by
  unfold showSlot getSlot
  simp only [Cmd.wp_bind, wp_getCtx, Cmd.wp_pure, wp_modifyCtx]
  have hf₁ : ({ m with ctx := m.ctx.restage (m.ctx.fastSlots i) } : Machine).Fast :=
    hf.tunes ⟨rfl, ⟨rfl, rfl, rfl⟩, rfl, id⟩ ⟨rfl, rfl⟩
  obtain ⟨d, hd, hs⟩ := hi.source fbId
  exact processFast_lib hf₁ hi.bounded hd ⟨hs.live, hs.apart, hs.len⟩ hh

/-- The bytes of a cached buffer are made current; its window is the only one then. -/
theorem refreshSlot_lib (hf : m.Fast) (hg : g.Allows rest) (hR : WindowsIn rest R) {i : SlotId}
    (hi : (m.ctx.fastSlots i).fbId ≠ 0) (hh : held = m.ctx.owned + R) :
    Cmd.wp (libEnv egl g) (refreshSlot i) (fun _ m' held' => m'.Fast ∧ SetsWindows m m' ∧
      held' = m'.ctx.owned + R) m held := by
  unfold refreshSlot
  simp only [Cmd.wp_bind, wp_getCtx, Cmd.wp_ite, Cmd.wp_pure]
  constructor
  · intro _
    refine Cmd.wp_mono (virtioTransferFromHost_lib _ _ _) ?_
    rintro (_ | e) _ _ ⟨rfl, rfl⟩
    · rw [Cmd.wp_bind]
      refine Cmd.wp_mono (fastSyncClose_lib hf hh) ?_
      rintro _ m₁ held₁ ⟨hf₁, hs₁, -, hh₁⟩
      exact ⟨hf₁, hs₁, hh₁⟩
    · exact ⟨hf, .refl _, hh⟩
  · intro _
    exact fastSyncBegin_lib hf hg hR hi hh

theorem SetsWindows.cached {m' : Machine} (hs : SetsWindows m m') (hf : m'.Fast) {i : SlotId}
    (hi : (m.ctx.fastSlots i).fbId ≠ 0) : (m'.ctx.fastSlots i).Cached m' :=
  (hf.slots i).cached (by rwa [hs.fbId i])

theorem SetsWindows.helperFd {m' : Machine} (hs : SetsWindows m m') :
    m'.ctx.helperFd = m.ctx.helperFd := by rw [hs.ctx]

theorem fastSame_lib (hf : m.Fast) (hg : g.Allows rest) (hR : WindowsIn rest R) {i : SlotId}
    (hi : (m.ctx.fastSlots i).fbId ≠ 0) (fbId : UInt32) (hh : held = m.ctx.owned + R) :
    Cmd.wp (libEnv egl g) (fastSame i fbId frame)
      (fun r m' held' => FastDone m.ctx.helperFd R r.1 r.2 m' held') m held := by
  unfold fastSame
  rw [Cmd.wp_bind]
  refine Cmd.wp_mono (refreshSlot_lib hf hg hR hi hh) ?_
  rintro (_ | e) m₁ held₁ ⟨hf₁, hs₁, hh₁⟩
  · rw [← hs₁.helperFd]
    exact showSlot_lib hf₁ (hs₁.cached hf₁ hi) fbId hh₁
  · rw [← hs₁.helperFd]
    exact .failed hf₁ e.neg_lt_zero hh₁

theorem fastHit_lib (hf : m.Fast) (hg : g.Allows rest) (hR : WindowsIn rest R) {i : SlotId}
    (hi : (m.ctx.fastSlots i).fbId ≠ 0) (fbId : UInt32) (hh : held = m.ctx.owned + R) :
    Cmd.wp (libEnv egl g) (fastHit i fbId frame)
      (fun r m' held' => FastDone m.ctx.helperFd R r.1 r.2 m' held') m held := by
  unfold fastHit
  rw [Cmd.wp_bind]
  refine Cmd.wp_mono (refreshSlot_lib hf hg hR hi hh) ?_
  rintro (_ | e) m₁ held₁ ⟨hf₁, hs₁, hh₁⟩
  · simp only [Cmd.wp_bind, wp_modifyCtx]
    have hf₂ : ({ m₁ with ctx := m₁.ctx.setFastLast fbId } : Machine).Fast :=
      hf₁.tunes ⟨rfl, ⟨rfl, rfl, rfl⟩, rfl, id⟩ ⟨rfl, rfl⟩
    rw [← hs₁.helperFd]
    exact showSlot_lib hf₂ ((hf₂.slots i).cached (hs₁.cached hf₁ hi).fbId) fbId hh₁
  · rw [← hs₁.helperFd]
    exact .failed hf₁ e.neg_lt_zero hh₁

/-! A framebuffer that is new -/

/-- What comes of mapping a buffer. -/
def Mapped (m : Machine) (held : Multiset Resource) (fd : ℤ) (size : ℕ) (r : Option Slice × Bool)
    (m' : Machine) (held' : Multiset Resource) : Prop :=
  match r.1 with
  | some s => ∃ bytes, s = (m.heap.alloc size bytes).1 ∧
      m' = { m with heap := (m.heap.alloc size bytes).2 } ∧
      held' = windowOf r.2 fd + ({.mapping} + held)
  | none => m'.Fast ∧ m'.ctx = { m.ctx with fastNoCpuMap := m'.ctx.fastNoCpuMap } ∧
      held' = windowOf r.2 fd + held

/-- A mapping that was made and dropped. -/
theorem Machine.Fast.alloc_release (hf : m.Fast) (size : ℕ) (g : ℕ → UInt8) :
    (⟨m.ctx, (m.heap.alloc size g).2.release (m.heap.alloc size g).1.base⟩ : Machine).Fast :=
  (hf.alloc size g).release (hf.ready.private_next le_rfl) fun i _ ha =>
    ((hf.slots i).base_lt ha).ne

theorem mapFast_lib (hf : m.Fast) (hg : g.Allows rest) (hin : WindowsIn rest held) (fb2 : Fb2)
    (primeFd : ℤ) : Cmd.wp (libEnv egl g) (mapFast fb2 primeFd)
      (Mapped m held primeFd ((fb2.pitches 0).toNat * fb2.height.toNat)) m held := by
  unfold mapFast
  simp only [Cmd.wp_bind]
  refine Cmd.wp_mono (mapVirtio_lib fb2 _) ?_
  rintro (_ | s) m₁ held₁ h
  · obtain ⟨rfl, rfl⟩ := h
    simp only [Cmd.wp_bind, wp_getCtx, Cmd.wp_ite, Cmd.wp_pure]
    refine ⟨fun _ => ⟨hf, rfl, (zero_add _).symm⟩, fun _ => lib_take rfl (hg _ hin _) ?_⟩
    intro started _
    rw [takes_syncStart]
    have hno (m' : Machine) (hf' : m'.Fast) (hctx : m'.ctx = m₁.ctx) :
        ({ m' with ctx := m'.ctx.setFastNoCpuMap } : Machine).Fast ∧
          m'.ctx.setFastNoCpuMap = { m₁.ctx with fastNoCpuMap := true } := by
      rw [hctx]
      exact ⟨hctx ▸ hf'.tunes ⟨rfl, ⟨rfl, rfl, rfl⟩, rfl, id⟩ ⟨rfl, rfl⟩, rfl⟩
    refine lib_mmap ?_ ?_
    · intro e
      simp only [Cmd.wp_bind, wp_modifyCtx, Cmd.wp_pure]
      obtain ⟨hf', hctx⟩ := hno m₁ hf rfl
      exact ⟨hf', hctx, rfl⟩
    · intro bytes
      simp only [Cmd.wp_bind, Cmd.wp_ite, wp_modifyCtx, Cmd.wp_pure]
      refine lib_quiet ⟨⟨rfl, fun r => by cases r <;> rfl⟩, id⟩ fun forced _ => ⟨fun _ => ?_, fun _ =>
        ⟨bytes, rfl, rfl, ?_⟩⟩
      · refine lib_munmap (Heap.alloc_whole _ _ _) rfl ?_
        obtain ⟨hf', hctx⟩ := hno _ (hf.alloc_release _ bytes) rfl
        exact ⟨hf', hctx, rfl⟩
      · exact add_left_comm _ _ _
  · obtain ⟨bytes, hs, hm, hh⟩ := h
    refine ⟨bytes, hs, hm, ?_⟩
    rw [hh]
    exact (zero_add _).symm

theorem dropBuffer_lib {fd : ℕ} {started : Bool} {handle : UInt32} {m : Machine}
    (hg : g.Allows rest) (hR : WindowsIn rest R)
    (hh : held = windowOf started fd + (fdOf fd + (handleOf handle + R)))
    {Q : Unit → Machine → Multiset Resource → Prop} (hQ : Q () m R) :
    Cmd.wp (libEnv egl g) (dropBuffer fd started handle) Q m held := by
  have hin : WindowsIn rest (fdOf fd + (handleOf handle + R)) :=
    (WindowsIn.of_windowless (windowless_fdOf _)).add
      ((WindowsIn.of_windowless (windowless_handleOf _)).add hR)
  have hclose : Cmd.wp (libEnv egl g) (sys (.close fd)) (fun _ m' held' =>
      Cmd.wp (libEnv egl g) (drmtapGemClose handle) Q m' held') m
      (fdOf fd + (handleOf handle + R)) :=
    lib_close (hg _ hin _) rfl (drmtapGemClose_spec rfl hQ)
  subst hh
  unfold dropBuffer
  simp only [Cmd.wp_ite, Cmd.wp_bind]
  constructor
  · rintro rfl
    exact lib_give rfl (fun _ => rfl) (g.others _ id _) rfl fun _ => hclose
  · intro hno
    rw [windowOf, if_neg hno, zero_add]
    exact hclose

theorem Scans.sameSlots {m m' : Machine} (h : Scans m m') : SameSlots m.ctx m'.ctx := by
  rw [h.ctx]
  exact ⟨rfl, rfl⟩

theorem SameSlots.owned {c c' : Ctx} (h : SameSlots c c') : c'.owned = c.owned := by
  unfold Ctx.owned
  rw [h.slots]

/-- A slot is free for a framebuffer that none has. -/
structure Vacant (fbId : UInt32) (i : SlotId) (m : Machine) : Prop where
  fast : m.Fast
  closed : m.Closed
  initialized : m.ctx.fastInitialized = true
  slot : m.ctx.fastSlots i = .empty
  fresh : ∀ j, (m.ctx.fastSlots j).fbId ≠ fbId

theorem Vacant.of_same {fbId : UInt32} {i : SlotId} {m' : Machine} (hv : Vacant fbId i m)
    (hf : m'.Fast) (hs : SameSlots m.ctx m'.ctx) : Vacant fbId i m' where
  fast := hf
  closed j := by
    rw [hs.slots]
    exact hv.closed j
  initialized := hs.initialized.trans hv.initialized
  slot := by
    rw [hs.slots]
    exact hv.slot
  fresh j := by
    rw [hs.slots]
    exact hv.fresh j

theorem Vacant.windowsIn {fbId : UInt32} {i : SlotId} (hv : Vacant fbId i m)
    (hR : WindowsIn rest R) : WindowsIn rest (m.ctx.owned + R) :=
  (WindowsIn.of_windowless (Ctx.windowless_owned hv.closed)).add hR

theorem frameOfFd_data (fb2 : Fb2) (fbId width : UInt32) (fd : ℤ) :
    (frameOfFd fb2 fbId width fd).data = none := rfl

/-- A buffer that cannot be mapped is given back, whoever read it. -/
theorem fastUnmapped_lib {fbId : UInt32} {i : SlotId} (hv : Vacant fbId i m) (hg : g.Allows rest)
    (hR : WindowsIn rest R) {fb2 : Fb2} {fd : ℕ} {started : Bool}
    (hb : Bounded fb2.width.toNat fb2.height.toNat (fb2.pitches 0).toNat)
    (hh : held = windowOf started fd + (fdOf fd + (handleOf (fb2.handles 0) + (m.ctx.owned + R)))) :
    Cmd.wp (libEnv egl g) (fastUnmapped fb2 fbId fd started frame)
      (fun r m' held' => FastDone m.ctx.helperFd R r.1 r.2 m' held') m held := by
  unfold fastUnmapped
  simp only [Cmd.wp_bind, Cmd.wp_ite, Cmd.wp_pure, wp_modifyCtx, wp_getCtx]
  refine lib_quiet ⟨⟨rfl, fun r => by cases r <;> rfl⟩, id⟩ fun avail _ => ⟨fun _ => ?_, fun _ => ?_⟩
  · refine Cmd.wp_mono (drmtapScanoutWidth_lib hv.fast.ready _ _) ?_
    rintro width m₁ held₁ ⟨⟨hs, hpos, hle⟩, hheld⟩
    have hf₁ := hv.fast.tunes hs.tunes hs.sameSlots
    have hw : 0 < width.toNat := UInt32.lt_iff_toNat_lt.mp
      (hpos (UInt32.lt_iff_toNat_lt.mpr hb.width_pos))
    have hproc : Cmd.wp (libEnv egl g) (gpuAutoProcess wrap32 (frameOfFd fb2 fbId width fd).data
        (frameOfFd fb2 fbId width fd) false) _ m₁ held₁ := gpuAutoProcess_lib hf₁.ready.buffered
      (hb.narrow hw (UInt32.le_iff_toNat_le.mp hle)) (by simp [frameOfFd_data]) false
    refine Cmd.wp_mono hproc ?_
    rintro ⟨pr, frame'⟩ m₂ _ ⟨-, hc, rfl, hr⟩
    have hv₂ : Vacant fbId i m₂ := by
      refine (hv.of_same hf₁ hs.sameSlots).of_same (hf₁.converts hc) ?_
      rw [hc.ctx]
      exact ⟨rfl, rfl⟩
    have hsame : m₂.ctx.owned = m.ctx.owned ∧ m₂.ctx.helperFd = m.ctx.helperFd := by
      constructor
      · rw [← hs.sameSlots.owned, hc.ctx]
        rfl
      · rw [hc.ctx, hs.ctx]
    have hlast : ({ m₂ with ctx := m₂.ctx.setFastLast 0 } : Machine).Fast :=
      hv₂.fast.tunes ⟨rfl, ⟨rfl, rfl, rfl⟩, rfl, id⟩ ⟨rfl, rfl⟩
    refine dropBuffer_lib hg (hv₂.windowsIn hR) (by rw [hheld, hh, hsame.1]) ⟨fun hne => ?_, fun h0 => ?_⟩
    · rw [← hsame.2]
      refine .failed hlast ?_ rfl
      split_ifs with hnone
      · decide
      · rw [if_neg hnone] at hne
        rcases hr with ⟨-, hout⟩ | ⟨-, hr⟩
        · exact absurd (Prod.mk.inj hout).1 hne
        · exact hr.resolve_right fun h => hne h.1
    · have hboth : pr = 0 ∧ frame'.Readable m₂ := by
        split_ifs at h0 with hnone
        · exact absurd (show (- EIO : ℤ) ≠ 0 by decide) h0
        · have hpr : pr = 0 := not_not.mp h0
          rcases hr with ⟨-, hout⟩ | ⟨-, hr⟩
          · rw [(Prod.mk.inj hout).2] at hnone
            exact absurd ⟨hpr, frameOfFd_data _ _ _ _⟩ hnone
          · exact ⟨hpr, (hr.resolve_left fun h => h.ne hpr).2⟩
      exact ⟨hlast.tunes ⟨rfl, ⟨rfl, rfl, rfl⟩, rfl, id⟩ ⟨rfl, rfl⟩, hsame.2, rfl, .inr rfl,
        fun _ => hboth.2⟩
  · exact dropBuffer_lib hg (hv.windowsIn hR) hh (.failed hv.fast (by decide) rfl)

/-- A slot in its place. -/
theorem Vacant.setSlot {fbId : UInt32} {i : SlotId} (hv : Vacant fbId i m) {slot : FastSlot}
    (hslot : slot.Cached m) (hid : slot.fbId = fbId)
    (hbase : ∀ j s t, slot.mmapPtr = some s → (m.ctx.fastSlots j).mmapPtr = some t →
      s.base ≠ t.base) : ({ m with ctx := m.ctx.setSlot i slot } : Machine).Fast ∧
    (m.ctx.setSlot i slot).owned = slot.owned + m.ctx.owned := by
  constructor
  · refine hv.fast.setSlot (.inr hslot) (fun j _ => ⟨fun _ he => ?_, hbase j, fun _ =>
      hv.closed j⟩) fun h => ?_
    · exact hv.fresh j (he.symm.trans hid)
    · exact absurd (hv.initialized.symm.trans h) (by simp)
  · rw [Ctx.owned_setSlot, Ctx.owned_eq m.ctx i, hv.slot, FastSlot.owned_empty, zero_add]

/-- The resources of a new mapping are those of its slot. -/
theorem slotOfFb2_owned (fb2 : Fb2) (fbId width : UInt32) (fd : ℤ) (s : Slice) (started : Bool)
    (ctx : Ctx) : (slotOfFb2 fb2 fbId width fd s started ctx).owned =
      handleOf (fb2.handles 0) + (fdOf fd + ({.mapping} + windowOf started fd)) := rfl

theorem storeSlot_lib {fbId : UInt32} {i : SlotId} (hv : Vacant fbId i m) {fb2 : Fb2} {fd : ℕ}
    {started : Bool} (h0 : fbId ≠ 0) (hh0 : fb2.handles 0 ≠ 0)
    (hb : Bounded fb2.width.toNat fb2.height.toNat (fb2.pitches 0).toNat) (bytes : ℕ → UInt8)
    (hh : held = windowOf started fd + ({.mapping} +
      (fdOf fd + (handleOf (fb2.handles 0) + (m.ctx.owned + R))))) :
    Cmd.wp (libEnv egl g) (storeSlot i fb2 fbId fd
        (m.heap.alloc ((fb2.pitches 0).toNat * fb2.height.toNat) bytes).1 started)
      (fun r m' held' => FastDone m.ctx.helperFd R r.1 r.2 m' held')
      { m with heap := (m.heap.alloc ((fb2.pitches 0).toNat * fb2.height.toNat) bytes).2 } held := by
  have halloc := hv.fast.alloc ((fb2.pitches 0).toNat * fb2.height.toNat) bytes
  have hlen : (m.heap.alloc ((fb2.pitches 0).toNat * fb2.height.toNat) bytes).1.len =
      (fb2.pitches 0).toNat * fb2.height.toNat := rfl
  have hwhole := Heap.alloc_whole m.heap ((fb2.pitches 0).toNat * fb2.height.toNat) bytes
  have hbase : ∀ j t, (m.ctx.fastSlots j).mmapPtr = some t →
      (m.heap.alloc ((fb2.pitches 0).toNat * fb2.height.toNat) bytes).1.base ≠ t.base :=
    fun j t ht => ((hv.fast.slots j).base_lt ht).ne'
  have hpriv : m.Private (m.heap.alloc ((fb2.pitches 0).toNat * fb2.height.toNat) bytes).1.base :=
    hv.fast.ready.private_next le_rfl
  generalize m.heap.alloc ((fb2.pitches 0).toNat * fb2.height.toNat) bytes = a at *
  unfold storeSlot Drmtap.setSlot
  simp only [Cmd.wp_bind, wp_getCtx, wp_modifyCtx]
  refine Cmd.wp_mono (drmtapScanoutWidth_lib halloc.ready _ _) ?_
  rintro width m₁ held₁ ⟨⟨hs, hpos, hle⟩, hheld⟩
  have hw : 0 < width.toNat := UInt32.lt_iff_toNat_lt.mp
    (hpos (UInt32.lt_iff_toNat_lt.mpr hb.width_pos))
  have hsame : SameSlots m.ctx m₁.ctx := hs.sameSlots
  have hv₁ : Vacant fbId i m₁ := hv.of_same (halloc.tunes hs.tunes hs.sameSlots) hsame
  have hcached : (slotOfFb2 fb2 fbId width fd a.1 started m₁.ctx).Cached m₁ :=
    { fbId := h0
      handle := hh0
      fd := Int.natCast_nonneg _
      bounded := hb.narrow hw (UInt32.le_iff_toNat_le.mp hle)
      mapped := ⟨a.1, rfl, hs.heap ▸ hwhole, (hs.tunes.buffers.isPrivate _).mpr hpriv, hlen⟩
      size := rfl }
  obtain ⟨hf₂, howned⟩ := hv₁.setSlot hcached rfl (by
    rintro j _ t ⟨⟩ ht
    rw [hsame.slots] at ht
    exact hbase j t ht)
  have hf₃ : (⟨(m₁.ctx.setSlot i (slotOfFb2 fb2 fbId width fd a.1 started m₁.ctx)).setFastLast fbId,
      m₁.heap⟩ : Machine).Fast :=
    hf₂.tunes ⟨rfl, ⟨rfl, rfl, rfl⟩, rfl, id⟩ ⟨rfl, rfl⟩
  obtain ⟨d, hd, hsrc⟩ := hcached.source fbId
  have hfd : m₁.ctx.helperFd = m.ctx.helperFd := by rw [hs.ctx]
  rw [← hfd]
  refine processFast_lib hf₃ hcached.bounded hd ⟨hsrc.live, hsrc.apart, hsrc.len⟩ ?_
  change _ = (m₁.ctx.setSlot i _).owned + R
  rw [howned, slotOfFb2_owned, hheld, hh, hsame.owned]
  abel

theorem fastExported_lib {fbId : UInt32} {i : SlotId} (hv : Vacant fbId i m) (hg : g.Allows rest)
    (hR : WindowsIn rest R) {fb2 : Fb2} {fd : ℕ} (h0 : fbId ≠ 0) (hh0 : fb2.handles 0 ≠ 0)
    (hb : Bounded fb2.width.toNat fb2.height.toNat (fb2.pitches 0).toNat)
    (hh : held = fdOf fd + (handleOf (fb2.handles 0) + (m.ctx.owned + R))) :
    Cmd.wp (libEnv egl g) (fastExported i fb2 fbId fd frame)
      (fun r m' held' => FastDone m.ctx.helperFd R r.1 r.2 m' held') m held := by
  have hin : WindowsIn rest held := hh ▸ (WindowsIn.of_windowless (windowless_fdOf _)).add
    ((WindowsIn.of_windowless (windowless_handleOf _)).add (hv.windowsIn hR))
  unfold fastExported
  rw [Cmd.wp_bind]
  refine Cmd.wp_mono (mapFast_lib hv.fast hg hin fb2 fd) ?_
  rintro ⟨_ | s, started⟩ m₁ held₁ h
  · obtain ⟨hf₁, hctx, rfl⟩ := h
    have hs : SameSlots m.ctx m₁.ctx := by
      rw [hctx]
      exact ⟨rfl, rfl⟩
    have hfd : m₁.ctx.helperFd = m.ctx.helperFd := by rw [hctx]
    rw [← hfd]
    exact fastUnmapped_lib (hv.of_same hf₁ hs) hg hR hb (by rw [hh, hs.owned])
  · obtain ⟨bytes, rfl, rfl, rfl⟩ := h
    exact storeSlot_lib hv h0 hh0 hb bytes (by rw [hh])

theorem fastMiss_lib {fbId : UInt32} {i : SlotId} (hv : Vacant fbId i m) (hg : g.Allows rest)
    (hR : WindowsIn rest R) (h0 : fbId ≠ 0) (hh : held = m.ctx.owned + R) :
    Cmd.wp (libEnv egl g) (fastMiss i fbId frame)
      (fun r m' held' => FastDone m.ctx.helperFd R r.1 r.2 m' held') m held := by
  unfold fastMiss
  rw [Cmd.wp_bind]
  refine lib_take rfl (g.others _ id _) ?_
  rintro (e | fb2) -
  · exact .failed hv.fast e.neg_lt_zero (by rw [hh]; exact zero_add _)
  · simp only [Cmd.wp_bind, Cmd.wp_ite, Cmd.wp_pure, wp_modifyCtx]
    refine closeAuxiliaryGemHandles_spec (rfl : _ = fb2.objects + held) ⟨fun hzero => ?_, fun hh0 =>
      ⟨fun hbad => ?_, fun hok => ?_⟩⟩
    · have hf₁ : ({ m with ctx := m.ctx.setFastNoPrivilege } : Machine).Fast :=
        hv.fast.tunes ⟨rfl, ⟨rfl, rfl, rfl⟩, rfl, id⟩ ⟨rfl, rfl⟩
      refine Cmd.wp_mono (drmtapFastCleanup_lib hf₁ hg hR (by
        rw [handleOf, if_pos hzero, zero_add, hh]
        rfl)) ?_
      rintro _ m' held' ⟨hf', hctx, rfl⟩
      have hempty : m'.ctx.owned = 0 := by
        rw [hctx]
        exact Ctx.owned_eq_zero fun _ => rfl
      refine ⟨hf', by rw [hctx]; rfl, by rw [hempty, zero_add], .inl (by decide), fun h => ?_⟩
      exact absurd h (show (-EACCES : ℤ) ≠ 0 by decide)
    · refine drmtapGemClose_spec rfl (.failed hv.fast ?_ hh)
      exact lt_of_le_of_ne (checkGeometry_nonpos _ _ _) hbad
    · have hstage : ({ m with ctx := m.ctx.stageFb2 fb2 } : Machine).Fast :=
        hv.fast.tunes ⟨rfl, ⟨rfl, rfl, rfl⟩, rfl, id⟩ ⟨rfl, rfl⟩
      have hv' := hv.of_same hstage ⟨rfl, rfl⟩
      refine lib_take rfl (g.others _ id _) ?_
      rintro (e | fd) -
      · simp only [Cmd.wp_bind, Cmd.wp_pure]
        have hsame : libLedger.takes (.primeHandleToFD (fb2.handles 0)) (.error e) +
            (handleOf (fb2.handles 0) + held) = handleOf (fb2.handles 0) + held := zero_add _
        rw [hsame]
        exact drmtapGemClose_spec rfl (.failed hstage e.neg_lt_zero hh)
      · refine fastExported_lib hv' hg hR h0 hh0 (checkGeometry_eq_zero.mp (not_not.mp hok)) ?_
        rw [fdOf_natCast, hh]
        rfl

theorem FastSlot.caches_iff {slot : FastSlot} {fbId : UInt32} :
    slot.caches fbId = true ↔ slot.fbId = fbId ∧ slot.mmapPtr.isSome := by
  simp [FastSlot.caches]

theorem fastFlip_lib {fbId : UInt32} (hf : m.Fast) (hi : m.ctx.fastInitialized = true)
    (hg : g.Allows rest) (hR : WindowsIn rest R) (h0 : fbId ≠ 0) (hh : held = m.ctx.owned + R) :
    Cmd.wp (libEnv egl g) (fastFlip fbId frame)
      (fun r m' held' => FastDone m.ctx.helperFd R r.1 r.2 m' held') m held := by
  unfold fastFlip getSlot
  simp only [Cmd.wp_bind, wp_getCtx, Cmd.wp_pure, Cmd.wp_ite]
  refine Cmd.wp_mono (fastSyncClose_lib hf hh) ?_
  rintro _ m₁ held₁ ⟨hf₁, hs₁, hc₁, hh₁⟩
  refine Cmd.wp_mono (findOrAllocSlot_lib hf₁ hc₁ hg hR h0 hh₁) ?_
  rintro i m₂ held₂ ⟨ha, hh₂⟩
  have hfd : m₂.ctx.helperFd = m.ctx.helperFd := by rw [ha.ctx, hs₁.ctx]
  rw [← hfd]
  constructor
  · intro hcaches
    have hid := (FastSlot.caches_iff.mp hcaches).1
    exact fastHit_lib ha.fast hg hR (hid ▸ h0) fbId hh₂
  · intro hno
    rcases ha.slot with hid | ⟨hempty, hfresh⟩
    · obtain ⟨b, hb, -⟩ := ((ha.fast.slots i).cached (hid ▸ h0)).mapped
      exact absurd (FastSlot.caches_iff.mpr ⟨hid, by rw [hb]; rfl⟩) hno
    · have hinit : m₂.ctx.fastInitialized = true := by rw [ha.ctx, hs₁.ctx, hi]
      exact fastMiss_lib ⟨ha.fast, ha.closed, hinit, hempty, hfresh⟩ hg hR h0 hh₂

theorem fastFrame_lib {fbId : UInt32} (hf : m.Fast) (hi : m.ctx.fastInitialized = true)
    (hg : g.Allows rest) (hR : WindowsIn rest R) (h0 : fbId ≠ 0) (hh : held = m.ctx.owned + R) :
    Cmd.wp (libEnv egl g) (fastFrame fbId frame)
      (fun r m' held' => FastDone m.ctx.helperFd R r.1 r.2 m' held') m held := by
  unfold fastFrame Ctx.lastSlot
  simp only [Cmd.wp_bind, wp_getCtx]
  cases hlast : (if fbId = m.ctx.fastLastFbId then m.ctx.findSlot fun slot => slot.caches fbId
    else none) with
  | none => exact fastFlip_lib hf hi hg hR h0 hh
  | some i =>
    have hfind : m.ctx.findSlot (fun slot => slot.caches fbId) = some i := by
      split_ifs at hlast
      exact hlast
    have hid := (FastSlot.caches_iff.mp (Ctx.findSlot_eq_some hfind)).1
    exact fastSame_lib hf hg hR (hid ▸ h0) fbId hh

/-- The plane is found once. -/
theorem startFast_lib (hf : m.Fast) (hh : held = m.ctx.owned + R) :
    Cmd.wp (libEnv egl g) startFast (fun r m' held' => m'.Fast ∧
      m'.ctx.helperFd = m.ctx.helperFd ∧ (r = true → m'.ctx.fastInitialized = true) ∧
      held' = m'.ctx.owned + R) m held := by
  unfold startFast readHdrForCurrentCrtc readHdrMetadataDirect
  simp only [Cmd.wp_bind, wp_getCtx, wp_modifyCtx, Cmd.wp_ite, Cmd.wp_pure]
  refine ⟨fun hi => ⟨hf, trivial, fun _ => hi, hh⟩, fun hi => ?_⟩
  have hempty := hf.idle (by simpa using hi)
  have hfind : Cmd.Steps ScanoutOp Scans findPrimaryPlane :=
    findPrimaryPlane_steps.mono (fun _ => .inl) fun _ _ => Scans.of_selects
  refine Cmd.wp_mono (hfind.wp libEnv_scanout m held) ?_
  rintro planeId m₁ _ ⟨hs, rfl⟩
  have hf₁ := hf.tunes hs.tunes hs.sameSlots
  have hplane : ({ m₁ with ctx := m₁.ctx.setFastPlane planeId } : Machine).Fast :=
    hf₁.tunes ⟨rfl, ⟨rfl, rfl, rfl⟩, rfl, id⟩ ⟨rfl, rfl⟩
  have hfd : m₁.ctx.helperFd = m.ctx.helperFd := by rw [hs.ctx]
  have hread (crtcId : UInt32) : Cmd.Reads ScanoutOp (readHdr (S := Machine) crtcId) :=
    (readHdr_reads _).mono fun _ => .inl
  refine Cmd.wp_mono ((hread _).wp libEnv_scanout _ _) ?_
  rintro hdr _ _ ⟨rfl, rfl⟩
  have hhdr : (⟨(m₁.ctx.setFastPlane planeId).setHdr hdr, m₁.heap⟩ : Machine).Fast :=
    hplane.tunes ⟨rfl, ⟨rfl, rfl, rfl⟩, rfl, id⟩ ⟨rfl, rfl⟩
  have howned : m₁.ctx.owned = m.ctx.owned := hs.sameSlots.owned
  refine ⟨fun _ => ⟨hhdr, hfd, by simp, by rw [hh, ← howned]; rfl⟩, fun _ => ?_⟩
  have hslots : m₁.ctx.fastSlots = fun _ => FastSlot.empty := by
    rw [hs.sameSlots.slots]
    exact funext hempty
  have hinit : ((m₁.ctx.setFastPlane planeId).setHdr hdr).initFast.fastSlots = m₁.ctx.fastSlots :=
    hslots.symm
  refine ⟨⟨?_, fun i => ?_, ?_, fun _ i => ?_⟩, hfd, fun _ => rfl, ?_⟩
  · exact hhdr.ready.of_ctx ⟨rfl, rfl, rfl⟩ hhdr.ready.memo
  · exact .inl rfl
  · intro i j _
    exact .empty _
  · rfl
  · rw [hh, ← howned, Ctx.owned_eq_zero fun i => congrFun hslots i]
    exact congrArg (· + R) (Ctx.owned_eq_zero fun _ => rfl).symm

/-- A fast grab. -/
theorem drmtapGrabMappedFast_lib (hf : m.Fast) (hg : g.Allows rest) (hR : WindowsIn rest R)
    (hh : held = m.ctx.owned + R) : Cmd.wp (libEnv egl g) (drmtapGrabMappedFast frame)
      (fun r m' held' => FastDone m.ctx.helperFd R r.1 r.2 m' held') m held := by
  unfold drmtapGrabMappedFast readFastFb
  simp only [Cmd.wp_bind, wp_getCtx, Cmd.wp_ite, Cmd.wp_pure]
  refine ⟨fun _ => .failed hf (by decide) hh, fun _ => ⟨fun _ => .failed hf (by decide) hh,
    fun _ => ?_⟩⟩
  refine Cmd.wp_mono (startFast_lib hf hh) ?_
  rintro started m₁ held₁ ⟨hf₁, hfd, hi, hh₁⟩
  rw [← hfd]
  refine ⟨fun _ => .failed hf₁ (by decide) hh₁, fun hs => ?_⟩
  have hinit := hi (by simpa using hs)
  have hgone : Cmd.wp (libEnv egl g) drmtapFastCleanup
      (fun _ m' held' => FastDone m₁.ctx.helperFd R (-ENODEV) frame m' held') m₁ held₁ := by
    refine Cmd.wp_mono (drmtapFastCleanup_lib hf₁ hg hR hh₁) ?_
    rintro _ m' held' ⟨hf', hctx, rfl⟩
    have hempty : m'.ctx.owned = 0 := by
      rw [hctx]
      exact Ctx.owned_eq_zero fun _ => rfl
    exact ⟨hf', by rw [hctx]; rfl, by rw [hempty, zero_add], .inl (by decide),
      fun h => absurd h (show (-ENODEV : ℤ) ≠ 0 by decide)⟩
  refine lib_quiet (scanoutOp_quiet (.inl trivial)) ?_
  rintro (_ | plane) -
  · exact ⟨fun _ => hgone, fun h => absurd rfl h⟩
  · exact ⟨fun _ => hgone, fun h0 => fastFrame_lib hf₁ hinit hg hR h0 hh₁⟩

theorem freeBuf_lib {buf : Option Slice} (hb : ∀ b, buf = some b → m.heap.Whole b) :
    Cmd.wp (libEnv egl g) (freeBuf buf)
      (fun _ m' held' => m' = { m with heap := m.heap.without buf } ∧ held' = held) m held := by
  refine Cmd.wp_quiet libEnv_pipe ?_
  cases buf with
  | none => rfl
  | some b =>
    simp only [freeBuf, wp_free]
    exact ⟨trivial, fun _ _ _ => ⟨_, (hb b rfl).free, rfl⟩⟩

/-- A closed context holds nothing. -/
theorem drmtapClose_lib {drmFd : ℤ} (hf : m.Fast) (hg : g.Allows rest)
    (hh : held = m.ctx.owned + (m.sockets + (fdOf drmFd + rest))) :
    Cmd.wp (libEnv egl g) (drmtapClose drmFd) (fun _ m' held' => m'.ctx.helperFd < 0 ∧
      (∀ i, m'.ctx.fastSlots i = .empty) ∧ held' = rest) m held := by
  have hdrm : WindowsIn rest (fdOf drmFd + rest) :=
    (WindowsIn.of_windowless (windowless_fdOf _)).add (.self rest)
  have hin : WindowsIn rest (m.sockets + (fdOf drmFd + rest)) :=
    (WindowsIn.of_windowless (windowless_fdOf _)).add hdrm
  unfold drmtapClose
  simp only [Cmd.wp_bind, wp_getCtx, wp_modifyCtx]
  refine Cmd.wp_mono (drmtapFastCleanup_lib hf hg hin hh) ?_
  rintro _ m₁ held₁ ⟨hf₁, hctx, rfl⟩
  have hsock : m.sockets = m₁.sockets := by
    rw [Machine.sockets, Machine.sockets, hctx]
    rfl
  rw [hsock] at hin ⊢
  refine lib_quiet ⟨⟨rfl, fun _ => rfl⟩, id⟩ fun _ _ => ?_
  refine Cmd.wp_mono (drmtapHelperStop_closes fun _ => hg _ hin _) ?_
  rintro _ m₂ held₂ ⟨ht, hfd, rfl⟩
  refine closeFd_lib (fun _ => hg _ hdrm _) rfl ?_
  have hbufs : m₂.ctx.deswizzleBuf = m₁.ctx.deswizzleBuf ∧ m₂.ctx.pixelBuf = m₁.ctx.pixelBuf ∧
      m₂.ctx.fastSlots = fun _ => .empty := by
    rw [ht.ctx, hctx]
    exact ⟨rfl, rfl, rfl⟩
  have hshadow : ∀ b, m₂.ctx.deswizzleBuf = some b → m₂.heap.Whole b := by
    rw [hbufs.1, ht.heap]
    exact hf₁.ready.buffered.shadow
  refine Cmd.wp_mono (freeBuf_lib hshadow) ?_
  rintro _ _ _ ⟨rfl, rfl⟩
  have hpixel : ∀ b, m₂.ctx.pixelBuf = some b →
      (m₂.heap.without m₂.ctx.deswizzleBuf).Whole b := by
    intro b hb
    rw [hbufs.2.1] at hb
    obtain ⟨hw, ho⟩ := hf₁.ready.pixel b hb
    rw [hbufs.1, ht.heap]
    exact hw.congr (Heap.without_block fun t ht' he => ho (.inr ⟨t, ht', he.symm⟩))
  refine Cmd.wp_mono (freeBuf_lib hpixel) ?_
  rintro _ _ _ ⟨rfl, rfl⟩
  exact ⟨hfd, fun i => congrFun hbufs.2.2 i, rfl⟩

end Fast

end Drmtap
