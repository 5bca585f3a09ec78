import Drmtap.Session

/-! Frames that own their pixels, and for how long they do. -/
namespace Drmtap

open Memory Effect

/-- `drmtap_frame_owns_data`; a record without a mapping holds `MAP_FAILED`. -/
def drmtapFrameOwnsData (frame : FrameInfo) : ℤ :=
  match frame.data, frame.priv with
  | some data, some priv => if (priv.mapped.map Slice.base) = some data.base then 1 else 0
  | _, _ => 0

/-! What a grab prepares is mapped by itself, or in the receive buffer. -/

/-- The blocks from `n` on are new. -/
structure Machine.Reached (n : ℕ) (m : Machine) : Prop where
  le : n ≤ m.heap.next
  memo : m.ctx.MemoOk

def SamePixelBuf (m m' : Machine) : Prop := m'.ctx.pixelBuf = m.ctx.pixelBuf

instance : IsPreorder Machine SamePixelBuf where
  refl _ := rfl
  trans _ _ _ h h' := h'.trans h

abbrev Grows {α : Type} (n : ℕ) (m : M α) (Q : α → Prop) : Prop :=
  Cmd.Stays (fun _ => True) (Machine.Reached n) SamePixelBuf m Q

section Grows
variable {n : ℕ} {α : Type}

theorem grows_onHeap {f : Heap → Option (α × Heap)} {Q : α → Prop}
    (hf : ∀ h a h', n ≤ h.next → f h = some (a, h') → h.next ≤ h'.next ∧ Q a) :
    Grows n (onHeap f) Q := by
  intro m hm
  rw [wlp_onHeap]
  intro a h' he
  obtain ⟨hle, hQ⟩ := hf _ _ _ hm.le he
  exact ⟨⟨hm.le.trans hle, hm.memo⟩, rfl, hQ⟩

theorem grows_mmap (src : MapSource) (size off : ℕ) :
    Grows n (mmap src size off) fun r => ∀ s, r = .ok s → n ≤ s.base := by
  apply Cmd.Stays.bind (.call trivial)
  rintro (e | bytes) -
  · exact .pure (by simp)
  · apply grows_onHeap
    rintro h _ _ hn ⟨⟩
    refine ⟨Nat.le_succ _, ?_⟩
    rintro _ ⟨⟩
    exact hn

theorem grows_callocPriv : Grows n callocPriv fun _ => True := by
  apply Cmd.Stays.bind (.call trivial)
  intro made _
  apply Cmd.Stays.ite _ (.pure trivial)
  apply grows_onHeap
  rintro h _ _ - ⟨⟩
  exact ⟨Nat.le_succ _, trivial⟩

theorem grows_give (s : Slice) :
    Grows n (onHeap fun h => (h.free s).map ((), ·)) fun _ => True := by
  apply grows_onHeap
  intro h _ h' _ he
  obtain ⟨h₁, hfree, heq⟩ := Option.map_eq_some_iff.mp he
  obtain ⟨-, rfl⟩ := Prod.mk.inj heq
  rw [Heap.eq_release hfree]
  exact ⟨le_rfl, trivial⟩

theorem grows_freePriv (s : Slice) : Grows n (freePriv s) fun _ => True :=
  .bind (.call trivial) fun _ _ => grows_give s

theorem grows_store (s : Slice) (bytes : List UInt8) :
    Grows n (onHeap fun h => (h.store s 0 bytes).map ((), ·)) fun _ => True := by
  apply grows_onHeap
  intro h _ h' _ he
  obtain ⟨h₁, hstore, heq⟩ := Option.map_eq_some_iff.mp he
  obtain ⟨-, rfl⟩ := Prod.mk.inj heq
  exact ⟨(Writes.store hstore).next.ge, trivial⟩

theorem grows_modifyCtx {f : Ctx → Ctx} (hpixel : ∀ c, (f c).pixelBuf = c.pixelBuf)
    (hmemo : ∀ c, c.MemoOk → (f c).MemoOk) : Grows n (modifyCtx f) fun _ => True :=
  .modify (fun _ hm => ⟨hm.le, hmemo _ hm.memo⟩) fun _ => hpixel _

theorem grows_setHdr (hdr : UInt32 × UInt32) : Grows n (modifyCtx (·.setHdr hdr)) fun _ => True :=
  grows_modifyCtx (fun _ => rfl) fun _ h => h

theorem grows_scans {m : M α} (hm : Cmd.Steps ScanoutOp Scans m) : Grows n m fun _ => True := by
  apply Cmd.Stays.of_steps hm fun _ _ => trivial
  intro m₀ m₁ h hs
  refine ⟨⟨hs.heap ▸ h.le, hs.memo h.memo⟩, ?_⟩
  unfold SamePixelBuf
  rw [hs.ctx]

theorem grows_scanoutWidth (fbWidth : UInt32) (modifier : UInt64) :
    Grows n (drmtapScanoutWidth fbWidth modifier) fun _ => True := by
  intro m hm
  have hq : (Env.any : Env).Quiet ScanoutOp fun _ _ => True :=
    fun o ho _ => ⟨trivial, fun _ _ _ => ⟨trivial, rfl⟩⟩
  have hw := Cmd.wp_quiet (s := ()) hq (drmtapScanoutWidth_spec hm.memo fbWidth modifier)
  refine Cmd.wlp_mono (Cmd.wlp_of_wp hw) ?_
  rintro w m' _ ⟨⟨hs, -, -⟩, -⟩
  refine ⟨⟨hs.heap ▸ hm.le, hs.memo hm.memo⟩, ?_, trivial⟩
  show m'.ctx.pixelBuf = m.ctx.pixelBuf
  rw [hs.ctx]

theorem grows_converses : Converses (fun _ => True) (Machine.Reached n) SamePixelBuf where
  spawn := trivial
  reap := trivial
  send _ _ := trivial
  recv _ _ := trivial
  recvmsg _ _ := trivial
  close _ := trivial
  keeps _ _ _ hm := ⟨hm.le, hm.memo⟩
  moves _ _ _ := rfl

theorem grows_gemClose (handle : UInt32) : Grows n (drmtapGemClose handle) fun _ => True :=
  .ite (.pure trivial) (.call trivial)

theorem grows_closeAuxiliary (fb2 : Fb2) : Grows n (closeAuxiliaryGemHandles fb2) fun _ => True := by
  have haux (p : Fin 4) : Grows n (closeAuxiliary fb2 p) fun _ => True :=
    .ite (.pure trivial) (grows_gemClose _)
  exact .bind (haux 1) fun _ _ => .bind (haux 2) fun _ _ => haux 3

theorem grows_grabCleanup (frame : FrameInfo) (pendingGem : UInt32) (primeFd ret : ℤ) :
    Grows n (grabCleanup frame pendingGem primeFd ret) fun _ => True :=
  .bind (grows_converses.closeFd _) fun _ _ => .bind (grows_gemClose _) fun _ _ => .pure trivial

theorem grows_readScanout : Grows n readScanout fun _ => True := by
  apply Cmd.Stays.bind
    (grows_scans (findPrimaryPlane_steps.mono (fun _ => .inl) fun _ _ => Scans.of_selects))
  intro planeId _
  have hread : Grows n readHdrForCurrentCrtc fun _ => True := by
    apply Cmd.Stays.bind Converses.stays_getCtx
    intro ctx _
    have hhdr : Grows n (readHdr ctx.crtcId) fun _ => True :=
      .of_steps (readHdr_reads _) (fun _ _ => trivial) fun m₀ m₁ h he => by
        subst he
        exact ⟨h, rfl⟩
    exact .bind hhdr fun hdr _ => grows_setHdr hdr
  apply Cmd.Stays.bind hread
  intro _ _
  apply Cmd.Stays.ite (.pure trivial)
  apply Cmd.Stays.bind (.call trivial)
  rintro (_ | plane) -
  · exact .pure trivial
  · apply Cmd.Stays.ite (.pure trivial)
    apply Cmd.Stays.bind (.call trivial)
    rintro (e | fb2) - <;> exact .pure trivial

/-- A frame in a mapping made since, if in one, else in the receive buffer. -/
def FrameInfo.Backed (n : ℕ) (frame : FrameInfo) (m : Machine) : Prop :=
  ∃ p, frame.priv = some p ∧ (∀ t, p.mapped = some t → n ≤ t.base) ∧
    (frame.data = p.mapped ∨ p.mapped = none ∧ ∃ s, m.ctx.pixelBuf = some s ∧ frame.data = some s)

def Prepared.Backed (n : ℕ) (m : Machine) : Prepared → Prop
  | .done _ _ => True
  | .ready _ frame _ => frame.Backed n m
  | .unmapped _ frame _ _ => frame.Backed n m

theorem grows_virtioTransfer (handle width height : UInt32) :
    Grows n (virtioTransferFromHost handle width height) fun _ => True := by
  apply Cmd.Stays.bind (.call trivial)
  rintro (_ | e) -
  · exact .call trivial
  · exact .pure trivial

theorem grows_mapVirtio (fb2 : Fb2) (size : ℕ) :
    Grows n (mapVirtio fb2 size) fun r => ∀ s, r = some s → n ≤ s.base := by
  apply Cmd.Stays.bind Converses.stays_getCtx
  intro ctx _
  apply Cmd.Stays.ite _ (.pure (by simp))
  apply Cmd.Stays.bind (grows_virtioTransfer _ _ _)
  rintro (_ | e) -
  · have hdumb : Grows n (virtioDumbMmap (fb2.handles 0) size) fun r => ∀ s, r = .ok s → n ≤ s.base := by
      apply Cmd.Stays.bind (.call trivial)
      rintro (e | off) -
      · exact .pure (by simp)
      · exact grows_mmap _ _ _
    apply Cmd.Stays.bind hdumb
    rintro (e | mapped) hs
    · exact .pure (by simp)
    · refine .pure ?_
      rintro _ ⟨⟩
      exact hs mapped rfl
  · exact .pure (by simp)

theorem grows_mapFramebuffer (fb2 : Fb2) (primeFd : ℤ) (size : ℕ) :
    Grows n (mapFramebuffer fb2 primeFd size) fun r => ∀ s dumb, r = .ok (s, dumb) → n ≤ s.base := by
  apply Cmd.Stays.bind (grows_mapVirtio fb2 size)
  rintro (_ | mapped) hs
  · apply Cmd.Stays.bind (grows_mmap _ _ _)
    rintro (e | mapped) hs
    · exact .pure (by simp)
    · refine .pure ?_
      rintro _ _ ⟨⟩
      exact hs mapped rfl
  · refine .pure ?_
    rintro _ _ ⟨⟩
    exact hs mapped rfl

/-- A frame in a mapping of its own, if in any. -/
def Prepared.Direct (n : ℕ) (prepared : Prepared) : Prop := ∀ m, prepared.Backed n m

theorem FrameInfo.backed_unmapped {frame : FrameInfo} {p : FramePriv} (hp : frame.priv = some p)
    (hmap : p.mapped = none) (hd : frame.data = none) (m : Machine) : frame.Backed n m := by
  refine ⟨p, hp, fun t ht => ?_, .inl (hd.trans hmap.symm)⟩
  rw [hmap] at ht
  cases ht

theorem FrameInfo.backed_mapped {frame : FrameInfo} {p : FramePriv} {s : Slice}
    (hp : frame.priv = some p) (hmap : p.mapped = some s) (hd : frame.data = some s)
    (hs : n ≤ s.base) (m : Machine) : frame.Backed n m := by
  refine ⟨p, hp, fun t ht => ?_, .inl (hd.trans hmap.symm)⟩
  obtain rfl := Option.some.inj (hmap.symm.trans ht)
  exact hs

theorem grows_prepareDirect (doMmap : Bool) (planeId fbId : UInt32) (fb2 : Fb2) (frame : FrameInfo)
    (primeFd : ℤ) :
    Grows n (prepareDirect doMmap planeId fbId fb2 frame primeFd) (Prepared.Direct n) := by
  apply Cmd.Stays.bind grows_callocPriv
  rintro (_ | self) -
  · exact .bind (grows_grabCleanup _ _ _ _) fun _ _ => .pure fun _ => trivial
  · apply Cmd.Stays.bind (grows_scanoutWidth _ _)
    intro width _
    apply Cmd.Stays.ite _ (.pure fun m => FrameInfo.backed_unmapped rfl rfl rfl m)
    apply Cmd.Stays.bind (grows_mapFramebuffer _ _ _)
    rintro (e | ⟨mapped, dumb⟩) hs
    · exact .pure fun m => FrameInfo.backed_unmapped rfl rfl rfl m
    · apply Cmd.Stays.bind (.call trivial)
      intro started _
      exact .pure fun m => FrameInfo.backed_mapped rfl rfl rfl (hs mapped dumb rfl) m

theorem grows_preparePassed (planeId : UInt32) (self : Slice) (frame : FrameInfo) (wire : GrabWire)
    (fd : ℤ) : Grows n (preparePassed planeId self frame wire fd) (Prepared.Direct n) := by
  apply Cmd.Stays.bind (grows_mmap _ _ _)
  rintro (e | mapped) hs
  · exact .pure fun m => FrameInfo.backed_unmapped rfl rfl rfl m
  · apply Cmd.Stays.bind (.call trivial)
    intro started _
    exact .pure fun m => FrameInfo.backed_mapped rfl rfl rfl (hs mapped rfl) m

/-- A reply, whose pixels are in `pixelBuf` if in no mapping. -/
theorem grows_prepareReply (planeId : UInt32) (self pixelBuf : Slice) (reply : HelperGrabResult) :
    Grows n (prepareReply planeId self pixelBuf reply) fun prepared =>
      ∀ m : Machine, m.ctx.pixelBuf = some pixelBuf → prepared.Backed n m := by
  apply Cmd.Stays.bind (grows_scanoutWidth _ _)
  intro width _
  apply Cmd.Stays.bind (grows_setHdr _)
  intro _ _
  apply Cmd.Stays.ite
  · apply Cmd.Stays.bind (grows_converses.closeFd _)
    intro _ _
    exact .bind (grows_freePriv _) fun _ _ => .pure fun _ _ => trivial
  · apply Cmd.Stays.ite
    · exact (grows_preparePassed _ _ _ _ _).mono fun _ h m _ => h m
    · apply Cmd.Stays.ite
      · exact .bind (grows_freePriv _) fun _ _ => .pure fun _ _ => trivial
      · exact .pure fun m hm => ⟨_, rfl, by simp [privOfHelper], .inr ⟨rfl, pixelBuf, hm, rfl⟩⟩

theorem grows_askHelper (planeId : UInt32) (frame : FrameInfo) (pixelBuf : Slice) (bufSize : ℕ) :
    Grows n (askHelper planeId frame pixelBuf bufSize) fun prepared =>
      ∀ m : Machine, m.ctx.pixelBuf = some pixelBuf → prepared.Backed n m := by
  apply Cmd.Stays.bind (grows_converses.helperGrab (grows_store pixelBuf) _)
  rintro ⟨ret, reply⟩ -
  apply Cmd.Stays.ite
  · exact .bind (grows_grabCleanup _ _ _ _) fun _ _ => .pure fun _ _ => trivial
  · apply Cmd.Stays.bind grows_callocPriv
    rintro (_ | self) -
    · exact .bind (grows_converses.closeFd _) fun _ _ => .pure fun _ _ => trivial
    · exact grows_prepareReply _ _ _ _

theorem grows_ensureBuf (buf : Option Slice) (size : ℕ) :
    Grows n (drmtapEnsureBuf buf size) fun _ => True := by
  have hfree : Grows n (freeBuf buf) fun _ => True := by
    cases buf with
    | none => exact .pure trivial
    | some s =>
      apply Cmd.Stays.bind (.call trivial)
      intro _ _
      exact grows_give s
  have hmalloc : Grows n (malloc size) fun _ => True := by
    apply Cmd.Stays.bind (.call trivial)
    rintro (_ | bytes) -
    · exact .pure trivial
    · apply grows_onHeap
      rintro h _ _ - ⟨⟩
      exact ⟨Nat.le_succ _, trivial⟩
  refine .ite (.pure trivial) (.ite (.pure trivial) (.ite (.pure trivial) ?_))
  apply Cmd.Stays.bind hfree
  intro _ _
  apply Cmd.Stays.bind hmalloc
  rintro (_ | s) - <;> exact .pure trivial

end Grows

/-- What holds of all that a grab prepares, if it does of what it gets by the helper into a
buffer, and of what it gets directly. -/
structure Prepares (E : Env) (n : ℕ) (Q : Prepared → Machine → E.State → Prop) : Prop where
  legal : ∀ s o, E.legal s o
  done : ∀ ret frame m s, Q (.done ret frame) m s
  asks : ∀ m s planeId frame pixelBuf bufSize, m.Reached n → m.ctx.pixelBuf = some pixelBuf →
    Cmd.wlp E (askHelper planeId frame pixelBuf bufSize) Q m s
  direct : ∀ m s doMmap planeId fbId fb2 frame (primeFd : ℕ), m.Reached n →
    Cmd.wlp E (prepareDirect doMmap planeId fbId fb2 frame primeFd) Q m s

namespace Prepares
variable {E : Env} {n : ℕ} {Q : Prepared → Machine → E.State → Prop} {m : Machine} {s : E.State}

theorem grows {α : Type} {c : M α} {R : α → Prop} (h : Prepares E n Q) (hc : Grows n c R)
    (hm : m.Reached n) :
    Cmd.wlp E c (fun a m' _ => m'.Reached n ∧ SamePixelBuf m m' ∧ R a) m s :=
  Cmd.wlp_mono (hc.wlp_and hm (Cmd.wlp_true h.legal c m s)) fun _ _ _ hr => hr.1

theorem ends {c : M (ℤ × FrameInfo)} (h : Prepares E n Q) :
    Cmd.wlp E c (fun r m' s' => Q (.done r.1 r.2) m' s') m s :=
  Cmd.wlp_mono (Cmd.wlp_true h.legal c m s) fun _ _ _ _ => h.done _ _ _ _

theorem byHelper (h : Prepares E n Q) (hm : m.Reached n) (planeId : UInt32) (fb2 : Fb2)
    (frame : FrameInfo) : Cmd.wlp E (prepareByHelper planeId fb2 frame) Q m s := by
  unfold prepareByHelper
  rw [Cmd.wlp_bind, wlp_getCtx, Cmd.wlp_bind]
  apply Cmd.wlp_mono (h.grows (grows_ensureBuf _ _) hm)
  rintro ⟨ret, buf⟩ m₁ _ ⟨hm₁, -, -⟩
  rw [Cmd.wlp_bind, wlp_modifyCtx]
  cases buf with
  | none => exact h.done _ _ _ _
  | some pixelBuf =>
    simp only [Cmd.wlp_ite, Cmd.wlp_pure]
    constructor
    · intro _
      exact h.done _ _ _ _
    · intro _
      exact h.asks _ _ _ _ _ _ ⟨hm₁.le, hm₁.memo⟩ rfl

theorem framebuffer (h : Prepares E n Q) (hm : m.Reached n) (doMmap : Bool)
    (planeId fbId : UInt32) (fb2 : Fb2) (frame : FrameInfo) :
    Cmd.wlp E (prepareFramebuffer doMmap planeId fbId fb2 frame) Q m s := by
  unfold prepareFramebuffer
  simp only [Cmd.wlp_ite, Cmd.wlp_bind, Cmd.wlp_call]
  refine ⟨fun _ => h.byHelper hm _ _ _, fun _ => ⟨h.legal _ _, ?_⟩⟩
  rintro (e | primeFd) _ -
  · simp only [Cmd.wlp_ite, Cmd.wlp_bind, Cmd.wlp_pure]
    constructor
    · intro _
      apply Cmd.wlp_mono (h.grows (grows_gemClose _) hm)
      rintro _ m₁ _ ⟨hm₁, -, -⟩
      exact h.byHelper hm₁ _ _ _
    · intro _
      exact h.ends
  · exact h.direct _ _ _ _ _ _ _ primeFd hm

theorem grab (h : Prepares E n Q) (hm : m.Reached n) (doMmap : Bool) (frame : FrameInfo) :
    Cmd.wlp E (prepareGrab doMmap frame) Q m s := by
  unfold prepareGrab
  simp only [Cmd.wlp_bind, wlp_getCtx, Cmd.wlp_ite, Cmd.wlp_pure]
  refine ⟨fun _ => h.done _ _ _ _, fun _ => ?_⟩
  apply Cmd.wlp_mono (h.grows grows_readScanout hm)
  rintro (e | ⟨planeId, fbId, fb2⟩) m₁ _ ⟨hm₁, -, -⟩
  · exact h.done _ _ _ _
  · simp only [Cmd.wlp_bind, Cmd.wlp_ite, Cmd.wlp_pure, wlp_modifyCtx]
    apply Cmd.wlp_mono (h.grows (grows_closeAuxiliary fb2) hm₁)
    rintro _ m₂ _ ⟨hm₂, -, -⟩
    constructor
    · intro _
      exact h.ends
    · intro _
      have hstage : Machine.Reached n { m₂ with ctx := m₂.ctx.stageFb2 fb2 } := ⟨hm₂.le, hm₂.memo⟩
      exact h.framebuffer hstage _ _ _ _ _

end Prepares

/-- What a grab prepares is mapped by itself, or in the receive buffer. -/
theorem prepares_backed (n : ℕ) :
    Prepares Env.any n fun prepared m' _ => prepared.Backed n m' where
  legal _ _ := trivial
  done _ _ _ _ := trivial
  asks m s planeId frame pixelBuf bufSize hm hpix := by
    apply Cmd.wlp_mono (grows_askHelper planeId frame pixelBuf _ m hm)
    rintro prepared m' _ ⟨-, hsame, hb⟩
    exact hb m' (hsame.trans hpix)
  direct m s doMmap planeId fbId fb2 frame primeFd hm := by
    apply Cmd.wlp_mono (grows_prepareDirect _ _ _ _ _ _ m hm)
    rintro prepared m' _ ⟨-, -, hd⟩
    exact hd m'

/-! What it hands out -/

/-- A frame in its own mapping, made since, if in one of its own, else in a buffer of the context
or of the caller. -/
def FrameInfo.Shown (n : ℕ) (frame : FrameInfo) (m : Machine) : Prop :=
  ∃ p, frame.priv = some p ∧ (∀ t, p.mapped = some t → n ≤ t.base) ∧
    ∀ d, frame.data = some d → p.mapped = some d ∨ ¬ m.Private d.base

section Shown
variable {egl : Prop} {n : ℕ} {m m' : Machine} {rest held held' : Multiset Resource}
  {frame frame' : FrameInfo}

theorem FrameInfo.Backed.shown (h : frame.Backed n m) : frame.Shown n m := by
  obtain ⟨p, hp, hn, hd⟩ := h
  refine ⟨p, hp, hn, fun d hdata => ?_⟩
  rcases hd with hd | ⟨-, s, hs, hd⟩
  · exact .inl (hd.symm.trans hdata)
  · obtain rfl := Option.some.inj (hd.symm.trans hdata)
    exact .inr fun hpriv => hpriv.2 s hs rfl

/-- A conversion shows the pixels where they are, or in the output buffer. -/
theorem FrameInfo.Backed.processed {force : Bool} (h : frame.Backed n m) (hc : Converts m m')
    (hf : frame.SameBuffer frame') (hp : Processed egl m frame.data frame force frame' m') :
    frame'.Shown n m' := by
  have hsame : frame'.data = frame.data → frame'.Shown n m' := by
    intro hd
    obtain ⟨p, hpriv, hn, hdata⟩ := h
    refine FrameInfo.Backed.shown ⟨p, ?_, hn, ?_⟩
    · rw [hf]
      exact hpriv
    · rw [hd, hc.ctx]
      exact hdata
  have hout {size : ℕ} {out : Slice} (hd : Dest m' size out) (hdata : frame'.data = some out) :
      frame'.Shown n m' := by
    obtain ⟨p, hpriv, hn, -⟩ := h
    refine ⟨p, ?_, hn, fun d hd' => ?_⟩
    · rw [hf]
      exact hpriv
    · obtain rfl := Option.some.inj (hdata.symm.trans hd')
      exact .inr fun hpriv => hpriv.1 hd.out
  cases hp with
  | idle => exact hsame rfl
  | passed => exact hsame rfl
  | reduced _ _ _ _ _ hd => exact hout hd rfl
  | untiled _ _ _ _ _ _ hd => exact hout hd rfl
  | gpu _ _ hd => exact hout hd rfl

/-- The end of a grab that returns 0. -/
theorem concludeGrab_hands (planeId : UInt32) (ret : ℤ) (frame : FrameInfo) :
    Cmd.wlp Env.any (concludeGrab planeId ret frame) (fun r m' _ => r.1 = 0 →
      ret = 0 ∧ r.2 = frame ∧ m' = { m with ctx := m.ctx.setGrabPlane planeId }) m () := by
  unfold concludeGrab
  simp only [Cmd.wlp_ite, Cmd.wlp_bind, Cmd.wlp_pure, wlp_modifyCtx]
  constructor
  · intro hret
    apply Cmd.wlp_mono (Cmd.wlp_true (fun _ _ => trivial) _ _ _)
    intro _ _ _ _ h0
    exact absurd h0 hret
  · intro hret _
    exact ⟨not_not.mp hret, trivial, trivial⟩

/-- A grab that returns 0 shows its mapping, or a buffer. -/
theorem finishGrab_shown {doMmap : Bool} {prepared : Prepared} {r : ℤ × FrameInfo}
    (hl : prepared.Balanced rest m held) (hb : prepared.Backed n m)
    (hr : Cmd.Runs (libEnv egl .free) (finishGrab doMmap prepared) m held r m' held')
    (h0 : r.1 = 0) : r.2.Shown n m' := by
  have hconclude {planeId : UInt32} {ret : ℤ} {frame : FrameInfo} {m₁ : Machine}
      {held₁ : Multiset Resource} (hs : ret = 0 → frame.Shown n m₁)
      (hr : Cmd.Runs (libEnv egl .free) (concludeGrab planeId ret frame) m₁ held₁ r m' held') :
      r.2.Shown n m' := by
    obtain ⟨hret, hframe, rfl⟩ := Cmd.wlp_runs (concludeGrab_hands planeId ret frame) hr.any h0
    rw [hframe]
    exact hs hret
  have hprocess {frame : FrameInfo} {p : FramePriv} (hp : Loaded rest frame p m held)
      (hback : frame.Backed n m) (force : Bool) :
      Cmd.wp (libEnv egl .free) (gpuAutoProcess wrap32 frame.data frame force)
        (fun r m' _ => r.1 < 0 ∨ r.2.Shown n m') m held := by
    have hspec : Cmd.wp (pipeEnv egl) (gpuAutoProcess wrap32 frame.data frame force) _ m () :=
      gpuAutoProcess_spec wrap32_exact hp.ready.buffered hp.bounded hp.source force
    apply Cmd.wp_mono ((gpuAutoProcess_yields _ _).wp (Cmd.wp_quiet libEnv_pipe hspec))
    rintro r m₁ _ ⟨hf, ⟨hc, hr⟩, -⟩
    exact hr.imp id fun h => hback.processed hc hf h.2
  cases prepared with
  | done ret frame =>
    have hpure : Cmd.wlp Env.any (pure (ret, frame) : M (ℤ × FrameInfo))
        (fun r _ _ => r.1 = ret) m () := rfl
    exact absurd ((Cmd.wlp_runs hpure hr.any).symm.trans h0) hl.1.ne
  | ready planeId frame isVirgl =>
    obtain ⟨p, hp⟩ := hl
    unfold finishGrab at hr
    dsimp only at hr
    split_ifs at hr
    · obtain ⟨⟨ret, frame₁⟩, m₁, held₁, hr₁, hr₂⟩ := Cmd.runs_bind hr
      have hshown := Cmd.wp_runs (hprocess hp hb isVirgl) hr₁
      exact hconclude (fun hret => hshown.resolve_left hret.not_lt) hr₂
    · exact hconclude (fun _ => hb.shown) hr
  | unmapped planeId frame priv e =>
    obtain ⟨hp, hmap, hdata⟩ := hl
    have hproc := hprocess hp hb false
    rw [hdata] at hproc
    obtain ⟨⟨rc, frame₁⟩, m₁, held₁, hr₁, hr₂⟩ := Cmd.runs_bind hr
    obtain ⟨hsame, hshown⟩ := Cmd.wp_runs (gpuAutoProcess_none_yields.wp hproc) hr₁
    dsimp only at hr₂
    by_cases hnone : frame₁.data = none
    · rw [if_pos hnone] at hr₂
      have hcleanup : Cmd.Yields (grabCleanupPriv frame₁ priv (if rc = 0 then e.neg else rc))
          fun r => r.1 = if rc = 0 then e.neg else rc :=
        .call_bind fun _ => .call_bind fun _ => .call_bind fun _ => .pure rfl
      have hret : r.1 = if rc = 0 then e.neg else rc := hcleanup _ _ _ _ _ _ hr₂
      rw [h0] at hret
      split_ifs at hret with hrc
      · exact absurd hret.symm e.neg_ne_zero
      · exact absurd hret.symm hrc
    · rw [if_neg hnone] at hr₂
      refine hconclude (fun _ => hshown.resolve_left fun hneg => hnone ?_) hr₂
      have hframe : frame₁ = frame := hsame hneg
      rw [hframe, hdata]

theorem doGrab_shown {doMmap : Bool} {frame : FrameInfo} {r : ℤ × FrameInfo} (hm : m.Ready)
    (hr : Cmd.Runs (libEnv egl .free) (doGrab doMmap frame) m (m.sockets + rest) r m' held')
    (h0 : r.1 = 0) : r.2.Shown m.heap.next m' := by
  obtain ⟨prepared, m₁, held₁, hr₁, hr₂⟩ := Cmd.runs_bind hr
  have hb := Cmd.wlp_runs ((prepares_backed _).grab ⟨le_rfl, hm.memo⟩ doMmap frame) hr₁.any
  exact finishGrab_shown (Cmd.wp_runs (prepareGrab_lib hm) hr₁) hb hr₂ h0

theorem describe_hands (before : Ctx) (desc : DmabufDesc) (ret : ℤ) (frame : FrameInfo) :
    Cmd.wlp Env.any (GrabEntry.describe before desc ret frame) (fun r m' _ => r.1 = 0 →
      ret = 0 ∧ r.2.2 = frame ∧ m' = m) m () := by
  unfold GrabEntry.describe
  simp only [Cmd.wlp_ite, Cmd.wlp_bind, Cmd.wlp_pure, wlp_modifyCtx, wlp_getCtx]
  refine ⟨fun hret h0 => absurd h0 hret, fun hret => ⟨fun _ => ?_, fun _ _ => ?_⟩⟩
  · have hnotsup : (- ENOTSUP : ℤ) ≠ 0 := by decide
    apply Cmd.wlp_mono (Cmd.wlp_true (fun _ _ => trivial) _ _ _)
    intro _ _ _ _ h0
    exact absurd h0 hnotsup
  · exact ⟨not_not.mp hret, trivial, trivial⟩

/-- Each of the plain grabs does so. -/
theorem GrabEntry.shown {entry : GrabEntry} {r : ℤ × FrameInfo} (hm : m.Ready)
    (hr : Cmd.Runs (libEnv egl .free) (entry.run frame) m (m.sockets + rest) r m' held')
    (h0 : r.1 = 0) : r.2.Shown m.heap.next m' := by
  cases entry with
  | grab => exact doGrab_shown hm hr h0
  | mapped => exact doGrab_shown hm hr h0
  | desc d =>
    obtain ⟨⟨ret, d', frame'⟩, m₁, held₁, hdesc, hret⟩ := Cmd.runs_bind hr
    have hdone : Cmd.wlp Env.any (pure (ret, frame') : M (ℤ × FrameInfo))
        (fun r m' _ => r = (ret, frame') ∧ m' = m₁) m₁ () := ⟨rfl, rfl⟩
    obtain ⟨rfl, rfl⟩ := Cmd.wlp_runs hdone hret.any
    have hdesc' : Cmd.Runs (libEnv egl .free) (doGrab false frame >>= fun r =>
      GrabEntry.describe m.ctx d r.1 r.2) m (m.sockets + rest) (ret, d', frame') m' held₁ := hdesc
    obtain ⟨r₁, m₂, held₂, hgrab, hr₂⟩ := Cmd.runs_bind hdesc'
    obtain ⟨hret₁, hframe, rfl⟩ := Cmd.wlp_runs (describe_hands m.ctx d r₁.1 r₁.2) hr₂.any h0
    have hshown := doGrab_shown hm hgrab hret₁
    rwa [← show frame' = r₁.2 from hframe] at hshown

end Shown

/-! How long it is kept -/

/-- `d` is a mapping that was made between the two machines: a new block, none of the context's or
the caller's buffers or its slots' mappings, and not the record of the frame. -/
structure FrameInfo.MappedSince (frame : FrameInfo) (m m' : Machine) (d : Slice) : Prop where
  new : m.heap.next ≤ d.base
  whole : m'.heap.Whole d
  apart : m'.Private d.base
  slots : ∀ i t, (m'.ctx.fastSlots i).mmapPtr = some t → t.base ≠ d.base
  record : ∀ p, frame.priv = some p → p.self.base ≠ d.base

namespace Session
variable {egl : Prop} {s s' : Session} {frame : FrameInfo} {b : ℕ}

theorem call_keeps {call : LibraryCall} {m : Machine} {held : Multiset Resource}
    (hclear : s.machine.Clear (SlotsSpared b) s.user b) (hlent : ¬ Lent s.user b)
    (hr : Cmd.Runs (libEnv egl .free) call.run s.machine s.held () m held) :
    m.heap.block b = s.machine.heap.block b := by
  cases call with
  | fast call =>
    obtain ⟨-, hk, -⟩ := call.isolates.runs hr hclear
    exact hk.same hlent
  | convert desc frame =>
    obtain ⟨r, m₁, held₁, hr, hret⟩ := Cmd.runs_bind hr
    have hdone : Cmd.wlp Env.any (pure () : M Unit) (fun _ m' _ => m' = m₁) m₁ () := rfl
    obtain rfl := Cmd.wlp_runs hdone hret.any
    obtain ⟨-, hk, -⟩ := (isolates_convertDmabuf desc frame).runs hr hclear
    exact hk.same hlent
  | setOutput dst =>
    have hheap : Cmd.wlp Env.any (LibraryCall.setOutput dst).run
        (fun _ m' _ => m'.heap = s.machine.heap) s.machine () := by
      unfold LibraryCall.run drmtapSetOutputBuffer
      cases dst with
      | none => exact rfl
      | some u =>
        simp only [Cmd.wlp_bind, Cmd.wlp_ite, Cmd.wlp_pure, wlp_modifyCtx]
        exact ⟨fun _ => trivial, fun _ => trivial⟩
    rw [Cmd.wlp_runs hheap hr.any]

/-- A step that does not release a frame leaves its blocks alone. -/
theorem Sound.step_keeps (h : s.Sound) (hstep : SessionStep egl s s') (hf : frame ∈ s.frames)
    (hf' : frame ∈ s'.frames) (hb : b ∈ frame.blocks) :
    s'.machine.heap.block b = s.machine.heap.block b := by
  have hi := h.intact
  have hlent := hi.not_lent hf hb
  have hclaimed : b ∈ s.claimed := mem_claimed.mpr (.inl ⟨frame, hf, hb⟩)
  have hclear := hi.clear hclaimed
  cases hstep with
  | @grab entry _ r m held hr =>
    obtain ⟨-, hk, -⟩ := (isolates_grabEntry entry _).runs hr hclear
    have hsame : ((s.after m held).hand r.1 r.2).machine = m := by
      unfold hand
      split_ifs <;> rfl
    rw [hsame]
    exact hk.same hlent
  | @call call hfair m held hr =>
    exact call_keeps hclear hlent hr
  | release hs hr =>
    have hnodup := (claimed_frame hs).nodup_iff.mp hi.nodup
    have hrest : b ∈ claimed { s with frames := _ ++ _ } := mem_claimed.mpr (.inl ⟨frame, hf', hb⟩)
    have hother := fun hb => (List.nodup_append.mp hnodup).2.2 b hb b hrest rfl
    exact (release_spares hother hclear.spared hr).2
  | allocate size byte => exact Heap.alloc_block_of_lt (hi.spared b hclaimed).lt _ _
  | deallocate hs hfree =>
    refine Heap.release_block (Ne.symm (hi.disjoint hf hb ?_))
    rw [hs]
    simp

/-- A step that releases other frames than this one. -/
def KeepStep (egl : Prop) (frame : FrameInfo) (s s' : Session) : Prop :=
  SessionStep egl s s' ∧ frame ∈ s'.frames

/-- So does a run that does not release it. -/
theorem Sound.run_keeps (h : s.Sound) (hf : frame ∈ s.frames) (hb : b ∈ frame.blocks)
    (hrun : Relation.ReflTransGen (KeepStep egl frame) s s') :
    s'.Sound ∧ frame ∈ s'.frames ∧ s'.machine.heap.block b = s.machine.heap.block b := by
  induction hrun with
  | refl => exact ⟨h, hf, rfl⟩
  | tail _ hstep ih =>
    obtain ⟨hs, hf, hsame⟩ := ih
    exact ⟨hs.step hstep.1, hstep.2, (hs.step_keeps hstep.1 hf hstep.2 hb).trans hsame⟩

/-- A context that was opened for a CRTC, or for whatever is active. -/
def openedOn (driver : String) (crtcId : UInt32) : Session :=
  ⟨⟨.opened driver crtcId, .empty⟩, 0, [], []⟩

theorem openedOn_sound (driver : String) (crtcId : UInt32) : (openedOn driver crtcId).Sound where
  intact :=
    { fast :=
        ((Machine.opened_ready driver).of_ctx (c := .opened driver crtcId) ⟨rfl, rfl, rfl⟩
          (Machine.opened_ready driver).memo).fast fun _ => rfl
      valid := by simp [openedOn]
      whole := by simp [openedOn]
      spared := by simp [openedOn, claimed]
      nodup := by simp [openedOn, claimed]
      lent := by simp [openedOn, user, Ctx.opened] }
  held := (opened_sound driver).held

end Session

/-! Its release -/

/-- The addresses that are unmapped. -/
def noteUnmap (log : List Slice) : (o : Op) → Ans o → List Slice
  | .munmap addr, _ => log ++ [addr]
  | _, _ => log

abbrev unmapEnv : Env := .noting noteUnmap

section Release
variable {m : Machine} {frame : FrameInfo} {p : FramePriv} {t : Slice} {log : List Slice}

theorem wp_unnoted {o : Op} (ho : ∀ log r, noteUnmap log o r = log)
    {Q : Ans o → Machine → List Slice → Prop} (h : ∀ r, Q r m log) :
    Cmd.wp unmapEnv (sys o) Q m log := by
  refine ⟨trivial, fun r log' hs => ?_⟩
  rw [show log' = log from hs.trans (ho log r)]
  exact h r

theorem closeFd_unnoted (fd : ℤ) :
    Cmd.wp unmapEnv (closeFd fd) (fun _ m' log' => m' = m ∧ log' = log) m log := by
  unfold closeFd
  rw [Cmd.wp_ite]
  exact ⟨fun _ => wp_unnoted (fun _ _ => rfl) fun _ => ⟨rfl, rfl⟩, fun _ => ⟨rfl, rfl⟩⟩

theorem gemClose_unnoted (handle : UInt32) :
    Cmd.wp unmapEnv (drmtapGemClose handle) (fun _ m' log' => m' = m ∧ log' = log) m log := by
  unfold drmtapGemClose
  rw [Cmd.wp_ite]
  exact ⟨fun _ => ⟨rfl, rfl⟩, fun _ => wp_unnoted (fun _ _ => rfl) fun _ => ⟨rfl, rfl⟩⟩

/-- A release unmaps the mapping of a frame, once, and nothing else. -/
theorem drmtapFrameRelease_unmaps (hp : frame.priv = some p) (hv : p.Valid m)
    (hmap : p.mapped = some t) : Cmd.wp unmapEnv (drmtapFrameRelease frame)
      (fun f m' log' => f = .cleared ∧ m'.heap.block t.base = none ∧ log' = log ++ [t]) m log := by
  obtain ⟨hw, -, hne, hlen, hpos⟩ := hv.mapped t hmap
  have hslice : (⟨t.base, p.mappedSize⟩ : Slice) = t := by rw [← hlen]
  have hunmap {log : List Slice} : Cmd.wp unmapEnv (munmap ⟨t.base, p.mappedSize⟩)
      (fun _ m' log' => m' = { m with heap := m.heap.release t.base } ∧ log' = log ++ [t]) m log := by
    rw [hslice, wp_munmap]
    exact ⟨trivial, fun _ _ hs => ⟨_, hw.free, rfl, hs⟩⟩
  have hpixels : Cmd.wp unmapEnv (unmapPriv p)
      (fun _ m' log' => m' = { m with heap := m.heap.release t.base } ∧ log' = log ++ [t]) m log := by
    unfold unmapPriv
    rw [hmap]
    simp only [Cmd.wp_ite, Cmd.wp_pure, Cmd.wp_bind, hpos.ne', false_imp_iff, not_false_eq_true,
      true_imp_iff, true_and]
    exact ⟨fun _ => wp_unnoted (fun _ _ => rfl) fun _ => hunmap, fun _ => hunmap⟩
  unfold drmtapFrameRelease
  rw [hp]
  simp only [Cmd.wp_bind, Cmd.wp_pure]
  apply Cmd.wp_mono hpixels
  rintro _ _ _ ⟨rfl, rfl⟩
  apply Cmd.wp_mono (closeFd_unnoted _)
  rintro _ _ _ ⟨rfl, rfl⟩
  apply Cmd.wp_mono (gemClose_unnoted _)
  rintro _ _ _ ⟨rfl, rfl⟩
  have hself : (m.heap.release t.base).Whole p.self :=
    hv.self.congr (Heap.release_block hne.symm)
  rw [wp_freePriv]
  refine ⟨trivial, fun _ _ hs => ⟨_, hself.free, trivial, ?_, hs⟩⟩
  show ((m.heap.release t.base).release p.self.base).block t.base = none
  rw [Heap.release_block hne]
  exact if_pos rfl

end Release

/-! The frames of a session -/

theorem drmtapFrameOwnsData_iff {frame : FrameInfo} {p : FramePriv} {d : Slice}
    (hd : frame.data = some d) (hp : frame.priv = some p) :
    drmtapFrameOwnsData frame = 1 ↔ ∃ t, p.mapped = some t ∧ t.base = d.base := by
  simp [drmtapFrameOwnsData, hd, hp]

/-- A frame that a grab hands out with pixels is said to own them exactly when they are in a
mapping that this grab made. Until it is released, whatever is done with the context, the caller's
memory and the other frames, this block is what it was; the release unmaps it, once. -/
theorem frame_owns_data_iff {egl : Prop} {driver : String} {crtcId : UInt32} {s : Session}
    {entry : GrabEntry} {frame : FrameInfo} {r : ℤ × FrameInfo} {m : Machine}
    {held : Multiset Resource} {d : Slice}
    (hrun : Relation.ReflTransGen (SessionStep egl) (.openedOn driver crtcId) s)
    (hr : Cmd.Runs (libEnv egl .free) (entry.run frame) s.machine s.held r m held)
    (h0 : r.1 = 0) (hd : r.2.data = some d) :
    (drmtapFrameOwnsData r.2 = 1 ↔ r.2.MappedSince s.machine m d) ∧
      (drmtapFrameOwnsData r.2 = 1 → ∀ s', Relation.ReflTransGen (Session.KeepStep egl r.2)
          ((s.after m held).hand r.1 r.2) s' →
        s'.machine.heap.block d.base = m.heap.block d.base ∧
        Cmd.wp unmapEnv (drmtapFrameRelease r.2) (fun f m' log =>
          f = .cleared ∧ m'.heap.block d.base = none ∧ log = [d]) s'.machine []) := by
  have hs := (Session.openedOn_sound driver crtcId).run hrun
  have hs' := hs.grab hr
  have hhand : (s.after m held).hand r.1 r.2 =
      { s.after m held with frames := r.2 :: s.frames } := if_pos h0
  rw [hhand] at hs' ⊢
  have hmem : r.2 ∈ (r.2 :: s.frames) := List.mem_cons_self
  have hsum : s.held = s.machine.sockets + (s.machine.ctx.owned + s.owned) := by
    rw [hs.held]
    abel
  obtain ⟨p, hp, hn, hdata⟩ := GrabEntry.shown hs.intact.fast.ready (hsum ▸ hr) h0
  have hvalid := hs'.intact.valid r.2 hmem p hp
  have howns : drmtapFrameOwnsData r.2 = 1 ↔ p.mapped = some d := by
    rw [drmtapFrameOwnsData_iff hd hp]
    constructor
    · rintro ⟨t, ht, hbase⟩
      refine (hdata d hd).resolve_right fun hno => hno ?_
      rw [← hbase]
      exact (hvalid.mapped t ht).2.1
    · intro hmap
      exact ⟨d, hmap, rfl⟩
  have hblock (hmap : p.mapped = some d) : d.base ∈ r.2.blocks :=
    FrameInfo.mem_blocks.mpr ⟨p, hp, .inr ⟨d, hmap, rfl⟩⟩
  rw [howns]
  constructor
  · constructor
    · intro hmap
      obtain ⟨hw, hpriv, hne, -⟩ := hvalid.mapped d hmap
      have hspared := hs'.intact.spared d.base
        (Session.mem_claimed.mpr (.inl ⟨r.2, hmem, hblock hmap⟩))
      refine ⟨hn d hmap, hw, hpriv, fun i => (hspared.slots i).mapped, fun p' hp' => ?_⟩
      obtain rfl := Option.some.inj (hp.symm.trans hp')
      exact hne.symm
    · intro h
      exact (hdata d hd).resolve_right fun hno => hno h.apart
  · intro hmap s' hkeep
    obtain ⟨hsound, hmem', hsame⟩ := hs'.run_keeps hmem (hblock hmap) hkeep
    have hunmaps : Cmd.wp unmapEnv (drmtapFrameRelease r.2) _ s'.machine [] :=
      drmtapFrameRelease_unmaps hp (hsound.intact.valid r.2 hmem' p hp) hmap
    exact ⟨hsame, hunmaps⟩

/-- A helper that passes a descriptor which can be mapped. -/
def mappingDevice : Device
  | .mmap _ _ _ => .ok fun _ => 0
  | o => passedDevice o

theorem mappingDevice_libAns (o : Op) : libAns False o (mappingDevice o) := by
  cases o with
  | mmap src size off => trivial
  | _ => exact passedDevice_libAns _

theorem mappingDevice_grab : ((GrabEntry.mapped.run .cleared).exec 100
    (libLedger.device mappingDevice) (Session.openedOn "i915" 2).machine 0).map
      (fun x => (x.1.1.1, x.1.1.2.data, drmtapFrameOwnsData x.1.1.2)) = some (0, some ⟨2, 4⟩, 1) := by
  decide +kernel

theorem frame_owns_data_iff_passed : ∃ (r : ℤ × FrameInfo) (m : Machine) (d : Slice),
    drmtapFrameOwnsData r.2 = 1 ∧ r.2.MappedSince (Session.openedOn "i915" 2).machine m d := by
  obtain ⟨⟨⟨⟨ret, frame⟩, m⟩, held⟩, he, heq⟩ := Option.map_eq_some_iff.mp mappingDevice_grab
  obtain ⟨rfl, hd, howns⟩ : ret = 0 ∧ frame.data = some ⟨2, 4⟩ ∧ drmtapFrameOwnsData frame = 1 := by
    simpa using heq
  have hruns : Cmd.Runs (libEnv False .free) (GrabEntry.mapped.run .cleared)
      (Session.openedOn "i915" 2).machine 0 (0, frame) m held := by
    apply Cmd.exec_runs (E := libEnv False .free) _ he
    intro s o r s' hs
    obtain ⟨rfl, rfl⟩ := Prod.mk.inj (Option.some.inj hs)
    exact ⟨mappingDevice_libAns o, rfl⟩
  exact ⟨(0, frame), m, ⟨2, 4⟩, howns, (frame_owns_data_iff .refl hruns rfl hd).1.mp howns⟩

end Drmtap
