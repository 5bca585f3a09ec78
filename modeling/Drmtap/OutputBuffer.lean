import Drmtap.FastSlots

/-! The caller's output buffer is left alone by all that a grab does beside its conversions. -/
namespace Drmtap

open Memory Effect

/-- A frame whose conversions stay below the cap of the library. -/
structure Small (width height stride : UInt32) : Prop where
  width_le : width.toNat ≤ drmtapMaxDim
  tight : width.toNat * height.toNat * 4 ≤ drmtapMaxFbBytes
  padded : stride.toNat * height.toNat ≤ drmtapMaxFbBytes

/-- A slot whose mapping is not block `b`. -/
structure FastSlot.Spared (b : ℕ) (slot : FastSlot) : Prop where
  mapped : ∀ s, slot.mmapPtr = some s → s.base ≠ b
  small : Small slot.width slot.height slot.stride

def SlotsSpared (b : ℕ) (slots : SlotId → FastSlot) : Prop := ∀ i, (slots i).Spared b

namespace Machine

/-- None of the buffers of the library is block `b`, and the slots are as `K` says. -/
structure Spared (K : (SlotId → FastSlot) → Prop) (b : ℕ) (m : Machine) : Prop where
  lt : b < m.heap.next
  shadow : ∀ s, m.ctx.deswizzleBuf = some s → s.base ≠ b
  pixel : ∀ s, m.ctx.pixelBuf = some s → s.base ≠ b
  slots : K m.ctx.fastSlots
  memo : m.ctx.MemoOk

/-- Block `b` is as before, and no output buffer was asked for. -/
structure Same (b : ℕ) (m m' : Machine) : Prop where
  block : m'.heap.block b = m.heap.block b
  userOut : m'.ctx.userOut = m.ctx.userOut
  outSizes : m'.ctx.outSizes = m.ctx.outSizes

instance (b : ℕ) : IsPreorder Machine (Same b) where
  refl _ := ⟨rfl, rfl, rfl⟩
  trans _ _ _ h h' :=
    ⟨h'.block.trans h.block, h'.userOut.trans h.userOut, h'.outSizes.trans h.outSizes⟩

end Machine

/-- The calls of a grab beside the GPU's. -/
def PlainOp : Op → Prop
  | .eglRender _ _ _ _ _ _ _ | .eglReadback _ => False
  | _ => True

abbrev Spares {α : Type} (K : (SlotId → FastSlot) → Prop) (b : ℕ) (m : M α) (Q : α → Prop) :
    Prop :=
  Cmd.Stays PlainOp (Machine.Spared K b) (Machine.Same b) m Q

section Heap
variable {K : (SlotId → FastSlot) → Prop} {b : ℕ} {α : Type}

theorem Machine.Spared.of_heap {m : Machine} (hm : m.Spared K b) {h : Heap}
    (hn : m.heap.next ≤ h.next) : ({ m with heap := h } : Machine).Spared K b :=
  ⟨hm.lt.trans_le hn, hm.shadow, hm.pixel, hm.slots, hm.memo⟩

/-- A step on the memory elsewhere. -/
theorem spares_onHeap {f : Heap → Option (α × Heap)} {Q : α → Prop}
    (hf : ∀ h a h', b < h.next → f h = some (a, h') →
      h.next ≤ h'.next ∧ h'.block b = h.block b ∧ Q a) : Spares K b (onHeap f) Q := by
  intro m hm
  rw [wlp_onHeap]
  intro a h' he
  obtain ⟨hn, hb, hQ⟩ := hf _ _ _ hm.lt he
  exact ⟨hm.of_heap hn, ⟨hb, rfl, rfl⟩, hQ⟩

theorem spares_alloc {size : ℕ} {bytes : ℕ → UInt8} {r : Slice → α} {Q : α → Prop}
    (hQ : ∀ s : Slice, s.base ≠ b → Q (r s)) :
    Spares K b (onHeap fun h => some (r (h.alloc size bytes).1, (h.alloc size bytes).2)) Q := by
  apply spares_onHeap
  rintro h _ _ hlt ⟨⟩
  exact ⟨Nat.le_succ _, Heap.alloc_block_of_lt hlt _ _, hQ _ hlt.ne'⟩

theorem spares_free {s : Slice} (hs : s.base ≠ b) :
    Spares K b (onHeap fun h => (h.free s).map ((), ·)) fun _ => True := by
  apply spares_onHeap
  intro h _ h' _ he
  obtain ⟨h₁, hfree, heq⟩ := Option.map_eq_some_iff.mp he
  obtain ⟨-, rfl⟩ := Prod.mk.inj heq
  rw [Heap.eq_release hfree]
  exact ⟨le_rfl, Heap.release_block hs.symm, trivial⟩

theorem Heap.store_other {h h' : Heap} {s : Slice} {off : ℕ} {l : List UInt8}
    (he : h.store s off l = some h') (hs : s.base ≠ b) :
    h.next ≤ h'.next ∧ h'.block b = h.block b := by
  unfold Heap.store at he
  split at he
  · split at he
    · obtain rfl := Option.some.inj he
      exact ⟨le_rfl, if_neg hs.symm⟩
    · cases he
  · cases he

theorem spares_store {s : Slice} (hs : s.base ≠ b) (off : ℕ) (l : List UInt8) :
    Spares K b (onHeap fun h => (h.store s off l).map ((), ·)) fun _ => True := by
  apply spares_onHeap
  intro h _ h' _ he
  obtain ⟨h₁, hstore, heq⟩ := Option.map_eq_some_iff.mp he
  obtain ⟨-, rfl⟩ := Prod.mk.inj heq
  exact ⟨(Heap.store_other hstore hs).1, (Heap.store_other hstore hs).2, trivial⟩

theorem spares_mmap (src : MapSource) (size off : ℕ) :
    Spares K b (mmap src size off) fun r => ∀ s, r = .ok s → s.base ≠ b := by
  apply Cmd.Stays.bind (.call trivial)
  rintro (e | bytes) -
  · exact .pure (by simp)
  · apply spares_alloc
    rintro s hs _ ⟨⟩
    exact hs

theorem spares_malloc (size : ℕ) :
    Spares K b (malloc size) fun r => ∀ s, r = some s → s.base ≠ b := by
  apply Cmd.Stays.bind (.call trivial)
  rintro (_ | bytes) -
  · exact .pure (by simp)
  · apply spares_alloc
    rintro s hs _ ⟨⟩
    exact hs

theorem spares_callocPriv : Spares K b callocPriv fun r => ∀ s, r = some s → s.base ≠ b := by
  apply Cmd.Stays.bind (.call trivial)
  intro made _
  apply Cmd.Stays.ite
  · apply spares_alloc
    rintro s hs _ ⟨⟩
    exact hs
  · exact .pure (by simp)

theorem spares_munmap {s : Slice} (hs : s.base ≠ b) : Spares K b (munmap s) fun _ => True :=
  .bind (.call trivial) fun _ _ => spares_free hs

theorem spares_freePriv {s : Slice} (hs : s.base ≠ b) : Spares K b (freePriv s) fun _ => True :=
  .bind (.call trivial) fun _ _ => spares_free hs

theorem spares_freeBuf {buf : Option Slice} (hb : ∀ s, buf = some s → s.base ≠ b) :
    Spares K b (freeBuf buf) fun _ => True := by
  cases buf with
  | none => exact .pure trivial
  | some s => exact .bind (.call trivial) fun _ _ => spares_free (hb s rfl)

theorem spares_ensureBuf {buf : Option Slice} (hb : ∀ s, buf = some s → s.base ≠ b) (size : ℕ) :
    Spares K b (drmtapEnsureBuf buf size) fun r => ∀ s, r.2 = some s → s.base ≠ b := by
  refine .ite (.pure hb) (.ite (.pure hb) (.ite (.pure hb) ?_))
  refine .bind (spares_freeBuf hb) fun _ _ => .bind (spares_malloc size) ?_
  rintro (_ | s) hs
  · exact .pure (by simp)
  · refine .pure ?_
    rintro _ ⟨⟩
    exact hs s rfl

/-- What is known of the context. -/
theorem spares_getCtx : Spares K b getCtx fun c =>
    (∀ s, c.pixelBuf = some s → s.base ≠ b) ∧ K c.fastSlots :=
  .bind .get fun _ hm => .pure ⟨hm.pixel, hm.slots⟩

/-- A change of the context beside its buffers, its slots and its memo. -/
theorem spares_modifyCtx {f : Ctx → Ctx} (hshadow : ∀ c, (f c).deswizzleBuf = c.deswizzleBuf)
    (hpixel : ∀ c, (f c).pixelBuf = c.pixelBuf) (hslots : ∀ c, (f c).fastSlots = c.fastSlots)
    (hmemo : ∀ c, c.MemoOk → (f c).MemoOk) (huser : ∀ c, (f c).userOut = c.userOut)
    (hsizes : ∀ c, (f c).outSizes = c.outSizes) : Spares K b (modifyCtx f) fun _ => True := by
  apply Cmd.Stays.modify
  · intro m hm
    refine ⟨hm.lt, ?_, ?_, ?_, hmemo _ hm.memo⟩
    · rw [hshadow]
      exact hm.shadow
    · rw [hpixel]
      exact hm.pixel
    · rw [hslots]
      exact hm.slots
  · exact fun m => ⟨rfl, huser _, hsizes _⟩

theorem spares_setPixelBuf {buf : Option Slice} (hb : ∀ s, buf = some s → s.base ≠ b) :
    Spares K b (modifyCtx (·.setPixelBuf buf)) fun _ => True :=
  .modify (fun _ hm => ⟨hm.lt, hm.shadow, hb, hm.slots, hm.memo⟩) fun _ => ⟨rfl, rfl, rfl⟩

theorem spares_reads {P : Op → Prop} {m : M α} (hm : Cmd.Reads P m) (hP : ∀ o, P o → PlainOp o) :
    Spares K b m fun _ => True := by
  have hsteps : Cmd.Steps P Eq m := fun m₀ => Cmd.wp_mono (hm m₀) fun _ _ _ h => h.symm
  apply Cmd.Stays.of_steps hsteps hP
  rintro m₀ _ h rfl
  exact ⟨h, refl_of (Machine.Same b) m₀⟩

theorem Machine.Spared.scans {m m' : Machine} (h : m.Spared K b) (hs : Scans m m') :
    m'.Spared K b ∧ Machine.Same b m m' := by
  refine ⟨⟨hs.heap ▸ h.lt, ?_, ?_, ?_, hs.memo h.memo⟩, by rw [hs.heap], ?_, ?_⟩
  all_goals rw [hs.ctx]
  · exact h.shadow
  · exact h.pixel
  · exact h.slots

theorem plainOp_of_scanout {o : Op} (ho : ScanoutOp o) : PlainOp o := by
  rcases ho with ho | rfl
  · cases o <;> first | exact ho.elim | trivial
  · trivial

theorem spares_scans {m : M α} (hm : Cmd.Steps ScanoutOp Scans m) : Spares K b m fun _ => True :=
  .of_steps hm (fun _ => plainOp_of_scanout) fun _ _ h hs => h.scans hs

theorem spares_scanoutWidth (fbWidth : UInt32) (modifier : UInt64) :
    Spares K b (drmtapScanoutWidth fbWidth modifier) fun w => w ≤ fbWidth := by
  intro m hm
  have hq : (Env.only PlainOp fun _ _ => True : Env).Quiet ScanoutOp fun _ _ => True :=
    fun o ho _ => ⟨plainOp_of_scanout ho, fun _ _ _ => ⟨trivial, rfl⟩⟩
  have hw := Cmd.wp_quiet (s := ()) hq (drmtapScanoutWidth_spec hm.memo fbWidth modifier)
  refine Cmd.wlp_mono (Cmd.wlp_of_wp hw) ?_
  rintro w m' _ ⟨⟨hs, -, hle⟩, -⟩
  exact ⟨(hm.scans hs).1, (hm.scans hs).2, hle⟩

end Heap

section Grab
variable {K : (SlotId → FastSlot) → Prop} {b : ℕ}

/-- The record of a frame and its mapping are other blocks. -/
structure FramePriv.Spared (b : ℕ) (p : FramePriv) : Prop where
  self : p.self.base ≠ b
  mapped : ∀ s, p.mapped = some s → s.base ≠ b

/-- So are those of the frame, whose conversions are small. -/
structure FrameInfo.Spared (b : ℕ) (frame : FrameInfo) : Prop where
  priv : ∀ p, frame.priv = some p → p.Spared b
  small : Small frame.width frame.height frame.stride

def Prepared.Spared (b : ℕ) : Prepared → Prop
  | .done _ _ => True
  | .ready _ frame _ => frame.Spared b
  | .unmapped _ frame priv _ => frame.Spared b ∧ priv.Spared b ∧ frame.data = none

theorem Bounded.small {width height stride : UInt32}
    (h : Bounded width.toNat height.toNat stride.toNat) : Small width height stride where
  width_le := h.width_le
  tight := h.pixels
  padded := by
    rw [Nat.mul_comm]
    exact h.bytes

/-- Narrowing keeps it small. -/
theorem Small.narrow {width w height stride : UInt32} (h : Small width height stride)
    (hw : w ≤ width) : Small w height stride where
  width_le := (UInt32.le_iff_toNat_le.mp hw).trans h.width_le
  tight := by
    have := UInt32.le_iff_toNat_le.mp hw
    refine le_trans ?_ h.tight
    gcongr
  padded := h.padded

theorem spares_gemClose (handle : UInt32) : Spares K b (drmtapGemClose handle) fun _ => True :=
  .ite (.pure trivial) (.call trivial)

theorem spares_closeFd (fd : ℤ) : Spares K b (closeFd fd) fun _ => True :=
  .ite (.call trivial) (.pure trivial)

theorem spares_closeAuxiliaryGemHandles (fb2 : Fb2) :
    Spares K b (closeAuxiliaryGemHandles fb2) fun _ => True := by
  have haux (p : Fin 4) : Spares K b (closeAuxiliary fb2 p) fun _ => True :=
    .ite (.pure trivial) (spares_gemClose _)
  exact .bind (haux 1) fun _ _ => .bind (haux 2) fun _ _ => haux 3

theorem spares_unmapPriv {p : FramePriv} (hp : p.Spared b) : Spares K b (unmapPriv p) fun _ => True := by
  unfold unmapPriv
  cases hs : p.mapped with
  | none => exact .pure trivial
  | some mapped =>
    have hunmap : Spares K b (munmap ⟨mapped.base, p.mappedSize⟩) fun _ => True :=
      spares_munmap (hp.mapped mapped hs)
    exact .ite (.pure trivial) (.ite (.bind (.call trivial) fun _ _ => hunmap) hunmap)

theorem spares_frameRelease {frame : FrameInfo} (hf : ∀ p, frame.priv = some p → p.Spared b) :
    Spares K b (drmtapFrameRelease frame) fun _ => True := by
  unfold drmtapFrameRelease
  cases hp : frame.priv with
  | none => exact .pure trivial
  | some priv =>
    apply Cmd.Stays.bind (spares_unmapPriv (hf priv hp))
    intro _ _
    apply Cmd.Stays.bind (spares_closeFd _)
    intro _ _
    apply Cmd.Stays.bind (spares_gemClose _)
    intro _ _
    exact .bind (spares_freePriv (hf priv hp).self) fun _ _ => .pure trivial

theorem spares_grabCleanup (frame : FrameInfo) (pendingGem : UInt32) (primeFd ret : ℤ) :
    Spares K b (grabCleanup frame pendingGem primeFd ret) fun _ => True :=
  .bind (spares_closeFd _) fun _ _ => .bind (spares_gemClose _) fun _ _ => .pure trivial

theorem spares_grabCleanupPriv {priv : FramePriv} (hp : priv.Spared b) (frame : FrameInfo)
    (ret : ℤ) : Spares K b (grabCleanupPriv frame priv ret) fun r => r.1 = ret := by
  apply Cmd.Stays.bind (spares_closeFd _)
  intro _ _
  apply Cmd.Stays.bind (spares_gemClose _)
  intro _ _
  exact .bind (spares_freePriv hp.self) fun _ _ => .pure rfl

/-! The helper -/

theorem spares_converses : Converses PlainOp (Machine.Spared K b) (Machine.Same b) where
  spawn := trivial
  reap := trivial
  send _ _ := trivial
  recv _ _ := trivial
  recvmsg _ _ := trivial
  close _ := trivial
  keeps _ _ _ hm := ⟨hm.lt, hm.shadow, hm.pixel, hm.slots, hm.memo⟩
  moves _ _ _ := ⟨rfl, rfl, rfl⟩

/-! The frame -/

/-- A change of what is staged for a grab. -/
theorem spares_stage {f : Ctx → Ctx} (hf : ∀ c, ∃ n pitches offsets planeId eotf nits, f c = { c with
      fb2NumPlanes := n, fb2Pitches := pitches, fb2Offsets := offsets, grabPlaneId := planeId,
      curHdrEotf := eotf, curHdrMaxNits := nits }) : Spares K b (modifyCtx f) fun _ => True := by
  apply spares_modifyCtx
  all_goals
    intro c
    obtain ⟨n, pitches, offsets, planeId, eotf, nits, he⟩ := hf c
    rw [he]
  exact id

theorem spares_setHdr (hdr : UInt32 × UInt32) : Spares K b (modifyCtx (·.setHdr hdr)) fun _ => True :=
  spares_stage fun _ => ⟨_, _, _, _, hdr.1, hdr.2, rfl⟩

theorem spares_findPrimaryPlane : Spares K b findPrimaryPlane fun _ => True :=
  spares_scans (findPrimaryPlane_steps.mono (fun _ => .inl) fun _ _ => Scans.of_selects)

theorem spares_readHdr : Spares K b readHdrForCurrentCrtc fun _ => True := by
  apply Cmd.Stays.bind spares_getCtx
  intro ctx _
  apply Cmd.Stays.bind (spares_reads (readHdr_reads _) fun o ho => plainOp_of_scanout (.inl ho))
  intro hdr _
  exact spares_setHdr hdr

theorem spares_readScanout : Spares K b readScanout fun _ => True := by
  apply Cmd.Stays.bind spares_findPrimaryPlane
  intro planeId _
  apply Cmd.Stays.bind spares_readHdr
  intro _ _
  apply Cmd.Stays.ite (.pure trivial)
  apply Cmd.Stays.bind (.call trivial)
  rintro (_ | plane) -
  · exact .pure trivial
  · apply Cmd.Stays.ite (.pure trivial)
    apply Cmd.Stays.bind (.call trivial)
    rintro (e | fb2) - <;> exact .pure trivial

theorem spares_virtioTransfer (handle width height : UInt32) :
    Spares K b (virtioTransferFromHost handle width height) fun _ => True := by
  apply Cmd.Stays.bind (.call trivial)
  rintro (_ | e) -
  · exact .call trivial
  · exact .pure trivial

theorem spares_mapVirtio (fb2 : Fb2) (size : ℕ) :
    Spares K b (mapVirtio fb2 size) fun r => ∀ s, r = some s → s.base ≠ b := by
  apply Cmd.Stays.bind spares_getCtx
  intro ctx _
  apply Cmd.Stays.ite _ (.pure (by simp))
  apply Cmd.Stays.bind (spares_virtioTransfer _ _ _)
  rintro (_ | e) -
  · apply Cmd.Stays.bind (Q := fun r => ∀ s, r = .ok s → s.base ≠ b)
    · apply Cmd.Stays.bind (.call trivial)
      rintro (e | off) -
      · exact .pure (by simp)
      · exact spares_mmap _ _ _
    · rintro (e | mapped) hs
      · exact .pure (by simp)
      · refine .pure ?_
        rintro _ ⟨⟩
        exact hs mapped rfl
  · exact .pure (by simp)

theorem spares_mapFramebuffer (fb2 : Fb2) (primeFd : ℤ) (size : ℕ) :
    Spares K b (mapFramebuffer fb2 primeFd size) fun r => ∀ s dumb, r = .ok (s, dumb) → s.base ≠ b := by
  apply Cmd.Stays.bind (spares_mapVirtio fb2 size)
  rintro (_ | mapped) hs
  · apply Cmd.Stays.bind (spares_mmap _ _ _)
    rintro (e | mapped) hs
    · exact .pure (by simp)
    · refine .pure ?_
      rintro _ _ ⟨⟩
      exact hs mapped rfl
  · refine .pure ?_
    rintro _ _ ⟨⟩
    exact hs mapped rfl

theorem spares_prepareMapped {planeId : UInt32} {fb2 : Fb2} {frame : FrameInfo} {priv : FramePriv}
    (hf : frame.Spared b) (hp : priv.Spared b) (hd : frame.data = none) :
    Spares K b (prepareMapped planeId fb2 frame priv) (Prepared.Spared b) := by
  apply Cmd.Stays.bind (spares_mapFramebuffer _ _ _)
  rintro (e | ⟨mapped, dumb⟩) hs
  · exact .pure ⟨hf, hp, hd⟩
  · apply Cmd.Stays.bind (.call trivial)
    intro started _
    refine .pure ⟨?_, hf.small⟩
    rintro _ ⟨⟩
    refine ⟨hp.self, ?_⟩
    rintro _ ⟨⟩
    exact hs mapped dumb rfl

theorem spares_prepareDirect {fb2 : Fb2} (doMmap : Bool) (planeId fbId : UInt32)
    (frame : FrameInfo) (primeFd : ℤ) (hsmall : Small fb2.width fb2.height (fb2.pitches 0)) :
    Spares K b (prepareDirect doMmap planeId fbId fb2 frame primeFd) (Prepared.Spared b) := by
  apply Cmd.Stays.bind spares_callocPriv
  rintro (_ | self) hself
  · exact .bind (spares_grabCleanup _ _ _ _) fun _ _ => .pure trivial
  · have hp : (privOfDirect self primeFd (fb2.handles 0)).Spared b := ⟨hself self rfl, by simp [privOfDirect]⟩
    apply Cmd.Stays.bind (spares_scanoutWidth _ _)
    intro width hw
    have hf : (frameOfFb2 fb2 fbId width primeFd (privOfDirect self primeFd (fb2.handles 0))).Spared b := by
      refine ⟨?_, hsmall.narrow hw⟩
      rintro _ ⟨⟩
      exact hp
    exact .ite (spares_prepareMapped hf hp rfl) (.pure hf)

theorem spares_preparePassed {frame : FrameInfo} {self : Slice} (hself : self.base ≠ b)
    (hsmall : Small frame.width frame.height frame.stride) (planeId : UInt32) (wire : GrabWire)
    (fd : ℤ) : Spares K b (preparePassed planeId self frame wire fd) (Prepared.Spared b) := by
  apply Cmd.Stays.bind (spares_mmap _ _ _)
  rintro (e | mapped) hs
  · refine .pure ⟨?_, hsmall⟩
    rintro _ ⟨⟩
    exact ⟨hself, by simp [privOfHelper]⟩
  · apply Cmd.Stays.bind (.call trivial)
    intro started _
    refine .pure ⟨?_, hsmall⟩
    rintro _ ⟨⟩
    refine ⟨hself, ?_⟩
    rintro _ ⟨⟩
    exact hs mapped rfl

theorem spares_preparePixels {frame : FrameInfo} {self : Slice} (hself : self.base ≠ b)
    (hsmall : Small frame.width frame.height frame.stride) (planeId : UInt32) (pixelBuf : Slice)
    (wire : GrabWire) :
    Spares K b (preparePixels planeId self pixelBuf frame wire) (Prepared.Spared b) := by
  apply Cmd.Stays.ite
  · exact .bind (spares_freePriv hself) fun _ _ => .pure trivial
  · refine .pure ⟨?_, hsmall⟩
    rintro _ ⟨⟩
    exact ⟨hself, by simp [privOfHelper]⟩

theorem spares_prepareReply {self : Slice} (hself : self.base ≠ b) (planeId : UInt32)
    (pixelBuf : Slice) (reply : HelperGrabResult) :
    Spares K b (prepareReply planeId self pixelBuf reply) (Prepared.Spared b) := by
  apply Cmd.Stays.bind (spares_scanoutWidth _ _)
  intro width _
  apply Cmd.Stays.bind (spares_setHdr _)
  intro _ _
  apply Cmd.Stays.by_cases
  · intro _
    apply Cmd.Stays.bind (spares_closeFd _)
    intro _ _
    exact .bind (spares_freePriv hself) fun _ _ => .pure trivial
  · intro hok
    have hsmall := (checkWireFrame_spec.2 (not_not.mp hok)).1.small
    exact .ite (spares_preparePassed hself hsmall _ _ _) (spares_preparePixels hself hsmall _ _ _)

theorem spares_prepareByHelper (planeId : UInt32) (fb2 : Fb2) (frame : FrameInfo) :
    Spares K b (prepareByHelper planeId fb2 frame) (Prepared.Spared b) := by
  apply Cmd.Stays.bind spares_getCtx
  rintro ctx ⟨hpix, -⟩
  apply Cmd.Stays.bind (spares_ensureBuf hpix _)
  rintro ⟨ret, buf⟩ hbuf
  apply Cmd.Stays.bind (spares_setPixelBuf hbuf)
  intro _ _
  cases buf with
  | none => exact .pure trivial
  | some pixelBuf =>
    apply Cmd.Stays.ite (.pure trivial)
    apply Cmd.Stays.bind (spares_converses.helperGrab (spares_store (hbuf pixelBuf rfl) 0) _)
    rintro ⟨ret', reply⟩ -
    apply Cmd.Stays.ite
    · exact .bind (spares_grabCleanup _ _ _ _) fun _ _ => .pure trivial
    · apply Cmd.Stays.bind spares_callocPriv
      rintro (_ | self) hself
      · exact .bind (spares_closeFd _) fun _ _ => .pure trivial
      · exact spares_prepareReply (hself self rfl) _ _ _

theorem spares_prepareFramebuffer {fb2 : Fb2} (doMmap : Bool) (planeId fbId : UInt32)
    (frame : FrameInfo) (hsmall : Small fb2.width fb2.height (fb2.pitches 0)) :
    Spares K b (prepareFramebuffer doMmap planeId fbId fb2 frame) (Prepared.Spared b) := by
  apply Cmd.Stays.ite (spares_prepareByHelper _ _ _)
  apply Cmd.Stays.bind (.call trivial)
  rintro (e | primeFd) -
  · apply Cmd.Stays.ite
    · exact .bind (spares_gemClose _) fun _ _ => spares_prepareByHelper _ _ _
    · exact .bind (spares_grabCleanup _ _ _ _) fun _ _ => .pure trivial
  · exact spares_prepareDirect _ _ _ _ _ hsmall

/-- All that comes before the conversion of a grab. -/
theorem spares_prepareGrab (doMmap : Bool) (frame : FrameInfo) :
    Spares K b (prepareGrab doMmap frame) (Prepared.Spared b) := by
  apply Cmd.Stays.bind spares_getCtx
  intro ctx _
  apply Cmd.Stays.ite (.pure trivial)
  apply Cmd.Stays.bind spares_readScanout
  rintro (ret | ⟨planeId, fbId, fb2⟩) -
  · exact .pure trivial
  · apply Cmd.Stays.bind (spares_closeAuxiliaryGemHandles fb2)
    intro _ _
    apply Cmd.Stays.by_cases
    · exact fun _ => .bind (spares_grabCleanup _ _ _ _) fun _ _ => .pure trivial
    · intro hok
      apply Cmd.Stays.bind (spares_stage fun c => ⟨_, _, _, c.grabPlaneId, _, _, rfl⟩)
      intro _ _
      exact spares_prepareFramebuffer _ _ _ _ (checkGeometry_eq_zero.mp (not_not.mp hok)).small

end Grab

/-! The slots -/

section Slots
variable {b : ℕ}

theorem Small.zero : Small 0 0 0 := ⟨by decide, by decide, by decide⟩

theorem FastSlot.Spared.empty : FastSlot.empty.Spared b := ⟨by simp [FastSlot.empty], .zero⟩

theorem spares_getSlot (i : SlotId) : Spares (SlotsSpared b) b (getSlot i) (FastSlot.Spared b) :=
  .bind spares_getCtx fun _ h => .pure (h.2 i)

theorem spares_setSlot (i : SlotId) {slot : FastSlot} (hs : slot.Spared b) :
    Spares (SlotsSpared b) b (setSlot i slot) fun _ => True := by
  apply Cmd.Stays.modify
  · intro m hm
    refine ⟨hm.lt, hm.shadow, hm.pixel, fun j => ?_, hm.memo⟩
    by_cases hj : j = i
    · subst hj
      rw [show ((m.ctx.setSlot j slot).fastSlots j) = slot from Ctx.setSlot_self _ _ _]
      exact hs
    · rw [show ((m.ctx.setSlot i slot).fastSlots j) = m.ctx.fastSlots j from Ctx.setSlot_of_ne _ hj _]
      exact hm.slots j
  · exact fun m => ⟨rfl, rfl, rfl⟩

/-- The window of a slot is not open any more. -/
theorem spares_endWindow (i : SlotId) {slot : FastSlot} (hs : slot.Spared b) :
    Spares (SlotsSpared b) b (setSlot i { slot with syncStarted := false }) fun _ => True :=
  spares_setSlot i ⟨hs.mapped, hs.small⟩

/-- A change of what the fast path remembers beside its slots. -/
theorem spares_setFast {f : Ctx → Ctx} (hf : ∀ c, ∃ planeId last init noMap noPriv, f c = { c with
      fastPlaneId := planeId, fastLastFbId := last, fastInitialized := init, fastNoCpuMap := noMap,
      fastNoPrivilege := noPriv }) : Spares (SlotsSpared b) b (modifyCtx f) fun _ => True := by
  apply spares_modifyCtx
  all_goals
    intro c
    obtain ⟨planeId, last, init, noMap, noPriv, he⟩ := hf c
    rw [he]
  exact id

theorem spares_setFastLast (fbId : UInt32) :
    Spares (SlotsSpared b) b (modifyCtx (·.setFastLast fbId)) fun _ => True :=
  spares_setFast fun c => ⟨c.fastPlaneId, fbId, c.fastInitialized, c.fastNoCpuMap, c.fastNoPrivilege, rfl⟩

theorem spares_setFastNoCpuMap : Spares (SlotsSpared b) b (modifyCtx Ctx.setFastNoCpuMap) fun _ => True :=
  spares_setFast fun c => ⟨c.fastPlaneId, c.fastLastFbId, c.fastInitialized, true, c.fastNoPrivilege, rfl⟩

theorem spares_setGrabPlane (planeId : UInt32) :
    Spares (SlotsSpared b) b (modifyCtx (·.setGrabPlane planeId)) fun _ => True :=
  spares_stage fun c => ⟨c.fb2NumPlanes, _, _, planeId, _, _, rfl⟩

theorem spares_stageFb2 (fb2 : Fb2) : Spares (SlotsSpared b) b (modifyCtx (·.stageFb2 fb2)) fun _ => True :=
  spares_stage fun c => ⟨_, _, _, c.grabPlaneId, _, _, rfl⟩

theorem spares_restage (slot : FastSlot) : Spares (SlotsSpared b) b (modifyCtx (·.restage slot)) fun _ => True :=
  spares_stage fun c => ⟨_, _, _, c.grabPlaneId, _, _, rfl⟩

theorem spares_forSlots {body : SlotId → M Unit} (hb : ∀ i, Spares (SlotsSpared b) b (body i) fun _ => True)
    (is : List SlotId) : Spares (SlotsSpared b) b (forSlots body is) fun _ => True := by
  induction is with
  | nil => exact .pure trivial
  | cons i is ih => exact .bind (hb i) fun _ _ => ih

theorem spares_fastSyncClose : Spares (SlotsSpared b) b fastSyncClose fun _ => True := by
  apply spares_forSlots
  intro i
  apply Cmd.Stays.bind (spares_getSlot i)
  intro slot hs
  exact .ite (.bind (.call trivial) fun _ _ => spares_endWindow i hs) (spares_endWindow i hs)

theorem spares_fastSyncBegin (i : SlotId) : Spares (SlotsSpared b) b (fastSyncBegin i) fun _ => True := by
  apply Cmd.Stays.bind spares_fastSyncClose
  intro _ _
  apply Cmd.Stays.bind (spares_getSlot i)
  intro slot hs
  apply Cmd.Stays.ite _ (.pure trivial)
  exact .bind (.call trivial) fun started _ => spares_setSlot i ⟨hs.mapped, hs.small⟩

theorem spares_dropSlot (i : SlotId) : Spares (SlotsSpared b) b (dropSlot i) fun _ => True := by
  apply Cmd.Stays.bind (spares_getSlot i)
  intro slot hs
  have hunmap : Spares (SlotsSpared b) b (unmapSlot slot) fun _ => True := by
    unfold unmapSlot
    cases hp : slot.mmapPtr with
    | none => exact .pure trivial
    | some mapped => exact spares_munmap (hs.mapped mapped hp)
  apply Cmd.Stays.bind hunmap
  intro _ _
  apply Cmd.Stays.bind (spares_closeFd _)
  intro _ _
  exact .bind (spares_gemClose _) fun _ _ => spares_setSlot i .empty

theorem spares_fastCleanup : Spares (SlotsSpared b) b drmtapFastCleanup fun _ => True := by
  apply Cmd.Stays.bind spares_fastSyncClose
  intro _ _
  apply Cmd.Stays.bind (spares_forSlots spares_dropSlot _)
  intro _ _
  exact spares_setFast fun c => ⟨0, 0, false, false, c.fastNoPrivilege, rfl⟩

theorem spares_findOrAllocSlot (fbId : UInt32) : Spares (SlotsSpared b) b (findOrAllocSlot fbId) fun _ => True := by
  have hevict : Spares (SlotsSpared b) b evictSlot fun _ => True := by
    apply Cmd.Stays.bind (spares_getSlot 0)
    intro slot hs
    apply Cmd.Stays.ite
    · apply Cmd.Stays.bind (.call trivial)
      intro _ _
      apply Cmd.Stays.bind (spares_endWindow 0 hs)
      intro _ _
      exact .bind (spares_dropSlot 0) fun _ _ => .pure trivial
    · exact .bind (spares_dropSlot 0) fun _ _ => .pure trivial
  apply Cmd.Stays.bind spares_getCtx
  intro ctx _
  split
  · exact .pure trivial
  · split
    · exact .pure trivial
    · exact hevict

theorem spares_refreshSlot (i : SlotId) : Spares (SlotsSpared b) b (refreshSlot i) fun _ => True := by
  apply Cmd.Stays.bind spares_getCtx
  intro ctx _
  apply Cmd.Stays.ite
  · apply Cmd.Stays.bind (spares_virtioTransfer _ _ _)
    rintro (_ | e) -
    · exact .bind spares_fastSyncClose fun _ _ => .pure trivial
    · exact .pure trivial
  · exact .bind (spares_fastSyncBegin i) fun _ _ => .pure trivial

theorem spares_mapFast (fb2 : Fb2) (primeFd : ℤ) :
    Spares (SlotsSpared b) b (mapFast fb2 primeFd) fun r => ∀ s, r.1 = some s → s.base ≠ b := by
  apply Cmd.Stays.bind (spares_mapVirtio _ _)
  rintro (_ | mapped) hs
  · apply Cmd.Stays.bind spares_getCtx
    intro ctx _
    apply Cmd.Stays.ite (.pure (by simp))
    apply Cmd.Stays.bind (.call trivial)
    intro started _
    apply Cmd.Stays.bind (spares_mmap _ _ _)
    rintro (e | mapped) hs
    · exact .bind spares_setFastNoCpuMap fun _ _ => .pure (by simp)
    · apply Cmd.Stays.bind (.call trivial)
      intro forced _
      apply Cmd.Stays.ite
      · apply Cmd.Stays.bind (spares_munmap (hs mapped rfl))
        intro _ _
        exact .bind spares_setFastNoCpuMap fun _ _ => .pure (by simp)
      · refine .pure ?_
        rintro _ ⟨⟩
        exact hs mapped rfl
  · exact .pure hs

theorem spares_dropBuffer (primeFd : ℤ) (started : Bool) (handle : UInt32) :
    Spares (SlotsSpared b) b (dropBuffer primeFd started handle) fun _ => True := by
  have hclose : Spares (SlotsSpared b) b (do sys (.close primeFd); drmtapGemClose handle : M Unit) fun _ => True :=
    .bind (.call trivial) fun _ _ => spares_gemClose handle
  exact .ite (.bind (.call trivial) fun _ _ => hclose) hclose

theorem spares_startFast : Spares (SlotsSpared b) b startFast fun _ => True := by
  apply Cmd.Stays.bind spares_getCtx
  intro ctx _
  apply Cmd.Stays.ite (.pure trivial)
  apply Cmd.Stays.bind spares_findPrimaryPlane
  intro planeId _
  apply Cmd.Stays.bind (spares_setFast fun c =>
    ⟨planeId, c.fastLastFbId, c.fastInitialized, c.fastNoCpuMap, c.fastNoPrivilege, rfl⟩)
  intro _ _
  apply Cmd.Stays.bind spares_readHdr
  intro _ _
  apply Cmd.Stays.ite (.pure trivial)
  refine .bind (.modify (fun m hm => ?_) fun m => ⟨rfl, rfl, rfl⟩) fun _ _ => .pure trivial
  exact ⟨hm.lt, hm.shadow, hm.pixel, fun _ => .empty, hm.memo⟩

theorem spares_readFastFb : Spares (SlotsSpared b) b readFastFb fun _ => True := by
  apply Cmd.Stays.bind spares_getCtx
  intro ctx _
  apply Cmd.Stays.bind (.call trivial)
  rintro (_ | plane) - <;> exact .pure trivial

end Slots

end Drmtap
