import Drmtap.Lib.Ledger
import Drmtap.HelperServer

/-! What the helper holds: GEM handles, exported descriptors and mappings. -/
namespace Drmtap

open Memory Effect

inductive Held where
  | handle (h : UInt32)
  | fd (fd : ℤ)
  | mapping
deriving DecidableEq

/-- The handles a GetFB2 mints: one for each buffer object of the framebuffer, whose planes
share a handle when they share an object. -/
def Fb2.minted (fb2 : Fb2) : Multiset Held :=
  ((Finset.univ.image fb2.handles).erase 0).val.map .handle

def helperLedger : Ledger Op Ans Held where
  takes
    | .getFB2 _, .ok fb2 => fb2.minted
    | .primeHandleToFD _, .ok fd => {.fd fd}
    | .mmap _ _ _, .ok _ => {.mapping}
    | _, _ => 0
  gives
    | .gemClose h => some (.handle h)
    | .close fd => some (.fd fd)
    | .munmap _ => some .mapping
    | _ => none

/-- Every answer is possible, among the framebuffers that meet `C`. -/
def helperAns (C : Fb2 → Prop) : (o : Op) → Ans o → Prop
  | .getFB2 _, .ok fb2 => C fb2
  | _, _ => True

abbrev helperEnv (C : Fb2 → Prop) : Env := helperLedger.env (helperAns C)

/-- All planes are of one buffer object. -/
def Fb2.OneObject (fb2 : Fb2) : Prop := ∀ p, fb2.handles p = 0 ∨ fb2.handles p = fb2.handles 0

theorem Fb2.OneObject.minted_eq {fb2 : Fb2} (h : fb2.OneObject) :
    fb2.minted = if fb2.handles 0 = 0 then 0 else {.handle (fb2.handles 0)} := by
  unfold Fb2.minted
  split
  next h0 =>
    have hempty : (Finset.univ.image fb2.handles).erase 0 = ∅ := by
      ext x
      simp only [Finset.mem_erase, Finset.mem_image, Finset.mem_univ, true_and, Finset.notMem_empty,
        iff_false, not_and, not_exists]
      rintro hx p rfl
      exact hx ((h p).elim id fun he => he.trans h0)
    rw [hempty]
    rfl
  next h0 =>
    have hone : (Finset.univ.image fb2.handles).erase 0 = {fb2.handles 0} := by
      ext x
      simp only [Finset.mem_erase, Finset.mem_image, Finset.mem_univ, true_and,
        Finset.mem_singleton]
      constructor
      · rintro ⟨hx, p, rfl⟩
        exact (h p).resolve_left hx
      · rintro rfl
        exact ⟨h0, 0, rfl⟩
    rw [hone]
    rfl

theorem kmsOp_neutral {o : Op} (ho : KmsOp o) : helperLedger.Neutral o := by
  cases o <;> first | exact ho.elim | exact ⟨rfl, fun r => by cases r <;> rfl⟩

theorem sendOp_neutral {o : Op} (ho : SendOp o) : helperLedger.Neutral o := by
  cases o <;> first | exact ho.elim | exact ⟨rfl, fun r => by cases r <;> rfl⟩

theorem readHdrMetadata_neutral (crtcId : UInt32) :
    Cmd.Reads helperLedger.Neutral (readHdrMetadata (S := Helper) crtcId) :=
  (readHdr_reads crtcId).mono fun _ => kmsOp_neutral

theorem wireSendAll_neutral (sock : ℤ) (buf : List UInt8) :
    Cmd.Reads helperLedger.Neutral (wireSendAll (S := Helper) sock buf) :=
  (wireSendAll_reads sock buf).mono fun _ => sendOp_neutral

theorem wireSendFd_neutral (sock fd : ℤ) (buf : List UInt8) :
    Cmd.Reads helperLedger.Neutral (wireSendFd (S := Helper) sock fd buf) :=
  (wireSendFd_reads sock fd buf).mono fun _ => sendOp_neutral

theorem sendError_neutral (sock : ℤ) : Cmd.Reads helperLedger.Neutral (sendError sock) :=
  .bind (wireSendAll_neutral sock _) fun _ => .pure _

theorem probeProps_reads (planeId : UInt32) (props : List (UInt32 × UInt64)) (ids : List UInt32) :
    Cmd.Reads KmsOp (probeProps planeId props ids) := by
  induction props generalizing ids with
  | nil => exact .pure _
  | cons p props ih => exact .bind (.call trivial) fun _ => .ite (ih _) (ih _)

theorem probePlanes_reads (planes ids : List UInt32) :
    Cmd.Reads KmsOp (probePlanes planes ids) := by
  induction planes generalizing ids with
  | nil => exact .pure _
  | cons plane planes ih =>
    apply Cmd.Reads.ite
    · apply Cmd.Reads.bind (.call trivial)
      rintro (_ | props)
      · exact ih _
      · exact .bind (probeProps_reads plane props ids) fun _ => ih _
    · exact .pure _

theorem probePrimaryIds_reads : Cmd.Reads KmsOp probePrimaryIds := by
  apply Cmd.Reads.bind (.call trivial)
  rintro (_ | planes)
  · exact .pure _
  · exact probePlanes_reads planes []

section Handlers
variable {C : Fb2 → Prop} {sock : ℤ} {isVirtio : Bool} {st : Helper} {held : Multiset Held}

/-- Code that keeps what is held and mapped as it was. -/
def Keeps (C : Fb2 → Prop) {α : Type} (m : H α) : Prop :=
  ∀ st held, Cmd.wp (helperEnv C) m
    (fun _ st' held' => st'.heap.block = st.heap.block ∧ held' = held) st held

namespace Keeps
variable {α β : Type}

theorem of_reads {m : H α} (hm : Cmd.Reads helperLedger.Neutral m) : Keeps C m := by
  intro st held
  refine Cmd.wp_mono (Ledger.wp_reads hm st held) ?_
  rintro _ _ _ ⟨rfl, rfl⟩
  exact ⟨rfl, rfl⟩

theorem of_kms {m : H α} (hm : Cmd.Reads KmsOp m) : Keeps C m :=
  of_reads (hm.mono fun _ => kmsOp_neutral)

theorem pure (a : α) : Keeps C (Pure.pure a : H α) := fun _ _ => ⟨rfl, rfl⟩

theorem neutral {o : Op} (ho : helperLedger.Neutral o) : Keeps C (sys o) := of_reads (.call ho)

theorem modify {f : Helper → Helper} (hf : ∀ p, (f p).heap = p.heap) :
    Keeps C (modify f : H PUnit) := fun st _ => ⟨congrArg Heap.block (hf st), rfl⟩

theorem get : Keeps C (get : H Helper) := fun _ _ => ⟨rfl, rfl⟩

theorem bind {m : H α} {f : α → H β} (hm : Keeps C m) (hf : ∀ a, Keeps C (f a)) :
    Keeps C (m >>= f) := by
  intro st held
  rw [Cmd.wp_bind]
  refine Cmd.wp_mono (hm st held) ?_
  rintro a st' _ ⟨hb, rfl⟩
  refine Cmd.wp_mono (hf a st' _) ?_
  rintro _ _ _ ⟨hb', rfl⟩
  exact ⟨hb'.trans hb, rfl⟩

theorem ite {c : Prop} [Decidable c] {m m' : H α} (hm : Keeps C m) (hm' : Keeps C m') :
    Keeps C (if c then m else m') := by
  split
  · exact hm
  · exact hm'

end Keeps

theorem planeIsPrimary_keeps (planeId : UInt32) : Keeps C (planeIsPrimary planeId) := by
  apply Keeps.bind .get
  intro p
  split
  · exact .pure _
  · apply Keeps.bind (.of_kms probePrimaryIds_reads)
    intro ids
    exact .bind (.modify fun _ => rfl) fun _ => .pure _

theorem matchFramebuffer_keeps (targetCrtc : UInt32) (ids : List UInt32)
    (found : UInt32 × UInt32) : Keeps C (matchFramebuffer targetCrtc ids found) := by
  induction ids generalizing found with
  | nil => exact .pure _
  | cons id ids ih =>
    apply Keeps.bind (.neutral (kmsOp_neutral (o := .getPlane id) trivial))
    rintro (_ | plane)
    · exact ih _
    · apply Keeps.ite (ih _)
      apply Keeps.bind (planeIsPrimary_keeps _)
      intro isPrimary
      exact .ite (.pure _) (.ite (ih _) (ih _))

theorem mmap_spec {src : MapSource} {size off : ℕ} {Q : Except Errno Slice → Helper →
    Multiset Held → Prop} (he : ∀ e, Q (.error e) st held)
    (hok : ∀ g, Q (.ok (st.heap.alloc size g).1) { st with heap := (st.heap.alloc size g).2 }
      (.mapping ::ₘ held)) : Cmd.wp (helperEnv C) (mmap src size off) Q st held := by
  rw [wp_mmap]
  refine ⟨?_, ?_, ?_⟩
  · rintro _ ⟨⟩
  · rintro e _ ⟨-, rfl⟩
    simpa [Ledger.after, helperLedger] using he e
  · rintro g _ ⟨-, rfl⟩
    exact hok g

theorem munmap_spec {m : Slice} {Q : Unit → Helper → Multiset Held → Prop}
    (hm : st.heap.Whole m) (hQ : Q () { st with heap := st.heap.release m.base } held) :
    Cmd.wp (helperEnv C) (munmap m) Q st (.mapping ::ₘ held) := by
  rw [wp_munmap]
  constructor
  · rintro _ ⟨⟩
    exact Multiset.mem_cons_self _ _
  · rintro _ _ ⟨-, rfl⟩
    have hheld : (Held.mapping ::ₘ held).erase .mapping = held := Multiset.erase_cons_head _ _
    refine ⟨_, hm.free, ?_⟩
    simp only [Ledger.after, helperLedger, zero_add, hheld]
    exact hQ

theorem close_spec {fd : ℤ} {Q : Unit → Helper → Multiset Held → Prop} (hQ : Q () st held) :
    Cmd.wp (helperEnv C) (sys (.close fd)) Q st (.fd fd ::ₘ held) :=
  Ledger.wp_give rfl (fun _ => rfl) fun _ _ => hQ

theorem helperGemClose_spec {handle : UInt32} {Q : Unit → Helper → Multiset Held → Prop}
    (hne : handle ≠ 0) (hQ : Q () st held) :
    Cmd.wp (helperEnv C) (helperGemClose handle) Q st (.handle handle ::ₘ held) := by
  unfold helperGemClose
  rw [if_neg hne]
  exact Ledger.wp_give rfl (fun _ => rfl) fun _ _ => hQ

theorem sendPixels_keeps (handle : UInt32) (size : ℕ) (reply : GrabWire) :
    Keeps C (sendPixels sock handle size reply) := by
  have herr := fun st held => Keeps.of_reads (C := C) (sendError_neutral sock) st held
  intro st held
  unfold sendPixels
  rw [Cmd.wp_bind]
  refine Ledger.wp_neutral ⟨rfl, fun r => by cases r <;> rfl⟩ ?_
  rintro (_ | off) -
  · exact herr st held
  · simp only [Cmd.wp_bind]
    refine mmap_spec (fun _ => herr st held) fun g => ?_
    have hwhole := st.heap.alloc_whole size g
    have hblock := st.heap.alloc_release_block size g
    simp only [Cmd.wp_bind]
    refine Cmd.wp_mono (Ledger.wp_reads (wireSendAll_neutral sock _) _ _) ?_
    rintro sent _ _ ⟨rfl, rfl⟩
    rw [Cmd.wp_ite]
    constructor
    · intro _
      simp only [Cmd.wp_bind, wp_onHeap]
      refine ⟨_, _, by
        rw [show HasHeap.heap _ = (st.heap.alloc size g).2 from rfl,
          Heap.load_eq hwhole.live (Nat.zero_add size).le]
        rfl, ?_⟩
      refine Cmd.wp_mono (Ledger.wp_reads (wireSendAll_neutral sock _) _ _) ?_
      rintro sent' _ _ ⟨rfl, rfl⟩
      exact munmap_spec hwhole ⟨hblock, rfl⟩
    · intro _
      rw [Cmd.wp_bind]
      exact munmap_spec hwhole ⟨hblock, rfl⟩

theorem sendFramebuffer_keeps (handle : UInt32) (size : ℕ) (reply : GrabWire) :
    Keeps C (sendFramebuffer sock isVirtio handle size reply) := by
  apply Keeps.ite
  · apply Keeps.bind .get
    intro p st held
    rw [Cmd.wp_bind]
    refine Ledger.wp_take rfl ?_
    rintro (e | fd) -
    · have hfallback : Keeps C (if p.virtioVirgl then sendError sock
          else sendPixels sock handle size reply) :=
        .ite (.of_reads (sendError_neutral sock)) (sendPixels_keeps _ _ _)
      rw [show helperLedger.takes (.primeHandleToFD handle) (.error e) + held = held from
        zero_add held]
      exact hfallback st held
    · simp only [Cmd.wp_bind]
      refine Cmd.wp_mono (Ledger.wp_reads (wireSendFd_neutral sock fd _) _ _) ?_
      rintro sent _ _ ⟨rfl, rfl⟩
      exact close_spec ⟨rfl, rfl⟩
  · exact sendPixels_keeps _ _ _

theorem refreshVirtio_neutral (fb2 : Fb2) :
    Cmd.Reads helperLedger.Neutral (refreshVirtio isVirtio fb2) := by
  apply Cmd.Reads.ite
  · apply Cmd.Reads.bind (.call ⟨rfl, fun _ => rfl⟩)
    rintro (_ | e)
    · exact .bind (.call ⟨rfl, fun _ => rfl⟩) fun _ => .pure _
    · exact .pure _
  · exact .pure _

theorem detectVirtio_keeps : Keeps C (detectVirtio isVirtio) := by
  apply Keeps.bind .get
  intro p
  apply Keeps.ite
  · exact .bind (.neutral ⟨rfl, fun _ => rfl⟩) fun _ => .modify fun _ => rfl
  · exact .pure _

theorem buildMeta_keeps (fbId matchedCrtc : UInt32) (fb2 : Fb2) :
    Keeps C (buildMeta fbId matchedCrtc fb2) := by
  apply Keeps.bind (.of_reads (readHdrMetadata_neutral matchedCrtc))
  intro hdr
  have hseq : Keeps C (modify Helper.bumpSeq) := .modify fun _ => rfl
  apply hseq.bind
  intro _
  apply Keeps.bind (.neutral ⟨rfl, fun _ => rfl⟩)
  intro timestamp
  exact .bind .get fun _ => .pure _

/-- A GetFB2 whose planes share one object hands over the handle that is closed in the end. -/
theorem getFB2_spec {id : UInt32} {Q : Except Errno Fb2 → Helper → Multiset Held → Prop}
    (hC : ∀ fb2, C fb2 → fb2.OneObject) (he : ∀ e, Q (.error e) st held)
    (hnone : ∀ fb2, fb2.handles 0 = 0 → Q (.ok fb2) st held)
    (hsome : ∀ fb2, fb2.handles 0 ≠ 0 → Q (.ok fb2) st (.handle (fb2.handles 0) ::ₘ held)) :
    Cmd.wp (helperEnv C) (sys (.getFB2 id)) Q st held := by
  refine Ledger.wp_take rfl ?_
  rintro (e | fb2) hfb
  · rw [show helperLedger.takes (.getFB2 id) (.error e) + held = held from zero_add held]
    exact he e
  · have hm : helperLedger.takes (.getFB2 id) (.ok fb2) = fb2.minted := rfl
    rw [hm, (hC fb2 hfb).minted_eq]
    split
    next h0 =>
      rw [zero_add]
      exact hnone fb2 h0
    next h0 => exact hsome fb2 h0

theorem serveFramebuffer_keeps (fbId matchedCrtc : UInt32) (fb2 : Fb2) :
    Keeps C (serveFramebuffer sock isVirtio fbId matchedCrtc fb2) := by
  apply Keeps.bind (.of_reads (refreshVirtio_neutral fb2))
  intro _
  apply Keeps.bind detectVirtio_keeps
  intro _
  exact .bind (buildMeta_keeps _ _ _) fun _ => sendFramebuffer_keeps _ _ _

theorem grabFramebuffer_keeps (hC : ∀ fb2, C fb2 → fb2.OneObject) (fbId matchedCrtc : UInt32) :
    Keeps C (grabFramebuffer sock isVirtio fbId matchedCrtc) := by
  have herr := fun st held => Keeps.of_reads (C := C) (sendError_neutral sock) st held
  intro st held
  unfold grabFramebuffer
  rw [Cmd.wp_bind]
  refine getFB2_spec hC (fun _ => herr st held) (fun fb2 h0 => ?_) fun fb2 h0 => ?_
  · simp only [h0, if_true]
    exact herr st held
  · simp only [h0, if_false]
    rw [Cmd.wp_ite]
    constructor
    · intro _
      rw [Cmd.wp_bind]
      exact helperGemClose_spec h0 (herr st held)
    · intro _
      rw [Cmd.wp_bind]
      refine Cmd.wp_mono (serveFramebuffer_keeps fbId matchedCrtc fb2 st _) ?_
      rintro ret st' _ ⟨hb, rfl⟩
      rw [Cmd.wp_bind]
      exact helperGemClose_spec h0 ⟨hb, rfl⟩

theorem grabAndSend_keeps (hC : ∀ fb2, C fb2 → fb2.OneObject) (targetCrtc : UInt32) :
    Keeps C (grabAndSend sock targetCrtc isVirtio) := by
  apply Keeps.bind (.neutral (kmsOp_neutral (o := .getPlaneResources) trivial))
  rintro (e | planes)
  · exact .of_reads (sendError_neutral sock)
  · apply Keeps.bind (matchFramebuffer_keeps _ _ _)
    intro found
    exact .ite (.of_reads (sendError_neutral sock)) (grabFramebuffer_keeps hC _ _)

/-! The cursor -/

theorem matchCursor_reads (targetCrtc : UInt32) (ids : List UInt32) :
    Cmd.Reads KmsOp (matchCursor targetCrtc ids) := by
  induction ids with
  | nil => exact .pure _
  | cons id ids ih =>
    apply Cmd.Reads.bind (.call trivial)
    rintro (_ | plane)
    · exact ih
    · apply Cmd.Reads.ite _ ih
      exact .bind (getPropVal_reads _ _ _) fun _ => .ite (.pure _) ih

theorem cursorPlacement_reads (plane : UInt32) : Cmd.Reads KmsOp (cursorPlacement plane) :=
  .bind (getPropVal_reads _ _ _) fun _ => .bind (getPropVal_reads _ _ _) fun _ =>
    .bind (getPropValFound_reads _ _ _) fun _ => .bind (getPropValFound_reads _ _ _) fun _ =>
      .pure _

theorem sendCursorMeta_keeps (reply : CursorWire) (extended : Bool) :
    Keeps C (sendCursorMeta sock reply extended) :=
  .of_reads (wireSendAll_neutral sock _)

/-- The mapping of a cursor, with its descriptor, or nothing of either. -/
theorem mapCursor_spec {handle : UInt32} {size : ℕ}
    {Q : Option (Slice × ℕ) → Helper → Multiset Held → Prop} (hnone : Q none st held)
    (hsome : ∀ fd g, Q (some ((st.heap.alloc size g).1, fd))
      { st with heap := (st.heap.alloc size g).2 } (.mapping ::ₘ .fd fd ::ₘ held)) :
    Cmd.wp (helperEnv C) (mapCursor handle size) Q st held := by
  unfold mapCursor
  rw [Cmd.wp_bind]
  refine Ledger.wp_take rfl ?_
  rintro (e | fd) -
  · rw [show helperLedger.takes (.primeHandleToFD handle) (.error e) + held = held from
      zero_add held]
    exact hnone
  · have ht : helperLedger.takes (.primeHandleToFD handle) (.ok fd) + held =
      .fd fd ::ₘ held := rfl
    rw [ht]
    simp only [Cmd.wp_bind]
    refine mmap_spec (fun e => ?_) fun g => hsome fd g
    rw [Cmd.wp_bind]
    exact close_spec hnone

/-- The rows that fit a mapping are all read. -/
theorem packCursor_isSome {h : Heap} {mapped : Slice} {width height stride : ℕ}
    (hm : h.Live mapped) (hw : width * 4 ≤ stride) (hlen : stride * height ≤ mapped.len) :
    ∃ packed, packCursor mapped width height stride h = some packed := by
  have hrow : ∀ y ∈ List.range height, y * stride + width * 4 ≤ mapped.len := by
    intro y hy
    have hle : (y + 1) * stride ≤ height * stride :=
      Nat.mul_le_mul_right stride (Nat.succ_le_of_lt (List.mem_range.mp hy))
    rw [Nat.succ_mul, Nat.mul_comm height] at hle
    omega
  unfold packCursor
  generalize List.range height = rows, ([] : List UInt8) = packed at hrow
  induction rows generalizing packed with
  | nil => exact ⟨packed, rfl⟩
  | cons y rows ih =>
    rw [List.foldlM_cons, Heap.load_eq hm (hrow y List.mem_cons_self)]
    exact ih _ fun y' hy' => hrow y' (List.mem_cons_of_mem y hy')

theorem readCursor_spec {mapped : Slice} {fd : ℕ} {fb2 : Fb2}
    {Q : List UInt8 → Helper → Multiset Held → Prop} (hm : st.heap.Live mapped)
    (hgood : ¬ badCursor fb2)
    (hlen : (fb2.pitches 0).toNat * fb2.height.toNat ≤ mapped.len) (hQ : ∀ l, Q l st held) :
    Cmd.wp (helperEnv C) (readCursor mapped fd fb2) Q st held := by
  obtain ⟨hw, -, -, hp⟩ := not_not.mp hgood
  have hrow : fb2.width.toNat * 4 ≤ (fb2.pitches 0).toNat := by
    have hmul : (fb2.width * 4).toNat = fb2.width.toNat * 4 % 2 ^ 32 := UInt32.toNat_mul _ _
    have hw' : fb2.width.toNat ≤ 256 := hw
    have hp' : (fb2.width * 4).toNat ≤ (fb2.pitches 0).toNat := hp
    omega
  obtain ⟨packed, hpack⟩ := packCursor_isSome hm hrow hlen
  unfold readCursor
  rw [Cmd.wp_bind]
  refine Ledger.wp_neutral ⟨rfl, fun _ => rfl⟩ fun started _ => ?_
  simp only [Cmd.wp_bind, wp_onHeap]
  refine ⟨packed, st.heap, by
    rw [show HasHeap.heap st = st.heap from rfl, hpack]
    rfl, ?_⟩
  rw [Cmd.wp_ite]
  constructor
  · intro _
    rw [Cmd.wp_bind]
    exact Ledger.wp_neutral ⟨rfl, fun _ => rfl⟩ fun _ _ => hQ packed
  · intro _
    exact hQ packed

/-- A cursor's handle is closed however its pixels fare. -/
theorem sendCursor_spec {extended : Bool} {reply : CursorWire} {fb2 : Fb2}
    (h0 : fb2.handles 0 ≠ 0) :
    Cmd.wp (helperEnv C) (sendCursor sock extended reply fb2)
      (fun _ st' held' => st'.heap.block = st.heap.block ∧ held' = held) st
      (.handle (fb2.handles 0) ::ₘ held) := by
  have hmeta : ∀ reply : CursorWire, Keeps C (do
      let _ ← sendCursorMeta sock reply extended
      pure () : H Unit) :=
    fun reply => .bind (sendCursorMeta_keeps reply extended) fun _ => .pure _
  unfold sendCursor
  rw [Cmd.wp_ite]
  constructor
  · intro _
    rw [Cmd.wp_bind]
    exact helperGemClose_spec h0 (hmeta _ st held)
  · intro hgood
    rw [Cmd.wp_bind]
    refine mapCursor_spec ?_ fun fd g => ?_
    · rw [Cmd.wp_bind]
      exact helperGemClose_spec h0 (hmeta _ st held)
    · have hwhole := st.heap.alloc_whole ((fb2.pitches 0).toNat * fb2.height.toNat) g
      have hblock := st.heap.alloc_release_block ((fb2.pitches 0).toNat * fb2.height.toNat) g
      rw [Cmd.wp_bind]
      refine readCursor_spec hwhole.live hgood le_rfl fun pixels => ?_
      rw [Cmd.wp_bind]
      refine munmap_spec hwhole ?_
      rw [Cmd.wp_bind]
      refine close_spec ?_
      rw [Cmd.wp_bind]
      refine helperGemClose_spec h0 ?_
      have hsend : Keeps C (do
          let _ ← sendCursorMeta sock
            { reply with
              width := fb2.width
              height := fb2.height
              visible := 1
              dataSize := UInt32.ofNat (fb2.width.toNat * fb2.height.toNat * 4) } extended
          let _ ← wireSendAll sock pixels
          pure () : H Unit) :=
        .bind (sendCursorMeta_keeps _ extended) fun _ =>
          .bind (.of_reads (wireSendAll_neutral sock pixels)) fun _ => .pure _
      refine Cmd.wp_mono (hsend _ held) ?_
      rintro _ _ _ ⟨hb, rfl⟩
      exact ⟨hb.trans hblock, rfl⟩

theorem cursorAndSend_keeps (hC : ∀ fb2, C fb2 → fb2.OneObject) (targetCrtc : UInt32)
    (extended : Bool) : Keeps C (cursorAndSend sock targetCrtc extended) := by
  have hmeta : ∀ reply : CursorWire, Keeps C (do
      let _ ← sendCursorMeta sock reply extended
      pure () : H Unit) :=
    fun reply => .bind (sendCursorMeta_keeps reply extended) fun _ => .pure _
  apply Keeps.bind (.neutral (kmsOp_neutral (o := .getPlaneResources) trivial))
  rintro (e | planes)
  · exact hmeta _
  · apply Keeps.bind (.of_kms (matchCursor_reads targetCrtc planes))
    intro found
    apply Keeps.ite (hmeta _)
    apply Keeps.bind (.of_kms (cursorPlacement_reads found.2))
    intro reply st held
    rw [Cmd.wp_bind]
    refine getFB2_spec hC (fun _ => hmeta reply st held) (fun fb2 h0 => ?_) fun fb2 h0 => ?_
    · simp only [h0, if_true]
      exact hmeta reply st held
    · simp only [h0, if_false]
      exact sendCursor_spec h0

theorem wireRecvAll_neutral (len : ℕ) :
    Cmd.Reads helperLedger.Neutral (wireRecvAll (S := Helper) sock len) := by
  apply Cmd.Reads.loop
  intro got
  apply Cmd.Reads.ite (.pure _)
  apply Cmd.Reads.bind (.call ⟨rfl, fun r => by cases r <;> rfl⟩)
  rintro (e | bytes)
  · exact .ite (.pure _) (.pure _)
  · exact .ite (.pure _) (.pure _)

theorem serveOne_keeps (hC : ∀ fb2, C fb2 → fb2.OneObject) : Keeps C (serveOne sock isVirtio) := by
  apply Keeps.bind (.of_reads (wireRecvAll_neutral sizeofHelperCmd))
  rintro (_ | bytes)
  · exact .pure _
  · apply Keeps.ite (.pure _)
    apply Keeps.ite
    · exact .bind (grabAndSend_keeps hC _) fun _ => .pure _
    apply Keeps.ite
    · exact .bind (cursorAndSend_keeps hC _ _) fun _ => .pure _
    apply Keeps.ite
    · exact .bind (cursorAndSend_keeps hC _ _) fun _ => .pure _
    · exact .pure _

end Handlers

/-- One command served: the main loop is back to reading. -/
def Round (C : Fb2 → Prop) (sock : ℤ) (isVirtio : Bool) (s t : Helper × Multiset Held) : Prop :=
  Cmd.Runs (helperEnv C) (serveOne sock isVirtio) s.1 s.2 (.inl ()) t.1 t.2

/-- No handle, descriptor or mapping is held, and nothing is mapped. -/
def HoldsNothing (s : Helper × Multiset Held) : Prop :=
  s.2 = 0 ∧ ∀ b, s.1.heap.block b = none

theorem Round.holdsNothing {C : Fb2 → Prop} (hC : ∀ fb2, C fb2 → fb2.OneObject) {sock : ℤ}
    {isVirtio : Bool} {s t : Helper × Multiset Held} (hr : Round C sock isVirtio s t)
    (hs : HoldsNothing s) : HoldsNothing t := by
  obtain ⟨hb, hheld⟩ := Cmd.wp_runs (serveOne_keeps hC s.1 s.2) hr
  exact ⟨hheld.trans hs.1, fun b => (congrFun hb b).trans (hs.2 b)⟩

/-- While the planes of each framebuffer share one object, the helper holds nothing whenever
it reads a command, and never closes or unmaps what it does not hold. -/
theorem helper_holds_nothing (sock : ℤ) (isVirtio : Bool) (s : Helper × Multiset Held)
    (hs : Relation.ReflTransGen (Round Fb2.OneObject sock isVirtio) (.start, 0) s) :
    HoldsNothing s ∧ ¬ Fault (helperEnv Fb2.OneObject) s.2 (serveOne sock isVirtio s.1) := by
  constructor
  · induction hs with
    | refl => exact ⟨rfl, fun _ => rfl⟩
    | tail _ hround ih => exact hround.holdsNothing (fun _ h => h) ih
  · exact Prog.wp_safe (serveOne_keeps (fun _ h => h) s.1 s.2)

/-- A display that shows one linear framebuffer, which cannot be mapped, to a peer that asks
for it once. -/
def oneScanout (fb2 : Fb2) : (o : Op) → Ans o
  | .getPlaneResources => .ok [1]
  | .getPlane _ => some ⟨1, 2, 3⟩
  | .objectGetProperties _ _ => some [(10, 1)]
  | .getProperty _ => some "type"
  | .getFB2 _ => .ok fb2
  | .recv _ _ => .ok (wireCmd cmdGrab 0).encode
  | .send _ bytes => .ok bytes.length
  | .sendmsg _ bytes _ => .ok bytes.length
  | .getResources | .getCrtc _ | .getConnectorCurrent _ | .getPropertyBlob _ => none
  | .virtTransferFromHost _ _ _ | .virtWait _ | .virtGetParam3D | .fstatSize _ => none
  | .malloc _ | .eglRender _ _ _ _ _ _ _ => none
  | .setClientCap _ | .dmabufSyncStart _ | .callocPriv | .forceMmapFail | .eglAvailable =>
    false
  | .primeHandleToFD _ | .modeMapDumb _ | .mmap _ _ _ | .helperSpawn => .error ⟨12, by decide⟩
  | .recvmsg _ _ => .error ⟨12, by decide⟩
  | .gemClose _ | .munmap _ | .close _ | .dmabufSyncEnd _ | .free _ | .freePriv _ | .helperReap
  | .eglThreadCleanup => ()
  | .lseekEnd _ => 0
  | .eglReadback _ => .unchanged
  | .clockMs => 0
  | .errno => 0

def scanoutOf (handles : PerPlane UInt32) : Fb2 where
  width := 1
  height := 1
  pixelFormat := fmtXR24
  modifier := drmFormatModLinear
  hasModifiers := true
  handles := handles
  pitches := ![4, 0, 0, 0]
  offsets := fun _ => 0

def oneServed : Helper := { Helper.start with primaryIds := some [1], seqCounter := 1 }

theorem round_oneScanout {C : Fb2 → Prop} {h : PerPlane UInt32} {left : Multiset Held}
    (hC : C (scanoutOf h))
    (he : (serveOne 0 false).exec 2 (helperLedger.device (oneScanout (scanoutOf h)))
      Helper.start 0 = some ((.inl (), oneServed), left)) :
    Round C 0 false (.start, 0) (oneServed, left) := by
  refine Ledger.device_runs (fun o => ?_) he
  cases o <;> first | exact hC | trivial

theorem helper_holds_nothing_one :
    HoldsNothing (oneServed, 0) ∧
      ¬ Fault (helperEnv Fb2.OneObject) 0 (serveOne 0 false oneServed) :=
  helper_holds_nothing 0 false (oneServed, 0)
    (.single (round_oneScanout (h := ![5, 0, 0, 0]) (by unfold Fb2.OneObject; decide) rfl))

/-- A framebuffer of two objects leaves the second one's handle behind. -/
theorem helper_keeps_auxiliary : ¬ ∀ sock isVirtio s,
    Relation.ReflTransGen (Round (fun _ => True) sock isVirtio) (.start, 0) s → HoldsNothing s := by
  intro h
  have hround : Round (fun _ => True) 0 false (.start, 0) (oneServed, {.handle 6}) :=
    round_oneScanout (h := ![5, 6, 0, 0]) trivial rfl
  exact absurd (h 0 false _ (.single hround)).1 (by decide)

end Drmtap
