import Drmtap.FreshPixels

/-! The mapped grabs that return 0 have pixels, but for one: where the helper passes a descriptor
that cannot be mapped. -/
namespace Drmtap

open Memory Effect

/-- What is heard of the helper, and the first mapping that a call asks for: what was heard before
it, and whether it was refused. -/
structure MapLog where
  grab : GrabLog
  first : Option (List UInt8 × Bool)

namespace MapLog

def start : MapLog := ⟨.start, none⟩

def map (l : MapLog) (refused : Bool) : MapLog :=
  { l with first := l.first <|> some (l.grab.heard, refused) }

def note (l : MapLog) : (o : Op) → Ans o → MapLog
  | .mmap _ _ _, .ok _ => l.map false
  | .mmap _ _ _, .error _ => l.map true
  | o, r => { l with grab := l.grab.note o r }

/-- The helper's record describes a frame that virgl did not render, in a layout that the library
reads as it is, and the descriptor that came with it could not be mapped. -/
def Blank (egl : Prop) (l : MapLog) : Prop :=
  ∃ head, l.first = some (head, true) ∧ head.length = sizeofGrabWire ∧
    (GrabWire.decode head).flags &&& helperFlagVirgl = 0 ∧
    ((GrabWire.decode head).modifier = drmFormatModLinear ∨
      ((GrabWire.decode head).modifier = drmFormatModInvalid ∧ ¬ egl))

theorem note_grab (l : MapLog) (o : Op) (r : Ans o) : (l.note o r).grab = l.grab.note o r := by
  cases o with
  | mmap => cases r <;> rfl
  | _ => rfl

theorem not_blank {egl : Prop} {l : MapLog} (h : ∀ x, l.first = some x → x.1 = []) :
    ¬ l.Blank egl := by
  intro hb
  obtain ⟨head, hfirst, hlen, -⟩ := hb
  have hnil : head = [] := h _ hfirst
  rw [hnil] at hlen
  exact absurd hlen (by decide)

end MapLog

/-- The library, with what it hears and what it maps. -/
abbrev mappingEnv (egl : Prop) : Env :=
  ((libEnv egl .free).restrict fun _ => WithinLength).noted MapLog.note

abbrev mapLogEnv : Env := (Effect.Env.noting MapLog.note).restrict fun _ => WithinLength

/-! Calls that are neither heard nor map anything -/

def StillOp : Op → Prop
  | .helperSpawn | .send _ _ | .recv _ _ | .recvmsg _ _ | .mmap _ _ _ => False
  | _ => True

theorem StillOp.note {o : Op} (ho : StillOp o) (l : MapLog) (r : Ans o) : l.note o r = l := by
  cases o <;> first | exact ho.elim | rfl

theorem mapLogEnv_still : mapLogEnv.Quiet StillOp fun _ _ => True :=
  fun _ ho l => ⟨trivial, fun r _ hs => ⟨trivial, hs.1.trans (ho.note l r)⟩⟩

theorem ScanoutOp.still {o : Op} (ho : ScanoutOp o) : StillOp o := by
  rcases ho with ho | ho
  · cases o <;> first | exact ho.elim | trivial
  · subst ho
    trivial

section Still
variable {P : Op → Prop} (hP : ∀ o, StillOp o → P o) {α : Type}
include hP

theorem still_sys {o : Op} (ho : StillOp o) : Cmd.Uses P (sys o : M (Ans o)) := .call (hP o ho)

omit hP in
theorem still_onHeap (f : Heap → Option (α × Heap)) : Cmd.Uses P (onHeap f : M α) := by
  intro _
  rw [wlp_onHeap]
  exact fun _ _ _ => trivial

omit hP in
theorem still_getCtx : Cmd.Uses P getCtx := .bind .get fun m => .pure m.ctx

omit hP in
theorem still_modifyCtx (f : Ctx → Ctx) : Cmd.Uses P (modifyCtx f) := .modify fun _ => trivial

theorem still_steps {R : Machine → Machine → Prop} {c : M α} (hc : Cmd.Steps ScanoutOp R c) :
    Cmd.Uses P c := by
  intro m
  apply Cmd.wlp_of_wp
  exact hc.mono (fun o ho => hP o ho.still) (fun _ _ _ => trivial) m

theorem still_closeFd (fd : ℤ) : Cmd.Uses P (closeFd fd : M Unit) :=
  .ite (still_sys hP trivial) (.pure ())

theorem still_gemClose (handle : UInt32) : Cmd.Uses P (drmtapGemClose handle) :=
  .ite (.pure ()) (still_sys hP trivial)

theorem still_closeAuxiliary (fb2 : Fb2) : Cmd.Uses P (closeAuxiliaryGemHandles fb2) := by
  have haux (p : Fin 4) : Cmd.Uses P (closeAuxiliary fb2 p) := .ite (.pure ()) (still_gemClose hP _)
  exact .bind (haux 1) fun _ => .bind (haux 2) fun _ => haux 3

theorem still_malloc (size : ℕ) : Cmd.Uses P (malloc size : M (Option Slice)) := by
  refine .bind (still_sys hP trivial) fun r => ?_
  cases r with
  | none => exact .pure none
  | some bytes => exact still_onHeap _

theorem still_free (b : Slice) : Cmd.Uses P (free b : M Unit) :=
  .bind (still_sys hP trivial) fun _ => still_onHeap _

theorem still_munmap (b : Slice) : Cmd.Uses P (munmap b : M Unit) :=
  .bind (still_sys hP trivial) fun _ => still_onHeap _

theorem still_callocPriv : Cmd.Uses P (callocPriv : M (Option Slice)) :=
  .bind (still_sys hP trivial) fun _ => .ite (still_onHeap _) (.pure none)

theorem still_freePriv (b : Slice) : Cmd.Uses P (freePriv b : M Unit) :=
  .bind (still_sys hP trivial) fun _ => still_onHeap _

theorem still_ensureBuf (buf : Option Slice) (size : ℕ) : Cmd.Uses P (drmtapEnsureBuf buf size) := by
  have hfree : Cmd.Uses P (freeBuf buf) := by
    cases buf with
    | none => exact .pure ()
    | some b => exact still_free hP b
  refine .ite (.pure _) (.ite (.pure _) (.ite (.pure _) (.bind hfree fun _ => ?_)))
  apply Cmd.Moves.bind (still_malloc hP size)
  intro r
  cases r <;> exact .pure _

theorem still_grabCleanup (frame : FrameInfo) (handle : UInt32) (fd ret : ℤ) :
    Cmd.Uses P (grabCleanup frame handle fd ret) :=
  .bind (still_closeFd hP fd) fun _ => .bind (still_gemClose hP handle) fun _ => .pure _

theorem still_grabCleanupPriv (frame : FrameInfo) (priv : FramePriv) (ret : ℤ) :
    Cmd.Uses P (grabCleanupPriv frame priv ret) := by
  refine .bind (still_closeFd hP _) fun _ => .bind (still_gemClose hP _) fun _ => ?_
  exact .bind (still_freePriv hP _) fun _ => .pure _

theorem still_frameRelease (frame : FrameInfo) : Cmd.Uses P (drmtapFrameRelease frame) := by
  have hunmap (priv : FramePriv) : Cmd.Uses P (unmapPriv priv) := by
    unfold unmapPriv
    cases priv.mapped with
    | none => exact .pure ()
    | some mapped =>
      refine .ite (.pure ()) (.ite ?_ (still_munmap hP _))
      exact .bind (still_sys hP trivial) fun _ => still_munmap hP _
  unfold drmtapFrameRelease
  cases frame.priv with
  | none => exact .pure _
  | some priv =>
    refine .bind (hunmap priv) fun _ => .bind (still_closeFd hP _) fun _ => ?_
    exact .bind (still_gemClose hP _) fun _ => .bind (still_freePriv hP _) fun _ => .pure _

theorem still_concludeGrab (planeId : UInt32) (ret : ℤ) (frame : FrameInfo) :
    Cmd.Uses P (concludeGrab planeId ret frame) :=
  .ite (.bind (still_frameRelease hP frame) fun _ => .pure _)
    (.bind (still_modifyCtx _) fun _ => .pure _)

theorem still_findPrimaryPlane : Cmd.Uses P findPrimaryPlane :=
  still_steps hP (findPrimaryPlane_steps.mono (fun _ => .inl) fun _ _ h => h)

theorem still_readScanout : Cmd.Uses P readScanout := by
  have hhdr : Cmd.Uses P readHdrForCurrentCrtc := by
    refine .bind still_getCtx fun ctx => .bind ?_ fun _ => still_modifyCtx _
    exact .of_reads (readHdr_reads _) fun o ho => hP o (ScanoutOp.still (.inl ho))
  refine .bind (still_findPrimaryPlane hP) fun _ => .bind hhdr fun _ => .ite (.pure _) ?_
  refine .bind (still_sys hP trivial) fun plane => ?_
  cases plane with
  | none => exact .pure _
  | some plane =>
    refine .ite (.pure _) (.bind (still_sys hP trivial) fun fb2 => ?_)
    cases fb2 <;> exact .pure _

theorem still_scanoutWidth (width : UInt32) (modifier : UInt64) :
    Cmd.Uses P (drmtapScanoutWidth width modifier) := by
  refine .bind still_getCtx fun ctx => .ite (.pure _) (.bind (still_sys hP trivial) fun crtc => ?_)
  cases crtc with
  | none => exact .pure _
  | some crtc =>
    refine .ite (.pure _) (.ite (.pure _) (.bind (still_steps hP readPrimaryPlaneRect_steps) ?_))
    exact fun rect => .bind (still_modifyCtx _) fun _ => .pure _

end Still

/-! What a grab prepares -/

/-- Nothing has been heard, and nothing was mapped after it had. -/
def MapLog.Unheard (l : MapLog) : Prop := l.grab.heard = [] ∧ ∀ x, l.first = some x → x.1 = []

/-- Calls that are not heard. -/
def DeafOp : Op → Prop
  | .helperSpawn | .send _ _ | .recv _ _ | .recvmsg _ _ => False
  | _ => True

theorem StillOp.deaf {o : Op} (ho : StillOp o) : DeafOp o := by
  cases o <;> first | exact ho.elim | trivial

theorem DeafOp.unheard {o : Op} (ho : DeafOp o) {l : MapLog} (h : l.Unheard) (r : Ans o) :
    (l.note o r).Unheard := by
  have hmap (refused : Bool) : (l.map refused).Unheard := by
    refine ⟨h.1, ?_⟩
    intro x hx
    cases hfirst : l.first with
    | some y => exact h.2 x (by simpa [MapLog.map, hfirst] using hx)
    | none =>
      have hx : (l.grab.heard, refused) = x := by simpa [MapLog.map, hfirst] using hx
      rw [← hx]
      exact h.1
  cases o with
  | mmap => cases r <;> exact hmap _
  | _ => first | exact ho.elim | exact h

section Prepare
variable {egl : Prop} {m : Machine} {l : MapLog} {α : Type}

theorem mapLogEnv_call {o : Op} {Q : Ans o → Machine → MapLog → Prop}
    (h : ∀ r, WithinLength o r → Q r m (l.note o r)) : Cmd.wlp mapLogEnv (sys o) Q m l := by
  rw [Cmd.wlp_call]
  refine ⟨trivial, ?_⟩
  intro r l' hs
  rw [show l' = l.note o r from hs.1]
  exact h r hs.2

/-- What still calls do not change. -/
theorem still_keeps {c : M α} (hc : Cmd.Uses StillOp c) :
    Cmd.wlp mapLogEnv c (fun _ _ l' => l' = l) m l :=
  Cmd.wlp_mono (hc.wlp mapLogEnv_still m l) fun _ _ _ h => h.2

/-- What is heard depends on what is heard only. -/
theorem wlp_heard {c : M α} {Q : α → Machine → GrabLog → Prop}
    (h : Cmd.wlp heardEnv c Q m l.grab) :
    Cmd.wlp mapLogEnv c (fun a m' l' => Q a m' l'.grab) m l := by
  apply Prog.wp_sim (E := mapLogEnv) (F := heardEnv) (fun l g => MapLog.grab l = g) _ rfl
    (Prog.wp_mono h _)
  · intro l g o hl _
    subst hl
    refine ⟨trivial, fun r l' hs => ⟨l'.grab, ⟨?_, hs.2⟩, rfl⟩⟩
    rw [show l' = l.note o r from hs.1]
    exact l.note_grab o r
  · intro x g hq l' hl
    subst hl
    exact hq

/-- A frame that the helper passes comes with its record, which is all that was heard. -/
theorem drmtapHelperGrab_passed {g : GrabLog} (pixelBuf : Slice) (bufSize : ℕ) :
    Cmd.wlp heardEnv (drmtapHelperGrab pixelBuf bufSize) (fun r _ g' => ¬ r.1 < 0 →
      0 ≤ r.2.dmabufFd → g'.heard.length = sizeofGrabWire ∧ r.2.wire = .decode g'.heard) m g := by
  have heio : (- EIO : ℤ) < 0 := by decide
  unfold drmtapHelperGrab
  rw [Cmd.wlp_bind]
  apply Cmd.wlp_mono sendCommand_grab
  intro ret m₁ g₁ hg₁
  rw [Cmd.wlp_ite]
  refine ⟨fun hlt hge => absurd hlt hge, fun hge => ?_⟩
  rw [hg₁ hge, Cmd.wlp_bind, wlp_getCtx]
  unfold receiveGrab
  rw [Cmd.wlp_bind]
  apply Cmd.wlp_mono (wireRecvFd_heard _)
  intro r m₂ g₂ hr
  cases r with
  | none => exact fun h => absurd heio h
  | some r =>
    obtain ⟨head, fd⟩ := r
    obtain ⟨hlen, hg₂⟩ := hr.2 head fd rfl
    subst hg₂
    simp only [Cmd.wlp_ite, Cmd.wlp_pure]
    refine ⟨fun _ => ⟨fun _ h => absurd heio h, fun _ _ _ => ⟨hlen, rfl⟩⟩, fun _ => ?_⟩
    rw [Cmd.wlp_bind]
    apply Cmd.wlp_mono (heardEnv_any _)
    intro _ m₃ g₃ _
    rw [Cmd.wlp_bind]
    apply Cmd.wlp_mono (heardEnv_any _)
    intro ret m₄ g₄ _ _ hno
    exact absurd (show (0 : ℤ) ≤ -1 from hno) (by decide)

/-- A conversation with the helper maps nothing. -/
theorem drmtapHelperGrab_first (pixelBuf : Slice) (bufSize : ℕ) :
    Cmd.wlp mapLogEnv (drmtapHelperGrab pixelBuf bufSize) (fun _ _ l' => l'.first = l.first) m
      l := by
  have hconverses : Converses (fun o => ∀ l r, (MapLog.note l o r).first = l.first)
      (fun _ => True) (fun _ _ => True) := by
    constructor
    all_goals intros; trivial
  have hmoves : Cmd.Uses (fun o => ∀ l r, (MapLog.note l o r).first = l.first)
      (drmtapHelperGrab pixelBuf bufSize) := by
    intro m
    apply Cmd.wlp_mono (hconverses.helperGrab _ bufSize m trivial) fun _ _ _ _ => trivial
    intro bytes m _
    rw [wlp_onHeap]
    exact fun _ _ _ => ⟨trivial, trivial, trivial⟩
  apply Cmd.wlp_mono (hmoves.wlp_inv (E := mapLogEnv) (I := fun l' => l'.first = l.first) _ m rfl)
  · exact fun _ _ _ h => h.2
  · intro l' o ho hl'
    refine ⟨trivial, fun r l'' hs => ?_⟩
    rw [show l'' = l'.note o r from hs.1, ho]
    exact hl'

theorem deaf_mmap (src : MapSource) (size off : ℕ) :
    Cmd.Uses DeafOp (mmap src size off : M (Except Errno Slice)) := by
  refine .bind (.call trivial) fun r => ?_
  cases r with
  | error e => exact .pure _
  | ok bytes => exact still_onHeap _

theorem deaf_mapFramebuffer (fb2 : Fb2) (fd : ℤ) (size : ℕ) :
    Cmd.Uses DeafOp (mapFramebuffer fb2 fd size) := by
  have htransfer (handle width height : UInt32) :
      Cmd.Uses DeafOp (virtioTransferFromHost handle width height) := by
    refine .bind (.call trivial) fun r => ?_
    cases r with
    | some e => exact .pure _
    | none => exact .call trivial
  have hdumb (handle : UInt32) : Cmd.Uses DeafOp (virtioDumbMmap handle size) := by
    refine .bind (.call trivial) fun r => ?_
    cases r with
    | error e => exact .pure _
    | ok off => exact deaf_mmap _ _ _
  have hvirtio : Cmd.Uses DeafOp (mapVirtio fb2 size) := by
    refine .bind still_getCtx fun ctx => .ite (.bind (htransfer _ _ _) fun r => ?_) (.pure _)
    cases r with
    | some e => exact .pure _
    | none =>
      refine .bind (hdumb _) fun r => ?_
      cases r <;> exact .pure _
  refine .bind hvirtio fun r => ?_
  cases r with
  | some mapped => exact .pure _
  | none =>
    refine .bind (deaf_mmap _ _ _) fun r => ?_
    cases r <;> exact .pure _

theorem deaf_prepareDirect (doMmap : Bool) (planeId fbId : UInt32) (fb2 : Fb2) (frame : FrameInfo)
    (primeFd : ℤ) : Cmd.Uses DeafOp (prepareDirect doMmap planeId fbId fb2 frame primeFd) := by
  have hdeaf : ∀ o, StillOp o → DeafOp o := fun _ => StillOp.deaf
  refine .bind (still_callocPriv hdeaf) fun made => ?_
  cases made with
  | none => exact .bind (still_grabCleanup hdeaf _ _ _ _) fun _ => .pure _
  | some self =>
    refine .bind (still_scanoutWidth hdeaf _ _) fun width => .ite ?_ (.pure _)
    refine .bind (deaf_mapFramebuffer _ _ _) fun r => ?_
    cases r with
    | error e => exact .pure _
    | ok mapped => exact .bind (.call trivial) fun _ => .pure _

/-- A framebuffer that is read directly is not handed out without pixels. -/
theorem prepareDirect_blank (planeId fbId : UInt32) (fb2 : Fb2) (frame : FrameInfo)
    (primeFd : ℤ) : Cmd.wlp mapLogEnv (prepareDirect true planeId fbId fb2 frame primeFd)
      (fun prepared _ l' => prepared.Blank egl ↔ l'.Blank egl) m .start := by
  have hyields : Cmd.Yields (prepareDirect true planeId fbId fb2 frame primeFd)
      fun prepared => ¬ prepared.Blank egl := by
    apply Cmd.Yields.call_bind
    intro made
    cases made with
    | none => exact .call_bind fun _ => .pure id
    | some self =>
      apply Cmd.Yields.call_bind
      intro width
      apply Cmd.Yields.call_bind
      intro r
      cases r with
      | error e => exact .pure id
      | ok mapped =>
        refine .call_bind fun started => .pure ?_
        intro hblank
        cases hblank.1
  have hstart : MapLog.start.Unheard := ⟨rfl, fun _ h => by cases h⟩
  have hdeaf := (deaf_prepareDirect true planeId fbId fb2 frame primeFd).wlp_inv (E := mapLogEnv)
    (I := MapLog.Unheard) (fun l o ho hl => ⟨trivial, fun r l' hs => by
      rw [show l' = l.note o r from hs.1]
      exact ho.unheard hl r⟩) m hstart
  apply Cmd.wlp_mono (hyields.wlp hdeaf)
  intro prepared m' l' h
  exact iff_of_false h.1 (MapLog.not_blank h.2.2.2)

/-- The reply of the helper, from which a frame is prepared. -/
structure MapLog.Replied (l : MapLog) (reply : HelperGrabResult) : Prop where
  unmapped : l.first = none
  passed : 0 ≤ reply.dmabufFd → l.grab.heard.length = sizeofGrabWire ∧
    reply.wire = .decode l.grab.heard

theorem MapLog.Replied.not_blank {reply : HelperGrabResult} (h : l.Replied reply) :
    ¬ l.Blank egl :=
  MapLog.not_blank fun x hx => by rw [h.unmapped] at hx; cases hx

theorem preparePassed_blank {reply : HelperGrabResult} (hl : l.Replied reply)
    (hfd : 0 ≤ reply.dmabufFd) (planeId : UInt32) (self : Slice) (width : UInt32) :
    Cmd.wlp mapLogEnv
      (preparePassed planeId self (frameOfWire reply.wire width) reply.wire reply.dmabufFd)
      (fun prepared _ l' => prepared.Blank egl ↔ l'.Blank egl) m l := by
  obtain ⟨hlen, hwire⟩ := hl.passed hfd
  have hfirst (refused : Bool) : (l.map refused).first = some (l.grab.heard, refused) := by
    simp [MapLog.map, hl.unmapped]
  unfold preparePassed
  rw [Cmd.wlp_bind, wlp_mmap]
  refine ⟨trivial, ?_, ?_⟩
  · intro e l' hs
    rw [show l' = l.map true from hs.1, Cmd.wlp_pure]
    constructor
    · intro hblank
      obtain ⟨-, hvirgl, hlayout⟩ := hblank
      refine ⟨_, hfirst true, hlen, ?_, ?_⟩
      · rw [← hwire]
        simpa using hvirgl
      · rw [← hwire]
        exact hlayout.resolve_left (not_lt.mpr hfd)
    · intro hblank
      obtain ⟨head, hhead, -, hvirgl, hlayout⟩ := hblank
      obtain rfl : l.grab.heard = head := by
        have h := (hfirst true).symm.trans hhead
        exact congrArg Prod.fst (Option.some.inj h)
      rw [← hwire] at hvirgl hlayout
      exact ⟨rfl, by simpa using hvirgl, .inr hlayout⟩
  · intro bytes l' hs
    rw [Cmd.wlp_bind]
    apply mapLogEnv_call
    intro started _
    rw [show l' = l.map false from hs.1, Cmd.wlp_pure]
    apply iff_of_false
    · intro hblank
      cases hblank.1
    · intro hblank
      obtain ⟨head, hhead, -⟩ := hblank
      have h := (hfirst false).symm.trans hhead
      cases congrArg Prod.snd (Option.some.inj h)

theorem prepareReply_blank {reply : HelperGrabResult} (hl : l.Replied reply) (planeId : UInt32)
    (self pixelBuf : Slice) : Cmd.wlp mapLogEnv (prepareReply planeId self pixelBuf reply)
      (fun prepared _ l' => prepared.Blank egl ↔ l'.Blank egl) m l := by
  have hstill : ∀ o, StillOp o → StillOp o := fun _ => id
  unfold prepareReply
  rw [Cmd.wlp_bind]
  apply Cmd.wlp_mono (still_keeps (still_scanoutWidth hstill _ _))
  intro width m₁ l₁ hl₁
  subst hl₁
  rw [Cmd.wlp_bind, wlp_modifyCtx]
  simp only [Cmd.wlp_ite]
  refine ⟨fun _ => ?_, fun _ => ⟨fun hfd => preparePassed_blank hl hfd _ _ _, fun _ => ?_⟩⟩
  · rw [Cmd.wlp_bind]
    apply Cmd.wlp_mono (still_keeps (still_closeFd hstill _))
    intro _ m₂ l₂ hl₂
    subst hl₂
    rw [Cmd.wlp_bind]
    apply Cmd.wlp_mono (still_keeps (still_freePriv hstill _))
    intro _ m₃ l₃ hl₃
    subst hl₃
    exact iff_of_false id hl.not_blank
  · unfold preparePixels
    rw [Cmd.wlp_ite]
    constructor
    · intro _
      rw [Cmd.wlp_bind]
      apply Cmd.wlp_mono (still_keeps (still_freePriv hstill _))
      intro _ m₂ l₂ hl₂
      subst hl₂
      exact iff_of_false id hl.not_blank
    · intro _
      apply iff_of_false _ hl.not_blank
      intro hblank
      cases hblank.1

theorem askHelper_blank (planeId : UInt32) (frame : FrameInfo) (pixelBuf : Slice) (bufSize : ℕ) :
    Cmd.wlp mapLogEnv (askHelper planeId frame pixelBuf bufSize)
      (fun prepared _ l' => prepared.Blank egl ↔ l'.Blank egl) m .start := by
  have hstill : ∀ o, StillOp o → StillOp o := fun _ => id
  unfold askHelper
  rw [Cmd.wlp_bind]
  apply Cmd.wlp_mono (Cmd.wlp_and (drmtapHelperGrab_first pixelBuf bufSize)
    (wlp_heard (drmtapHelperGrab_passed pixelBuf bufSize)))
  intro r m₁ l₁ h₁
  obtain ⟨ret, reply⟩ := r
  obtain ⟨hfirst, hpassed⟩ := h₁
  have hno : ¬ l₁.Blank egl := MapLog.not_blank fun x hx => by rw [hfirst] at hx; cases hx
  rw [Cmd.wlp_ite]
  constructor
  · intro _
    rw [Cmd.wlp_bind]
    apply Cmd.wlp_mono (still_keeps (still_grabCleanup hstill _ _ _ _))
    intro r m₂ l₂ hl₂
    subst hl₂
    exact iff_of_false id hno
  · intro hret
    rw [Cmd.wlp_bind]
    apply Cmd.wlp_mono (still_keeps (still_callocPriv hstill))
    intro made m₂ l₂ hl₂
    subst hl₂
    cases made with
    | none =>
      rw [Cmd.wlp_bind]
      apply Cmd.wlp_mono (still_keeps (still_closeFd hstill _))
      intro _ m₃ l₃ hl₃
      subst hl₃
      exact iff_of_false id hno
    | some self => exact prepareReply_blank ⟨hfirst, hpassed hret⟩ planeId self pixelBuf

theorem prepareByHelper_blank (planeId : UInt32) (fb2 : Fb2) (frame : FrameInfo) :
    Cmd.wlp mapLogEnv (prepareByHelper planeId fb2 frame)
      (fun prepared _ l' => prepared.Blank egl ↔ l'.Blank egl) m .start := by
  have hdone : ∀ ret frame, (Prepared.done ret frame).Blank egl ↔ MapLog.start.Blank egl :=
    fun _ _ => iff_of_false id (MapLog.not_blank fun _ h => by cases h)
  unfold prepareByHelper
  rw [Cmd.wlp_bind, wlp_getCtx, Cmd.wlp_bind]
  apply Cmd.wlp_mono (still_keeps (still_ensureBuf (fun _ => id) _ _))
  intro r m₁ l₁ hl₁
  subst hl₁
  obtain ⟨ret, buf⟩ := r
  rw [Cmd.wlp_bind, wlp_modifyCtx]
  cases buf with
  | none => exact hdone _ _
  | some pixelBuf =>
    dsimp only
    rw [Cmd.wlp_ite]
    exact ⟨fun _ => hdone _ _, fun _ => askHelper_blank _ _ _ _⟩

/-- A frame is prepared without pixels exactly where a passed descriptor cannot be mapped. -/
theorem prepareGrab_blank (frame : FrameInfo) : Cmd.wlp mapLogEnv (prepareGrab true frame)
    (fun prepared _ l' => prepared.Blank egl ↔ l'.Blank egl) m .start := by
  have hstill : ∀ o, StillOp o → StillOp o := fun _ => id
  have hdone : ∀ ret frame, (Prepared.done ret frame).Blank egl ↔ MapLog.start.Blank egl :=
    fun _ _ => iff_of_false id (MapLog.not_blank fun _ h => by cases h)
  have hcleanup (handle : UInt32) (fd ret : ℤ) (m : Machine) :
      Cmd.wlp mapLogEnv (grabCleanup frame handle fd ret >>= fun r => pure (Prepared.done r.1 r.2))
        (fun prepared _ l' => prepared.Blank egl ↔ l'.Blank egl) m .start := by
    rw [Cmd.wlp_bind]
    apply Cmd.wlp_mono (still_keeps (still_grabCleanup hstill _ _ _ _))
    intro r m' l' hl'
    subst hl'
    exact hdone _ _
  unfold prepareGrab
  rw [Cmd.wlp_bind, wlp_getCtx, Cmd.wlp_ite]
  refine ⟨fun _ => hdone _ _, fun _ => ?_⟩
  rw [Cmd.wlp_bind]
  apply Cmd.wlp_mono (still_keeps (still_readScanout hstill))
  intro r m₁ l₁ hl₁
  subst hl₁
  cases r with
  | error ret => exact hdone _ _
  | ok scan =>
    obtain ⟨planeId, fbId, fb2⟩ := scan
    dsimp only
    rw [Cmd.wlp_bind]
    apply Cmd.wlp_mono (still_keeps (still_closeAuxiliary hstill fb2))
    intro _ m₂ l₂ hl₂
    subst hl₂
    rw [Cmd.wlp_ite]
    refine ⟨fun _ => hcleanup _ _ _ _, fun _ => ?_⟩
    rw [Cmd.wlp_bind, wlp_modifyCtx]
    unfold prepareFramebuffer
    rw [Cmd.wlp_ite]
    refine ⟨fun _ => prepareByHelper_blank _ _ _, fun _ => ?_⟩
    rw [Cmd.wlp_bind]
    apply mapLogEnv_call
    intro r _
    cases r with
    | ok primeFd => exact prepareDirect_blank _ _ _ _ _
    | error e =>
      dsimp only
      rw [Cmd.wlp_ite]
      refine ⟨fun _ => ?_, fun _ => hcleanup _ _ _ _⟩
      rw [Cmd.wlp_bind]
      apply Cmd.wlp_mono (still_keeps (still_gemClose hstill _))
      intro _ m₃ l₃ hl₃
      subst hl₃
      exact prepareByHelper_blank _ _ _

end Prepare

/-! What it returns -/

section Returns
variable {egl : Prop} {m m' : Machine} {l : MapLog} {held : Multiset Resource}
  {x : Multiset Resource × MapLog} {α : Type} {c : M α} {a : α}

theorem mapping_lib (h : Cmd.Runs (mappingEnv egl) c m (held, l) a m' x) :
    Cmd.Runs (libEnv egl .free) c m held a m' x.1 :=
  Run.map (E := mappingEnv egl) (F := libEnv egl .free) h Prod.fst fun _ _ _ _ hs => hs.1.1

theorem mapping_log (h : Cmd.Runs (mappingEnv egl) c m (held, l) a m' x) :
    Cmd.Runs mapLogEnv c m l a m' x.2 :=
  Cmd.Runs.notes (E := (libEnv egl .free).restrict fun _ => WithinLength) (A := WithinLength)
    (fun _ _ _ _ hs => hs.2) h

theorem mapping_pipe : (mappingEnv egl).Quiet PipeOp (PipeAns egl) := by
  intro o ho s
  have hlib : (libEnv egl .free).Quiet PipeOp (PipeAns egl) := libEnv_pipe
  have hstill : StillOp o := by cases o <;> first | exact ho.elim | trivial
  obtain ⟨hlegal, hstep⟩ := hlib o ho s.1
  refine ⟨hlegal, fun r s' hs => ?_⟩
  obtain ⟨⟨hr, -⟩, hnote⟩ := hs
  obtain ⟨hans, hheld⟩ := hstep r s'.1 hr
  exact ⟨hans, Prod.ext hheld (hnote.trans (hstill.note s.2 r))⟩

/-- The end of a grab maps nothing, and is not heard. -/
theorem finishGrab_log {rest : Multiset Resource} {prepared : Prepared} {r : ℤ × FrameInfo}
    (hp : prepared.Balanced rest m held)
    (hr : Cmd.Runs (mappingEnv egl) (finishGrab true prepared) m (held, l) r m' x) : x.2 = l := by
  have hstill {m₁ : Machine} (x₁ : Multiset Resource × MapLog) (hx : x₁.2 = l)
      {c : M (ℤ × FrameInfo)} (hc : Cmd.Uses StillOp c)
      (hr : Cmd.Runs (mappingEnv egl) c m₁ x₁ r m' x) : x.2 = l :=
    (Cmd.wlp_runs (still_keeps hc) (mapping_log hr)).trans hx
  have hprocess {frame : FrameInfo} {p : FramePriv} (hl : Loaded rest frame p m held)
      (force : Bool) : Cmd.wp (mappingEnv egl) (gpuAutoProcess wrap32 frame.data frame force)
        (fun _ _ x₁ => x₁ = (held, l)) m (held, l) := by
    have hspec : Cmd.wp (pipeEnv egl) (gpuAutoProcess wrap32 frame.data frame force) _ m () :=
      gpuAutoProcess_spec wrap32_exact hl.ready.buffered hl.bounded hl.source force
    exact Cmd.wp_mono (Cmd.wp_quiet mapping_pipe hspec) fun _ _ _ h => h.2
  cases prepared with
  | done ret frame => exact hstill (held, l) rfl (.pure (ret, frame)) hr
  | ready planeId frame isVirgl =>
    obtain ⟨p, hl⟩ := hp
    obtain ⟨⟨ret, frame₁⟩, m₁, x₁, hr₁, hr₂⟩ := Cmd.runs_bind hr
    have hx₁ := Cmd.wp_runs (hprocess hl isVirgl) hr₁
    exact hstill x₁ (congrArg Prod.snd hx₁) (still_concludeGrab (fun _ => id) _ _ _) hr₂
  | unmapped planeId frame priv e =>
    obtain ⟨hl, -, hdata⟩ := hp
    have hproc := hprocess hl false
    rw [hdata] at hproc
    obtain ⟨⟨rc, frame₁⟩, m₁, x₁, hr₁, hr₂⟩ := Cmd.runs_bind hr
    have hx₁ := Cmd.wp_runs hproc hr₁
    refine hstill x₁ (congrArg Prod.snd hx₁) (.ite ?_ ?_) hr₂
    · exact still_grabCleanupPriv (fun _ => id) _ _ _
    · exact still_concludeGrab (fun _ => id) _ _ _

end Returns

/-- A mapped grab has pixels when it returns 0, unless the helper passed a frame that virgl did not
render, in a layout that is read as it is, and its descriptor could not be mapped. The fast path
and the convert have them always. -/
theorem mapped_grabs_pixels_iff {egl : Prop} {m : Machine} (hf : m.Fast)
    (rest held : Multiset Resource) (frame : FrameInfo) (desc : DmabufDesc) :
    (∀ r m' x, Cmd.Runs (mappingEnv egl) (drmtapGrabMapped frame) m (m.sockets + rest, .start)
        r m' x → ((r.1 = 0 → r.2.Readable m') ↔ ¬ x.2.Blank egl)) ∧
      Cmd.wp (libEnv egl .free) (drmtapGrabMappedFast frame)
        (fun r m' _ => r.1 = 0 → r.2.Readable m') m (m.ctx.owned + rest) ∧
      Cmd.wp (libEnv egl .free) (drmtapConvertDmabuf desc frame)
        (fun r m' _ => r.1 = 0 → r.2.Readable m') m held := by
  refine ⟨?_, Cmd.wp_mono (drmtapGrabMappedFast_lib hf (WindowRule.free_allows rest) (.self rest)
    rfl) ?_, Cmd.wp_mono (drmtapConvertDmabuf_lib hf.ready.buffered frame) ?_⟩
  · intro r m' x hr
    obtain ⟨prepared, m₁, ⟨held₁, l₁⟩, hr₁, hr₂⟩ := Cmd.runs_bind hr
    have hblank : prepared.Blank egl ↔ l₁.Blank egl :=
      Cmd.wlp_runs (prepareGrab_blank frame) (mapping_log hr₁)
    have hbalanced := Cmd.wp_runs (prepareGrab_lib hf.ready) (mapping_lib hr₁)
    have hpixels := (Cmd.wp_runs (finishGrab_lib hbalanced) (mapping_lib hr₂)).2 rfl
    rw [finishGrab_log hbalanced hr₂]
    exact hpixels.trans (not_congr hblank)
  · intro r m' held' hd
    exact hd.pixels
  · intro r m' held' h h0
    exact (h.2.2.resolve_left fun hneg => hneg.ne h0).2

/-- The device whose helper passes a descriptor that cannot be mapped, to one that asks for a
record. -/
def unmappableDevice : Device
  | .recvmsg fd len =>
    if len = sizeofGrabWire then passedDevice (.recvmsg fd len) else Device.blank (.recvmsg fd len)
  | o => passedDevice o

theorem unmappableDevice_answers (o : Op) :
    libAns False o (unmappableDevice o) ∧ WithinLength o (unmappableDevice o) := by
  cases o with
  | recvmsg fd len =>
    by_cases hlen : len = sizeofGrabWire
    · have hdev : unmappableDevice (.recvmsg fd len) = passedDevice (.recvmsg fd len) := if_pos hlen
      rw [hdev]
      refine ⟨passedDevice_libAns _, ?_⟩
      intro msg h
      cases h
      subst hlen
      exact le_rfl
    · have hdev : unmappableDevice (.recvmsg fd len) = Device.blank (.recvmsg fd len) := if_neg hlen
      rw [hdev]
      exact ⟨trivial, fun msg h => by cases h⟩
  | recv fd len =>
    exact ⟨passedDevice_libAns _, fun bytes h => by cases h⟩
  | _ => exact ⟨passedDevice_libAns _, trivial⟩

/-- The device, with what is noted of its answers. -/
def unmappableRun (s : Multiset Resource × MapLog) (o : Op) :
    Option (Ans o × Multiset Resource × MapLog) :=
  (libLedger.device unmappableDevice s.1 o).map fun x => (x.1, x.2, s.2.note o x.1)

theorem unmappableDevice_grab : ((drmtapGrabMapped .cleared).exec 100 unmappableRun
    (Session.openedOn "i915" 2).machine (0, .start)).map (fun x => (x.1.1.1, x.1.1.2.data)) =
      some (0, none) := by
  decide +kernel

/-- The grab of a passed frame that cannot be mapped returns 0 without pixels, after answers that
say so. -/
theorem mapped_grabs_pixels_iff_unmappable : ∃ r m' x,
    Cmd.Runs (mappingEnv False) (drmtapGrabMapped .cleared) (Session.openedOn "i915" 2).machine
      ((Session.openedOn "i915" 2).machine.sockets + 0, .start) r m' x ∧
    r.1 = 0 ∧ ¬ r.2.Readable m' ∧ x.2.Blank False := by
  obtain ⟨⟨⟨⟨ret, frame⟩, m'⟩, x⟩, he, heq⟩ := Option.map_eq_some_iff.mp unmappableDevice_grab
  obtain ⟨hret, hdata⟩ : ret = 0 ∧ frame.data = none := by simpa using heq
  subst hret
  have hruns : Cmd.Runs (mappingEnv False) (drmtapGrabMapped .cleared)
      (Session.openedOn "i915" 2).machine (0, .start) (0, frame) m' x := by
    apply Cmd.exec_runs (E := mappingEnv False) _ he
    intro s o r s' hs
    obtain ⟨⟨r', held'⟩, hdev, hx⟩ := Option.map_eq_some_iff.mp hs
    obtain ⟨rfl, rfl⟩ := Prod.mk.inj hx
    obtain ⟨rfl, rfl⟩ := Prod.mk.inj (Option.some.inj hdev)
    exact ⟨⟨⟨(unmappableDevice_answers o).1, rfl⟩, (unmappableDevice_answers o).2⟩, rfl⟩
  have hnot : ¬ frame.Readable m' := by
    intro hpix
    obtain ⟨d, hd, -⟩ := hpix
    exact absurd (hdata.symm.trans hd) (by simp)
  have hiff := (mapped_grabs_pixels_iff (Session.openedOn_sound "i915" 2).intact.fast 0 0 .cleared
    (descOfGrab (.opened "i915" 2) .cleared)).1 _ _ _ hruns
  exact ⟨_, _, _, hruns, rfl, hnot, by_contra fun hb => hnot (hiff.mpr hb rfl)⟩

end Drmtap
