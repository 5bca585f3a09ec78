import Drmtap.FreshPixels
import Drmtap.RustFrames

/-! A tap in use: grabs and drops in any order, under frames whose mappings others write to, and
its end. -/
namespace Drmtap

open Memory Effect

/-- A tap with what its context holds, and the frames of its grabs that are not dropped. -/
structure Tap where
  tap : DrmTap
  held : Multiset Resource
  frames : List TapFrame

inductive TapCall where
  | grab
  | grabMapped
  | grabDesc (zeroed : DmabufDesc)

def TapCall.run : TapCall → RustM (Except ℤ TapFrame)
  | .grab => DrmTap.grab
  | .grabMapped => DrmTap.grabMapped
  | .grabDesc zeroed => do
    let r ← DrmTap.grabDesc zeroed
    pure (r.map Prod.fst)

namespace Tap

def opened (driver : String) (crtcId : UInt32) : Tap :=
  ⟨⟨(Session.openedOn driver crtcId).machine, none, 0⟩, 0, []⟩

/-- A frame is handed out by a call that does not fail. -/
def hand (t : Tap) (tap : DrmTap) (held : Multiset Resource) : Except ℤ TapFrame → Tap
  | .error _ => ⟨tap, held, t.frames⟩
  | .ok f => ⟨tap, held, f :: t.frames⟩

def bufs (t : Tap) : List Slice := t.frames.filterMap TapFrame.owned

def setHeap (t : Tap) (heap : Heap) : Tap :=
  { t with tap := t.tap.setMachine { t.tap.machine with heap := heap } }

end Tap

/-- A grab, the drop of a frame, or bytes that somebody else writes into a buffer which a frame has
mapped. -/
inductive TapStep (egl : Prop) (t : Tap) : Tap → Prop
  | grab (call : TapCall) {r : Except ℤ TapFrame} {tap : DrmTap} {held : Multiset Resource}
      (hr : Cmd.Runs (rustEnv egl) call.run t.tap t.held r tap held) :
      TapStep egl t (t.hand tap held r)
  | drop {before after : List TapFrame} {f : TapFrame} {tap : DrmTap} {held : Multiset Resource}
      (hf : t.frames = before ++ f :: after)
      (hr : Cmd.Runs (rustEnv egl) f.drop t.tap t.held () tap held) :
      TapStep egl t ⟨tap, held, before ++ after⟩
  | shared {f : TapFrame} {p : FramePriv} {mapped : Slice} {heap : Heap} {A : ℕ → Prop}
      {V : ℕ → UInt8} (hf : f ∈ t.frames) (hp : f.raw.priv = some p)
      (hmap : p.mapped = some mapped) (hfill : Filled t.tap.machine.heap heap mapped.base A V) :
      TapStep egl t (t.setHeap heap)

/-- Each frame has its pixels to itself, and nothing is lent. -/
structure Tap.Apart (t : Tap) : Prop where
  holds : t.tap.Holds t.held (t.frames.map TapFrame.raw) t.bufs none
  backed : ∀ f ∈ t.frames, f.Backed

namespace Tap

section Steps
variable {egl : Prop} {t t' : Tap} {tap : DrmTap} {held : Multiset Resource} {f : TapFrame}

theorem owned_cons (f : TapFrame) (frames : List TapFrame) :
    (f :: frames).filterMap TapFrame.owned =
      f.owned.toList ++ frames.filterMap TapFrame.owned := by
  cases howned : f.owned <;> simp [howned]

theorem Apart.call (h : t.Apart) (call : TapCall) :
    Cmd.wp (rustEnv egl) call.run (fun r tap held =>
      DrmTap.Returned (t.frames.map TapFrame.raw) t.bufs tap held r ∧
        DrmTap.Leaves (t.frames.map TapFrame.raw) t.bufs t.tap tap) t.tap t.held := by
  cases call with
  | grab => exact DrmTap.grab_returned h.holds
  | grabMapped => exact DrmTap.grabMapped_returned h.holds
  | grabDesc zeroed =>
    unfold TapCall.run
    rw [Cmd.wp_bind]
    exact DrmTap.grabDesc_returned h.holds zeroed

/-- The frame to be dropped comes first. -/
theorem Apart.front (h : t.Apart) {before after : List TapFrame}
    (hf : t.frames = before ++ f :: after) :
    t.tap.Holds t.held (f.raw :: (before ++ after).map TapFrame.raw)
      (f.owned.toList ++ (before ++ after).filterMap TapFrame.owned) none where
  sound := by
    have hperm : t.frames.Perm (f :: (before ++ after)) := by
      rw [hf]
      exact List.perm_middle
    have hbufs := hperm.filterMap TapFrame.owned
    rw [owned_cons] at hbufs
    have hs := h.holds.sound.perm (hperm.map TapFrame.raw) (hbufs.append_left _)
    exact hs
  user := h.holds.user

theorem Apart.drop (h : t.Apart) {before after : List TapFrame}
    (hf : t.frames = before ++ f :: after) :
    Cmd.wp (rustEnv egl) f.drop (fun _ tap held =>
      tap.Holds held ((before ++ after).map TapFrame.raw)
        ((before ++ after).filterMap TapFrame.owned) none ∧
      DrmTap.Leaves ((before ++ after).map TapFrame.raw)
        ((before ++ after).filterMap TapFrame.owned) t.tap tap) t.tap t.held :=
  DrmTap.drop_holds (h.front hf)

/-- One step keeps the invariant. -/
theorem Apart.step (h : t.Apart) (hstep : TapStep egl t t') : t'.Apart := by
  cases hstep with
  | @grab call r tap held hr =>
    obtain ⟨hret, -⟩ := Cmd.wp_runs (E := rustEnv egl) (h.call call) hr
    cases r with
    | error e => exact ⟨hret, h.backed⟩
    | ok f =>
      obtain ⟨hholds, hbacked, -⟩ := hret
      constructor
      · show tap.Holds held (f.raw :: t.frames.map TapFrame.raw)
          ((f :: t.frames).filterMap TapFrame.owned) none
        rw [owned_cons]
        exact hholds
      · intro f' hf'
        rcases List.mem_cons.mp hf' with rfl | hf'
        · exact hbacked
        · exact h.backed f' hf'
  | @drop before after f tap held hf hr =>
    obtain ⟨hholds, -⟩ := Cmd.wp_runs (E := rustEnv egl) (h.drop hf) hr
    refine ⟨hholds, fun f' hf' => h.backed f' ?_⟩
    rw [hf]
    simp only [List.mem_append, List.mem_cons] at hf' ⊢
    tauto
  | @shared f p mapped heap A V hf hp hmap hfill =>
    exact ⟨⟨h.holds.sound.fill hfill, h.holds.user⟩, h.backed⟩

theorem opened_apart (driver : String) (crtcId : UInt32) : (opened driver crtcId).Apart where
  holds := ⟨Session.openedOn_sound driver crtcId, rfl⟩
  backed := by simp [opened]

/-- So does every run. -/
theorem Apart.run (h : t.Apart) (hrun : Relation.ReflTransGen (TapStep egl) t t') : t'.Apart := by
  induction hrun with
  | refl => exact h
  | tail _ hstep ih => exact ih.step hstep

end Steps

end Tap

/-- The blocks of a frame: its buffer, its record, and its mapping. -/
def TapFrame.blocks (f : TapFrame) : List ℕ := (f.owned.map Slice.base).toList ++ f.raw.blocks

namespace Tap

section Frames
variable {egl : Prop} {t t' : Tap} {f : TapFrame} {buf : Slice}

theorem blocks_perm (frames : List TapFrame) : (frames.flatMap TapFrame.blocks).Perm
    ((frames.filterMap TapFrame.owned).map Slice.base ++
      (frames.map TapFrame.raw).flatMap FrameInfo.blocks) := by
  induction frames with
  | nil => simp
  | cons f frames ih =>
    rw [List.flatMap_cons, owned_cons, List.map_append, List.map_cons, List.flatMap_cons]
    have hown : (f.owned.map Slice.base).toList = f.owned.toList.map Slice.base := by
      cases f.owned <;> simp
    unfold TapFrame.blocks
    rw [hown, List.append_assoc, List.append_assoc]
    apply List.Perm.append_left
    exact (ih.append_left _).trans (List.perm_append_comm_assoc _ _ _)

theorem Apart.nodup (h : t.Apart) :
    ((t.tap.spare.map Slice.base).toList ++ t.frames.flatMap TapFrame.blocks).Nodup := by
  have hclaimed := h.holds.sound.intact.nodup
  have hspare : (t.tap.spare.map Slice.base).toList = t.tap.spare.toList.map Slice.base := by
    cases t.tap.spare <;> simp
  refine (List.Perm.nodup_iff ?_).mpr hclaimed
  rw [hspare]
  refine ((blocks_perm t.frames).append_left _).trans ?_
  unfold DrmTap.session Session.claimed
  rw [List.map_append, ← List.append_assoc]
  exact List.perm_append_comm

/-- What `data` shows is in a block of the frame. -/
theorem Apart.view (h : t.Apart) (hf : f ∈ t.frames) : ∃ view, f.data = some view ∧
    ∀ v, view = some v → v.base ∈ f.blocks ∧ t.tap.machine.heap.Live v := by
  have hb := h.backed f hf
  cases howned : f.owned with
  | some b =>
    have hlen := hb.owned b howned
    refine ⟨some ⟨b.base, f.len⟩, by simp [TapFrame.data, howned, hlen], ?_⟩
    rintro _ ⟨⟩
    refine ⟨by simp [TapFrame.blocks, howned], Heap.Live.mono ?_ hlen⟩
    exact (h.holds.whole (List.mem_filterMap.mpr ⟨f, hf, howned⟩)).live
  | none =>
    refine ⟨f.raw.data.map fun d => ⟨d.base, f.len⟩, by simp [TapFrame.data, howned], ?_⟩
    intro v hv
    obtain ⟨d, hd, rfl⟩ := Option.map_eq_some_iff.mp hv
    obtain ⟨hlen, p, hp, hmap⟩ := hb.mapped howned d hd
    have hraw : f.raw ∈ t.frames.map TapFrame.raw := List.mem_map_of_mem hf
    refine ⟨?_, Heap.Live.mono ?_ hlen⟩
    · exact List.mem_append_right _ (FrameInfo.mem_blocks.mpr ⟨p, hp, .inr ⟨d, hmap, rfl⟩⟩)
    · exact ((h.holds.sound.intact.valid f.raw hraw p hp).mapped d hmap).1.live

/-- The buffer of a frame is no frame's mapping. -/
theorem Apart.buf_ne (h : t.Apart) {g : TapFrame} {p : FramePriv} {mapped : Slice}
    (hf : f ∈ t.frames) (hown : f.owned = some buf) (hg : g ∈ t.frames)
    (hp : g.raw.priv = some p) (hmap : p.mapped = some mapped) : buf.base ≠ mapped.base := by
  have hframe : g.raw ∈ t.frames.map TapFrame.raw := List.mem_map_of_mem hg
  have hblock : mapped.base ∈ g.raw.blocks :=
    FrameInfo.mem_blocks.mpr ⟨p, hp, .inr ⟨mapped, hmap, rfl⟩⟩
  exact h.holds.sound.intact.disjoint hframe hblock
    (List.mem_append_right _ (List.mem_filterMap.mpr ⟨f, hf, hown⟩))

/-- A step that does not drop a frame leaves its buffer alone. -/
theorem Apart.step_keeps (h : t.Apart) (hstep : TapStep egl t t') (hf : f ∈ t.frames)
    (hf' : f ∈ t'.frames) (hown : f.owned = some buf) :
    t'.tap.machine.heap.block buf.base = t.tap.machine.heap.block buf.base := by
  cases hstep with
  | @grab call r tap held hr =>
    obtain ⟨-, hs⟩ := Cmd.wp_runs (E := rustEnv egl) (h.call call) hr
    have hkept := hs.bufs buf (List.mem_filterMap.mpr ⟨f, hf, hown⟩)
    cases r <;> exact hkept
  | @drop before after g tap held hg hr =>
    obtain ⟨-, hs⟩ := Cmd.wp_runs (E := rustEnv egl) (h.drop hg) hr
    exact hs.bufs buf (List.mem_filterMap.mpr ⟨f, hf', hown⟩)
  | @shared g p mapped heap A V hg hp hmap hfill =>
    exact hfill.other buf.base (h.buf_ne hf hown hg hp hmap)

/-- A step that drops other frames than this one. -/
def KeepStep (egl : Prop) (f : TapFrame) (t t' : Tap) : Prop := TapStep egl t t' ∧ f ∈ t'.frames

theorem Apart.run_keeps (h : t.Apart) (hf : f ∈ t.frames) (hown : f.owned = some buf)
    (hrun : Relation.ReflTransGen (KeepStep egl f) t t') :
    t'.Apart ∧ f ∈ t'.frames ∧
      t'.tap.machine.heap.block buf.base = t.tap.machine.heap.block buf.base := by
  induction hrun with
  | refl => exact ⟨h, hf, rfl⟩
  | tail _ hstep ih =>
    obtain ⟨ha, hf, hsame⟩ := ih
    exact ⟨ha.step hstep.1, hstep.2, (ha.step_keeps hstep.1 hf hstep.2 hown).trans hsame⟩

end Frames

end Tap

/-- In every run of a tap, no two of its frames, nor the buffer it keeps for the next one, have a
block in common, and no buffer of a frame stays lent to the context. What `data` shows, which it
can, is readable memory of the frame. Whatever comes next, a grab or the drop of a frame, nothing
is written, read, freed or closed that is not there. -/
theorem rust_frames_apart {egl : Prop} {driver : String} {crtcId : UInt32} {t : Tap}
    (hrun : Relation.ReflTransGen (TapStep egl) (.opened driver crtcId) t) :
    ((t.tap.spare.map Slice.base).toList ++ t.frames.flatMap TapFrame.blocks).Nodup ∧
      t.tap.machine.ctx.userOut = none ∧
      (∀ f ∈ t.frames, ∃ view, f.data = some view ∧
        ∀ v, view = some v → v.base ∈ f.blocks ∧ t.tap.machine.heap.Live v) ∧
      (∀ call : TapCall, Cmd.wp (rustEnv egl) call.run (fun _ _ _ => True) t.tap t.held) ∧
      ∀ f ∈ t.frames, Cmd.wp (rustEnv egl) f.drop (fun _ _ _ => True) t.tap t.held := by
  have h := (Tap.opened_apart driver crtcId).run hrun
  refine ⟨h.nodup, h.holds.user, fun f hf => h.view hf, fun call => ?_, fun f hf => ?_⟩
  · exact Cmd.wp_mono (h.call call) fun _ _ _ _ => trivial
  · obtain ⟨before, after, hsplit⟩ := List.append_of_mem hf
    exact Cmd.wp_mono (h.drop hsplit) fun _ _ _ _ => trivial

/-- A device, under a lock that is always taken. -/
def lockingDevice (device : Device) (held : Multiset Resource) :
    (o : Op ⊕ RustOp) → Option (Sum.elim Ans RustAns o × Multiset Resource)
  | .inl o => libLedger.device device held o
  | .inr .lockSpare => some (true, held)

theorem lockingDevice_runs {device : Device} (hans : ∀ o, libAns False o (device o))
    {call : TapCall} {t : Tap} {r : Except ℤ TapFrame} {tap : DrmTap} {held : Multiset Resource}
    (he : call.run.exec 100 (lockingDevice device) t.tap t.held = some ((r, tap), held)) :
    Cmd.Runs (rustEnv False) call.run t.tap t.held r tap held := by
  apply Cmd.exec_runs (E := rustEnv False) _ he
  intro s o r s' hs
  cases o with
  | inl o =>
    obtain ⟨rfl, rfl⟩ := Prod.mk.inj (Option.some.inj hs)
    exact ⟨hans o, rfl⟩
  | inr o =>
    cases o
    exact (Prod.mk.inj (Option.some.inj hs)).2.symm

theorem mappingDevice_tapGrab : ((TapCall.grabMapped.run).exec 100 (lockingDevice mappingDevice)
    (Tap.opened "i915" 2).tap 0).map (fun x => x.1.1.toOption.isSome) = some true := by
  decide +kernel

theorem mappingDevice_tapRuns : ∃ f tap held,
    Cmd.Runs (rustEnv False) TapCall.grabMapped.run (Tap.opened "i915" 2).tap 0 (.ok f) tap
      held := by
  obtain ⟨⟨⟨r, tap⟩, held⟩, he, heq⟩ := Option.map_eq_some_iff.mp mappingDevice_tapGrab
  cases r with
  | error e => cases heq
  | ok f => exact ⟨f, tap, held, lockingDevice_runs mappingDevice_libAns he⟩

theorem rust_frames_apart_grabbed : ∃ t : Tap, t.frames.length = 1 ∧
    (t.frames.flatMap TapFrame.blocks).Nodup := by
  obtain ⟨f, tap, held, hr⟩ := mappingDevice_tapRuns
  have hstep : TapStep False (.opened "i915" 2)
      ((Tap.opened "i915" 2).hand tap held (.ok f)) := .grab .grabMapped hr
  exact ⟨_, rfl, (List.nodup_append.mp (rust_frames_apart (.single hstep)).1).2.1⟩

/-- A frame that has a buffer of its own keeps its pixels: until it is dropped, whatever is grabbed
and dropped meanwhile, and whatever others write into the buffers that are mapped, `data` shows the
bytes that the library had reported when the grab returned. A frame without one shows what is in
its own mapping, if the library reported any pixels. -/
theorem rust_frame_keeps_pixels {egl : Prop} {driver : String} {crtcId : UInt32} {t t' : Tap}
    {call : TapCall} {f : TapFrame} {tap : DrmTap} {held : Multiset Resource}
    (hrun : Relation.ReflTransGen (TapStep egl) (.opened driver crtcId) t)
    (hr : Cmd.Runs (rustEnv egl) call.run t.tap t.held (.ok f) tap held)
    (hkeep : Relation.ReflTransGen (Tap.KeepStep egl f) (t.hand tap held (.ok f)) t') :
    (∀ buf, f.owned = some buf → f.data = some (some ⟨buf.base, f.len⟩) ∧
      ∃ d bytes, f.raw.data = some d ∧ tap.machine.heap.load d 0 f.len = some bytes ∧
        t'.tap.machine.heap.load ⟨buf.base, f.len⟩ 0 f.len = some bytes) ∧
      (f.owned = none → (f.data = some none ↔ f.raw.data = none) ∧
        ∀ d, f.raw.data = some d → f.data = some (some ⟨d.base, f.len⟩) ∧
          ∃ p, f.raw.priv = some p ∧ p.mapped = some d) := by
  have h := (Tap.opened_apart driver crtcId).run hrun
  obtain ⟨⟨-, hbacked, hshows⟩, -⟩ := Cmd.wp_runs (E := rustEnv egl) (h.call call) hr
  have h₁ : (t.hand tap held (.ok f)).Apart := h.step (.grab call hr)
  have hmem : f ∈ (t.hand tap held (.ok f)).frames := List.mem_cons_self
  constructor
  · intro buf hown
    have hdata : f.data = some (some ⟨buf.base, f.len⟩) := by
      simp [TapFrame.data, hown, hbacked.owned buf hown]
    obtain ⟨view, hview, hblock⟩ := h₁.view hmem
    obtain rfl := Option.some.inj (hdata.symm.trans hview)
    have hlive := (hblock _ rfl).2
    obtain ⟨d, hd, hlived, -, hfits, hread⟩ := hshows.pixels _ hdata
    have hsame : t'.tap.machine.heap.block (Slice.mk buf.base f.len).base =
        tap.machine.heap.block buf.base := (h₁.run_keeps hmem hown hkeep).2.2
    refine ⟨hdata, d, _, hd, Heap.load_eq hlived (by omega), ?_⟩
    rw [Heap.load_congr hsame]
    have hload : tap.machine.heap.load ⟨buf.base, f.len⟩ 0 f.len = _ :=
      Heap.load_eq hlive (by simp)
    refine hload.trans (congrArg some (List.map_congr_left fun i hi => ?_))
    rw [Nat.zero_add]
    exact hread i (List.mem_range.mp hi)
  · intro hnone
    refine ⟨hshows.blank, fun d hd => ⟨?_, (hbacked.mapped hnone d hd).2⟩⟩
    simp [TapFrame.data, hnone, hd]

theorem pixelDevice_tapGrab : ((TapCall.grab.run).exec 100 (lockingDevice pixelDevice)
    (Tap.opened "i915" 2).tap 0).bind
      (fun x => x.1.1.toOption.bind fun f => f.owned.map Slice.len) = some 4 := by
  decide +kernel

/-- One pixel that the helper sent, copied out of the receive buffer. -/
theorem rust_frame_keeps_pixels_copied : ∃ (f : TapFrame) (buf : Slice) (tap : DrmTap)
    (bytes : List UInt8), f.owned = some buf ∧ f.data = some (some ⟨buf.base, f.len⟩) ∧
      tap.machine.heap.load ⟨buf.base, f.len⟩ 0 f.len = some bytes := by
  obtain ⟨⟨⟨r, tap⟩, held⟩, he, heq⟩ := Option.bind_eq_some_iff.mp pixelDevice_tapGrab
  cases r with
  | error e => cases heq
  | ok f =>
    have hr := lockingDevice_runs pixelDevice_libAns he
    obtain ⟨buf, hown, -⟩ : ∃ buf, f.owned = some buf ∧ buf.len = 4 :=
      Option.map_eq_some_iff.mp heq
    obtain ⟨hdata, d, bytes, -, -, hload⟩ :=
      (rust_frame_keeps_pixels .refl hr .refl).1 buf hown
    exact ⟨f, buf, tap, bytes, hown, hdata, hload⟩

/-! Its end -/

section End
variable {egl : Prop} {t : Tap} {tap : DrmTap} {held : Multiset Resource} {b : ℕ} {α : Type}

theorem spares_close (drmFd : ℤ) : Spares (SlotsSpared b) b (drmtapClose drmFd) fun _ => True := by
  apply Cmd.Stays.bind spares_fastCleanup
  intro _ _
  apply Cmd.Stays.bind (.call trivial)
  intro _ _
  apply Cmd.Stays.bind spares_converses.helperStop
  intro _ _
  apply Cmd.Stays.bind (spares_converses.closeFd drmFd)
  intro _ _
  apply Cmd.Stays.bind (Q := fun c => (∀ s, c.deswizzleBuf = some s → s.base ≠ b) ∧
    ∀ s, c.pixelBuf = some s → s.base ≠ b)
  · exact .bind .get fun _ hm => .pure ⟨hm.shadow, hm.pixel⟩
  intro c hc
  apply Cmd.Stays.bind (spares_freeBuf hc.1)
  intro _ _
  apply Cmd.Stays.bind (Q := fun _ => True)
  · apply Cmd.Stays.modify
    · intro m hm
      exact ⟨hm.lt, by simp [Ctx.setShadow], hm.pixel, hm.slots, hm.memo⟩
    · exact fun m => ⟨rfl, rfl, rfl⟩
  intro _ _
  apply Cmd.Stays.bind (spares_freeBuf hc.2)
  intro _ _
  exact spares_setPixelBuf (by simp)

/-- A context without frames holds nothing once it is closed. -/
theorem DrmTap.Holds.drop (h : tap.Holds held [] [] none) (drmFd : ℤ) :
    Cmd.wp (rustEnv egl) (DrmTap.drop drmFd) (fun _ tap' held' =>
      held' = 0 ∧ tap'.machine.ctx.helperFd < 0 ∧ tap'.spare = none) tap
      (held + fdOf drmFd) := by
  have hi := h.sound.intact
  have hheld : held + fdOf drmFd =
      tap.machine.ctx.owned + (tap.machine.sockets + (fdOf drmFd + 0)) := by
    rw [show held = tap.machine.ctx.owned + (tap.machine.sockets + 0) from h.sound.held]
    abel
  have hclose : Cmd.wp (libEnv egl .free) (drmtapClose drmFd) (fun _ m' held' =>
      m'.ctx.helperFd < 0 ∧ (∀ i, m'.ctx.fastSlots i = .empty) ∧ held' = 0) tap.machine
      (held + fdOf drmFd) :=
    drmtapClose_lib hi.fast (WindowRule.free_allows 0) hheld
  unfold DrmTap.drop
  rw [Cmd.wp_bind, DrmTap.wp_ffi]
  apply Cmd.wp_of_runs hclose
  intro _ m' held' hr h
  obtain ⟨hfd, _, hzero⟩ := h
  simp only [Cmd.wp_bind, Cmd.wp_get, Cmd.wp_modify]
  cases hspare : tap.spare with
  | none =>
    rw [show (tap.setMachine m').spare = none from hspare]
    exact ⟨hzero, hfd, rfl⟩
  | some v =>
    rw [show (tap.setMachine m').spare = some v from hspare]
    have hmem : v ∈ (tap.session held [] []).caller := by simp [DrmTap.session, hspare]
    have hspared := hi.spared v.base (Session.mem_claimed.mpr (.inr ⟨v, hmem, rfl⟩))
    have hspares : Spares (SlotsSpared v.base) v.base (drmtapClose drmFd) fun _ => True :=
      spares_close drmFd
    obtain ⟨-, hsame, -⟩ := (hspares.weaken (fun _ _ => trivial) (fun _ h => h)
      fun _ _ _ h hr => ⟨h, hr⟩).runs hr hspared
    have hwhole : m'.heap.Whole v := (hi.whole v hmem).congr hsame.block
    apply DrmTap.wp_heap.mpr
    refine ⟨(), m'.heap.release v.base, ?_, hzero, hfd, rfl⟩
    rw [show (DrmTap.setSpare (tap.setMachine m') none).machine.heap = m'.heap from rfl,
      hwhole.free]
    rfl

end End

end Drmtap
