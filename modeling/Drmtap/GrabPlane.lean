import Drmtap.FailedGrabs
import Drmtap.Footprint

/-! `grab_plane_id` over the life of a context. -/
namespace Drmtap

open Memory Effect

/-- What a call has asked the kernel so far: the plane it looked at last, up to the first
framebuffer it read. -/
structure PlaneNote where
  plane : UInt32
  read : Bool

def PlaneNote.start : PlaneNote := ⟨0, false⟩

def PlaneNote.note (n : PlaneNote) : (o : Op) → Ans o → PlaneNote
  | .getPlane id, _ => if n.read then n else { n with plane := id }
  | .getFB2 _, _ => { n with read := true }
  | _, _ => n

/-- Any answers, of which the plane is noted. -/
abbrev planeEnv : Env := .noting PlaneNote.note

theorem PlaneNote.note_of_read {n : PlaneNote} (h : n.read = true) (o : Op) (r : Ans o) :
    n.note o r = n := by
  cases o <;> first | rfl | simp [note, h]
  cases n
  simp_all

theorem PlaneNote.note_beside {o : Op} (ho : BesideKms o) (n : PlaneNote) (r : Ans o) :
    n.note o r = n := by
  cases o <;> first | rfl | exact absurd trivial ho | exact ho.elim

/-- The planes of the context are as they were, and so is the note once a framebuffer was read. -/
structure KeepsPlane (x y : Machine × PlaneNote) : Prop where
  grabPlane : y.1.ctx.grabPlaneId = x.1.ctx.grabPlaneId
  fastPlane : y.1.ctx.fastPlaneId = x.1.ctx.fastPlaneId
  note : x.2.read = true → y.2 = x.2

instance : IsPreorder (Machine × PlaneNote) KeepsPlane where
  refl _ := ⟨rfl, rfl, fun _ => rfl⟩
  trans x y z h₁ h₂ := by
    refine ⟨h₂.grabPlane.trans h₁.grabPlane, h₂.fastPlane.trans h₁.fastPlane, fun h => ?_⟩
    have hy := h₁.note h
    rw [h₂.note (hy ▸ h), hy]

theorem keepsPlane_tracks : Tracks Unprobing planeEnv KeepsPlane where
  beside _ h := h.unprobing
  legal _ _ _ := trivial
  call _ n o r _ _ hs := ⟨rfl, rfl, fun h => hs.trans (n.note_of_read h o r)⟩
  untouched _ _ _ h := ⟨h.grabPlane, h.fastPlane, fun _ => rfl⟩

theorem keepsPlane_slot (m : Machine) (i : SlotId) (slot : FastSlot) (n : PlaneNote) :
    KeepsPlane (m, n) (⟨m.ctx.setSlot i slot, m.heap⟩, n) := ⟨rfl, rfl, fun _ => rfl⟩

theorem keepsPlane_select : Cmd.Follows planeEnv KeepsPlane selectFirstActiveCrtc :=
  follows_select keepsPlane_tracks fun _ _ _ => ⟨rfl, rfl, fun _ => rfl⟩

/-- The same, with the note as it was: so it is where the scanout is not looked at. -/
def KeepsNote (x y : Machine × PlaneNote) : Prop := KeepsPlane x y ∧ y.2 = x.2

instance : IsPreorder (Machine × PlaneNote) KeepsNote where
  refl x := ⟨refl_of KeepsPlane x, rfl⟩
  trans _ _ _ h₁ h₂ := ⟨trans_of KeepsPlane h₁.1 h₂.1, h₂.2.trans h₁.2⟩

theorem keepsNote_tracks : Tracks BesideKms planeEnv KeepsNote where
  beside _ h := h
  legal _ _ _ := trivial
  call _ n _ r _ ho hs :=
    have hn := hs.trans (n.note_beside ho r)
    ⟨⟨rfl, rfl, fun _ => hn⟩, hn⟩
  untouched _ _ _ h := ⟨⟨h.grabPlane, h.fastPlane, fun _ => rfl⟩, rfl⟩

theorem keepsNote_slot (m : Machine) (i : SlotId) (slot : FastSlot) (n : PlaneNote) :
    KeepsNote (m, n) (⟨m.ctx.setSlot i slot, m.heap⟩, n) := ⟨keepsPlane_slot m i slot n, rfl⟩

/-- No framebuffer was read, or one was before. -/
def KeepsUnread (x y : Machine × PlaneNote) : Prop := y.2.read = x.2.read

instance : IsPreorder (Machine × PlaneNote) KeepsUnread where
  refl _ := rfl
  trans _ _ _ h₁ h₂ := h₂.trans h₁

instance : IsPreorder PlaneNote fun n n' => n'.read = n.read where
  refl _ := rfl
  trans _ _ _ h₁ h₂ := h₂.trans h₁

theorem kms_unread {α : Type} {R : Machine → Machine → Prop} {m : M α}
    (h : Cmd.Steps KmsOp R m) : Cmd.Follows planeEnv KeepsUnread m := by
  have hT : ∀ (n : PlaneNote) o, KmsOp o → True ∧ ∀ r n', n' = n.note o r → n'.read = n.read := by
    rintro n o ho
    refine ⟨trivial, ?_⟩
    rintro r _ rfl
    cases o <;> first | rfl | exact ho.elim | skip
    by_cases hr : n.read = true
    · rw [n.note_of_read hr]
    · simp [PlaneNote.note, hr]
  exact (h.follows (E := planeEnv) hT).mono fun _ _ h => h.2

theorem readHdr_unread : Cmd.Follows planeEnv KeepsUnread readHdrForCurrentCrtc := by
  refine .bind (.bind .get fun m => .pure _) fun ctx => .bind ?_ fun hdr => .modify fun _ _ => rfl
  exact kms_unread (.of_reads (R := Selects) (readHdr_reads _))

instance : IsPreorder PlaneNote fun n n' => n.read = true → n' = n where
  refl _ _ := rfl
  trans n n' n'' h₁ h₂ h := by
    have hn := h₁ h
    rw [h₂ (hn ▸ h), hn]

/-- Once a framebuffer was read the note stays, whatever follows. -/
theorem keeps_read {α : Type} (m : M α) :
    Cmd.Follows planeEnv (fun x y => x.2.read = true → y.2 = x.2) m := by
  refine Cmd.Follows.of_env (E := planeEnv) (T := fun n n' => n.read = true → n' = n)
    (fun _ _ => trivial) ?_ m
  rintro n o r _ rfl h
  exact n.note_of_read h o r

/-! `do_grab` -/

section Grab
variable {m : Machine} {s : PlaneNote} {doMmap : Bool} {planeId fbId : UInt32} {fb2 : Fb2}
  {frame : FrameInfo}

/-- The framebuffer that is read is the one on the plane that was looked at last. -/
theorem readScanout_plane (hs : s.read = false) :
    Cmd.wlp planeEnv readScanout (fun r _ s' => (∀ ret, r = .error ret → ret ≠ 0) ∧
      ∀ planeId fbId fb2, r = .ok (planeId, fbId, fb2) → s' = ⟨planeId, true⟩) m s := by
  have hnone : ∀ s' : PlaneNote,
      (∀ ret, (Except.error (- ENODEV) : Except ℤ (UInt32 × UInt32 × Fb2)) = .error ret → ret ≠ 0) ∧
        ∀ planeId fbId fb2, (Except.error (- ENODEV) : Except ℤ (UInt32 × UInt32 × Fb2)) =
          .ok (planeId, fbId, fb2) → s' = ⟨planeId, true⟩ := by
    intro s'
    refine ⟨?_, by simp⟩
    rintro _ ⟨⟩
    decide
  unfold readScanout
  simp only [Cmd.wlp_bind, Cmd.wlp_ite, Cmd.wlp_pure, Cmd.wlp_call]
  apply Cmd.wlp_mono (kms_unread findPrimaryPlane_steps m s)
  intro planeId m₁ s₁ h₁
  apply Cmd.wlp_mono (readHdr_unread m₁ s₁)
  intro _ m₂ s₂ h₂
  have hread : s₂.read = false := h₂.trans (h₁.trans hs)
  refine ⟨fun _ => hnone _, fun _ => ⟨trivial, ?_⟩⟩
  rintro (_ | plane) s₃ rfl
  · exact hnone _
  · simp only [Cmd.wlp_bind, Cmd.wlp_ite, Cmd.wlp_pure, Cmd.wlp_call]
    refine ⟨fun _ => hnone _, fun _ => ⟨trivial, ?_⟩⟩
    rintro (e | fb2) s₄ rfl
    · refine ⟨?_, by simp⟩
      rintro _ ⟨⟩
      exact e.neg_ne_zero
    · refine ⟨by simp, ?_⟩
      rintro _ _ _ ⟨⟩
      simp [PlaneNote.note, hread]

/-- A frame on its way out of a grab from `planeId`. -/
def Prepared.Of (planeId : UInt32) : Prepared → Prop
  | .done ret _ => ret ≠ 0
  | .ready id _ _ | .unmapped id _ _ _ => id = planeId

theorem prepareReply_of {self pixelBuf : Slice} {reply : HelperGrabResult} :
    Cmd.Yields (prepareReply planeId self pixelBuf reply) (Prepared.Of planeId) := by
  refine .call_bind fun width => .call_bind fun _ => ?_
  by_cases hok : checkWireFrame (frameOfWire reply.wire width) = 0
  · simp only [ne_eq, hok, not_true_eq_false, if_false]
    apply Cmd.Yields.ite
    · apply Cmd.Yields.call_bind
      rintro (e | mapped)
      · exact .pure rfl
      · exact .call_bind fun started => .pure rfl
    · have hproto : (- EPROTO : ℤ) ≠ 0 := by decide
      exact .ite (.call_bind fun _ => .pure hproto) (.pure rfl)
  · simp only [ne_eq, hok, not_false_eq_true, if_true]
    exact .call_bind fun _ => .call_bind fun _ => .pure hok

theorem drmtapEnsureBuf_yields (buf : Option Slice) (size : ℕ) :
    Cmd.Yields (drmtapEnsureBuf buf size) fun r => r.2 = none → r.1 ≠ 0 := by
  have hinval : (- EINVAL : ℤ) ≠ 0 := by decide
  have hfbig : (- EFBIG : ℤ) ≠ 0 := by decide
  have hnomem : (- ENOMEM : ℤ) ≠ 0 := by decide
  refine .ite (.pure fun _ => hinval) (.ite (.pure fun _ => hfbig) ?_)
  by_cases hany : buf.any fun b => size ≤ b.len
  · rw [if_pos hany]
    refine .pure fun hnone => ?_
    rw [show buf = none from hnone] at hany
    cases hany
  · rw [if_neg hany]
    apply Cmd.Yields.call_bind
    intro _
    apply Cmd.Yields.call_bind
    rintro (_ | b)
    · exact .pure fun _ => hnomem
    · exact .pure (by simp)

theorem grabCleanup_of {gem : UInt32} {fd ret : ℤ} (hret : ret ≠ 0) :
    Cmd.Yields (grabCleanup frame gem fd ret >>= fun r => pure (Prepared.done r.1 r.2))
      (Prepared.Of planeId) := by
  have hr : Cmd.Yields (grabCleanup frame gem fd ret) fun r => r.1 = ret :=
    .call_bind fun _ => .call_bind fun _ => .pure rfl
  refine .bind hr fun r hr => .pure ?_
  rw [Prepared.Of, hr]
  exact hret

theorem prepareByHelper_of : Cmd.Yields (prepareByHelper planeId fb2 frame) (Prepared.Of planeId) := by
  have hacces : (- EACCES : ℤ) ≠ 0 := by decide
  have hnomem : (- ENOMEM : ℤ) ≠ 0 := by decide
  refine .call_bind fun ctx => .bind (drmtapEnsureBuf_yields _ _) ?_
  rintro ⟨ret, buf⟩ hret
  apply Cmd.Yields.call_bind
  intro _
  cases buf with
  | none => exact .pure (hret rfl)
  | some pixelBuf =>
    by_cases hbad : ret ≠ 0
    · simp only [if_pos hbad]
      exact .pure hbad
    · simp only [if_neg hbad]
      apply Cmd.Yields.call_bind
      intro r
      apply Cmd.Yields.ite
      · exact grabCleanup_of hacces
      · apply Cmd.Yields.call_bind
        rintro (_ | self)
        · exact .call_bind fun _ => .pure hnomem
        · exact prepareReply_of

theorem prepareFramebuffer_of :
    Cmd.Yields (prepareFramebuffer doMmap planeId fbId fb2 frame) (Prepared.Of planeId) := by
  have hnomem : (- ENOMEM : ℤ) ≠ 0 := by decide
  apply Cmd.Yields.ite prepareByHelper_of
  apply Cmd.Yields.call_bind
  rintro (e | primeFd)
  · exact .ite (.call_bind fun _ => prepareByHelper_of) (grabCleanup_of e.neg_ne_zero)
  · apply Cmd.Yields.call_bind
    rintro (_ | self)
    · exact grabCleanup_of hnomem
    · apply Cmd.Yields.call_bind
      intro width
      apply Cmd.Yields.ite
      · apply Cmd.Yields.call_bind
        rintro (e | mapped)
        · exact .pure rfl
        · exact .call_bind fun started => .pure rfl
      · exact .pure rfl

/-- The plane is the one whose framebuffer was read. -/
def Prepared.Noted (s : PlaneNote) : Prepared → Prop
  | .done ret _ => ret ≠ 0
  | .ready id _ _ | .unmapped id _ _ _ => s = ⟨id, true⟩

theorem Prepared.Of.noted {prepared : Prepared} (h : prepared.Of planeId) :
    prepared.Noted ⟨planeId, true⟩ := by
  cases prepared with
  | done ret frame => exact h
  | ready id frame isVirgl => rw [Noted, show id = planeId from h]
  | unmapped id frame priv e => rw [Noted, show id = planeId from h]

theorem prepareGrab_plane (hs : s.read = false) :
    Cmd.wlp planeEnv (prepareGrab doMmap frame) (fun prepared m' s' =>
      KeepsPlane (m, s) (m', s') ∧ prepared.Noted s') m s := by
  have hpix : ∀ (m : Machine) buf s, KeepsPlane (m, s) (⟨m.ctx.setPixelBuf buf, m.heap⟩, s) :=
    fun _ _ _ => ⟨rfl, rfl, fun _ => rfl⟩
  apply (follows_prepareGrab keepsPlane_tracks keepsPlane_select hpix doMmap frame).wlp_and
  have hnotsup : (- ENOTSUP : ℤ) ≠ 0 := by decide
  unfold prepareGrab
  rw [Cmd.wlp_bind, wlp_getCtx, Cmd.wlp_ite]
  refine ⟨fun _ => hnotsup, fun _ => ?_⟩
  rw [Cmd.wlp_bind]
  apply Cmd.wlp_mono (readScanout_plane hs)
  rintro (ret | ⟨planeId, fbId, fb2⟩) m₁ s₁ ⟨herr, hok⟩
  · exact herr ret rfl
  · obtain rfl := hok planeId fbId fb2 rfl
    refine Cmd.wlp_mono
      (Cmd.Yields.wlp (P := Prepared.Of planeId) ?_ (keeps_read _ m₁ ⟨planeId, true⟩)) ?_
    · apply Cmd.Yields.call_bind
      intro _
      by_cases hbad : checkGeometry fb2.width fb2.height (fb2.pitches 0) ≠ 0
      · simp only [if_pos hbad]
        exact grabCleanup_of hbad
      · simp only [if_neg hbad]
        exact .call_bind fun _ => prepareFramebuffer_of
    · rintro prepared m' s' ⟨ho, hn⟩
      obtain rfl : s' = ⟨planeId, true⟩ := hn rfl
      exact ho.noted

/-- What the end of a call does to the plane: a success names the one that was noted. -/
structure Names (ret : ℤ) (x y : Machine × PlaneNote) : Prop where
  success : ret = 0 → y.1.ctx.grabPlaneId = y.2.plane
  failure : ret ≠ 0 → y.1.ctx.grabPlaneId = x.1.ctx.grabPlaneId

theorem Names.after {x y z : Machine × PlaneNote} {ret : ℤ} (h : Names ret y z)
    (hk : y.1.ctx.grabPlaneId = x.1.ctx.grabPlaneId) : Names ret x z :=
  ⟨h.success, fun hret => (h.failure hret).trans hk⟩

theorem concludeGrab_plane {ret : ℤ} (hs : s = ⟨planeId, true⟩) :
    Cmd.wlp planeEnv (concludeGrab planeId ret frame)
      (fun r m' s' => Names r.1 (m, s) (m', s')) m s := by
  unfold concludeGrab
  simp only [Cmd.wlp_ite, Cmd.wlp_bind, Cmd.wlp_pure, wlp_modifyCtx]
  refine ⟨fun hret => ?_, fun _ => ⟨fun _ => by rw [hs]; rfl, fun h => absurd rfl h⟩⟩
  apply Cmd.wlp_mono (follows_frameRelease keepsPlane_tracks frame m s)
  exact fun f m' s' hk => ⟨fun h => absurd h hret, fun _ => hk.grabPlane⟩

theorem finishGrab_plane {prepared : Prepared} (hp : prepared.Noted s) :
    Cmd.wlp planeEnv (finishGrab doMmap prepared)
      (fun r m' s' => Names r.1 (m, s) (m', s')) m s := by
  cases prepared with
  | done ret frame => exact ⟨fun h => absurd h hp, fun _ => rfl⟩
  | ready planeId frame isVirgl =>
    have hnote : s = ⟨planeId, true⟩ := hp
    unfold finishGrab
    simp only [Cmd.wlp_ite, Cmd.wlp_bind]
    refine ⟨fun _ => ?_, fun _ => concludeGrab_plane hnote⟩
    apply Cmd.wlp_mono (follows_autoProcess keepsPlane_tracks _ _ _ _ m s)
    intro r m₁ s₁ hk
    have hnote₁ : s₁ = ⟨planeId, true⟩ := (hk.note (by rw [hnote])).trans hnote
    exact Cmd.wlp_mono (concludeGrab_plane hnote₁) fun _ _ _ h => h.after hk.grabPlane
  | unmapped planeId frame priv e =>
    have hnote : s = ⟨planeId, true⟩ := hp
    unfold finishGrab
    simp only [Cmd.wlp_ite, Cmd.wlp_bind]
    apply Cmd.wlp_mono (follows_autoProcess keepsPlane_tracks _ _ _ _ m s)
    intro r m₁ s₁ hk
    have hnote₁ : s₁ = ⟨planeId, true⟩ := (hk.note (by rw [hnote])).trans hnote
    refine ⟨fun _ => ?_, fun _ => ?_⟩
    · have hne : (if r.1 = 0 then e.neg else r.1) ≠ 0 := by
        split_ifs with h0
        · exact e.neg_ne_zero
        · exact h0
      have hret : ∀ ret, Cmd.Yields (grabCleanupPriv r.2 priv ret) fun r => r.1 = ret :=
        fun ret => .call_bind fun _ => .call_bind fun _ => .call_bind fun _ => .pure rfl
      refine Cmd.wlp_mono ((hret _).wlp (follows_grabCleanupPriv keepsPlane_tracks _ _ _ m₁ s₁)) ?_
      rintro r' m' s' ⟨hr', hk'⟩
      rw [hr']
      exact ⟨fun h => absurd h hne, fun _ => hk'.grabPlane.trans hk.grabPlane⟩
    · exact Cmd.wlp_mono (concludeGrab_plane hnote₁) fun _ _ _ h => h.after hk.grabPlane

theorem doGrab_plane (hs : s.read = false) :
    Cmd.wlp planeEnv (doGrab doMmap frame) (fun r m' s' => Names r.1 (m, s) (m', s')) m s := by
  unfold doGrab
  rw [Cmd.wlp_bind]
  apply Cmd.wlp_mono (prepareGrab_plane hs)
  rintro prepared m₁ s₁ ⟨hk, hp⟩
  exact Cmd.wlp_mono (finishGrab_plane hp) fun _ _ _ h => h.after hk.grabPlane

/-- A frame that is refused for want of a descriptor takes its plane back. -/
theorem drmtapGrabDesc_plane (hs : s.read = false) (desc : DmabufDesc) :
    Cmd.wlp planeEnv (drmtapGrabDesc desc frame)
      (fun r m' s' => Names r.1 (m, s) (m', s')) m s := by
  have hnotsup : (- ENOTSUP : ℤ) ≠ 0 := by decide
  unfold drmtapGrabDesc
  simp only [Cmd.wlp_bind, wlp_getCtx, Cmd.wlp_ite, Cmd.wlp_pure, wlp_modifyCtx]
  apply Cmd.wlp_mono (doGrab_plane hs)
  rintro ⟨ret, frame'⟩ m₁ s₁ hn
  refine ⟨fun hret => hn, fun hret => ⟨fun _ => ?_, fun _ => ?_⟩⟩
  · apply Cmd.wlp_mono (Cmd.wlp_true (fun _ _ => trivial) (drmtapFrameRelease frame') m₁ s₁)
    exact fun _ _ _ _ => ⟨fun h => absurd h hnotsup, fun _ => rfl⟩
  · have h0 : ret = 0 := not_not.mp hret
    exact ⟨fun _ => hn.success h0, fun h => absurd rfl h⟩

end Grab

/-! The fast path -/

section Fast
variable {m : Machine} {s : PlaneNote} {i : SlotId} {fbId : UInt32} {fb2 : Fb2} {frame : FrameInfo}

/-- The plane of the fast path is the one that was noted. -/
def OnFastPlane (m : Machine) (s : PlaneNote) : Prop := s.plane = m.ctx.fastPlaneId

theorem OnFastPlane.keeps {m' : Machine} {s' : PlaneNote} (h : OnFastPlane m s)
    (hk : KeepsPlane (m, s) (m', s')) (hs : s' = s) : OnFastPlane m' s' := by
  rw [OnFastPlane, hs, hk.fastPlane]
  exact h

theorem setGrabPlane_names (h : OnFastPlane m s) :
    Names 0 (m, s) (⟨m.ctx.setGrabPlane m.ctx.fastPlaneId, m.heap⟩, s) :=
  ⟨fun _ => h.symm, fun h => absurd rfl h⟩

theorem processFast_plane (h : OnFastPlane m s) :
    Cmd.wlp planeEnv (processFast frame) (fun r m' s' => Names r.1 (m, s) (m', s')) m s := by
  unfold processFast
  simp only [Cmd.wlp_bind, Cmd.wlp_ite, Cmd.wlp_pure, wlp_getCtx, wlp_modifyCtx]
  apply Cmd.wlp_mono (follows_autoProcess keepsNote_tracks _ _ _ _ m s)
  rintro r m₁ s₁ ⟨hk, hs⟩
  refine ⟨fun hne => ⟨fun h0 => absurd h0 hne, fun _ => hk.grabPlane⟩, fun _ => ?_⟩
  exact (setGrabPlane_names (h.keeps hk hs)).after hk.grabPlane

theorem showSlot_plane (h : OnFastPlane m s) :
    Cmd.wlp planeEnv (showSlot i fbId) (fun r m' s' => Names r.1 (m, s) (m', s')) m s := by
  unfold showSlot getSlot
  simp only [Cmd.wlp_bind, Cmd.wlp_pure, wlp_getCtx, wlp_modifyCtx]
  exact Cmd.wlp_mono (processFast_plane h) fun _ _ _ hn => hn.after rfl

theorem fastSame_plane (h : OnFastPlane m s) :
    Cmd.wlp planeEnv (fastSame i fbId frame) (fun r m' s' => Names r.1 (m, s) (m', s')) m s := by
  unfold fastSame
  rw [Cmd.wlp_bind]
  apply Cmd.wlp_mono (follows_refreshSlot keepsNote_tracks keepsNote_slot i m s)
  rintro (_ | e) m₁ s₁ ⟨hk, hs⟩
  · exact Cmd.wlp_mono (showSlot_plane (h.keeps hk hs)) fun _ _ _ hn => hn.after hk.grabPlane
  · exact ⟨fun h0 => absurd h0 e.neg_ne_zero, fun _ => hk.grabPlane⟩

theorem fastHit_plane (h : OnFastPlane m s) :
    Cmd.wlp planeEnv (fastHit i fbId frame) (fun r m' s' => Names r.1 (m, s) (m', s')) m s := by
  unfold fastHit
  rw [Cmd.wlp_bind]
  apply Cmd.wlp_mono (follows_refreshSlot keepsNote_tracks keepsNote_slot i m s)
  rintro (_ | e) m₁ s₁ ⟨hk, hs⟩
  · rw [Cmd.wlp_bind, wlp_modifyCtx]
    have h₁ : OnFastPlane m₁ s₁ := h.keeps hk hs
    have h₂ : OnFastPlane ⟨m₁.ctx.setFastLast fbId, m₁.heap⟩ s₁ := h₁
    exact Cmd.wlp_mono (showSlot_plane h₂) fun _ _ _ hn => hn.after hk.grabPlane
  · exact ⟨fun h0 => absurd h0 e.neg_ne_zero, fun _ => hk.grabPlane⟩

theorem fastUnmapped_plane {primeFd : ℤ} {started : Bool} (h : OnFastPlane m s)
    (hs : s.read = true) : Cmd.wlp planeEnv (fastUnmapped fb2 fbId primeFd started frame)
      (fun r m' s' => Names r.1 (m, s) (m', s')) m s := by
  have hnomem : (- ENOMEM : ℤ) ≠ 0 := by decide
  unfold fastUnmapped
  simp only [Cmd.wlp_bind, Cmd.wlp_ite, Cmd.wlp_pure, Cmd.wlp_call, wlp_getCtx, wlp_modifyCtx]
  refine ⟨trivial, ?_⟩
  rintro avail s rfl
  refine ⟨fun _ => ?_, fun _ => ?_⟩
  · apply Cmd.wlp_mono (follows_scanoutWidth keepsPlane_tracks keepsPlane_select _ _ m s)
    intro width m₁ s₁ hk₁
    apply Cmd.wlp_mono (follows_autoProcess keepsPlane_tracks _ _ _ _ m₁ s₁)
    intro r m₂ s₂ hk₂
    apply Cmd.wlp_mono (follows_dropBuffer keepsPlane_tracks _ _ _ m₂ s₂)
    intro _ m₃ s₃ hk₃
    have hk := trans_of KeepsPlane (trans_of KeepsPlane hk₁ hk₂) hk₃
    refine ⟨fun hne => ⟨fun h0 => absurd h0 hne, fun _ => hk.grabPlane⟩, fun _ => ?_⟩
    have h₃ : OnFastPlane m₃ s₃ := h.keeps hk (hk.note hs)
    exact ⟨fun _ => h₃.symm, fun h => absurd rfl h⟩
  · apply Cmd.wlp_mono (follows_dropBuffer keepsPlane_tracks _ _ _ m s)
    exact fun _ _ _ hk => ⟨fun h0 => absurd h0 hnomem, fun _ => hk.grabPlane⟩

theorem storeSlot_plane {primeFd : ℤ} {mapped : Slice} {started : Bool} (h : OnFastPlane m s)
    (hs : s.read = true) : Cmd.wlp planeEnv (storeSlot i fb2 fbId primeFd mapped started)
      (fun r m' s' => Names r.1 (m, s) (m', s')) m s := by
  unfold storeSlot setSlot
  simp only [Cmd.wlp_bind, wlp_getCtx, wlp_modifyCtx]
  apply Cmd.wlp_mono (follows_scanoutWidth keepsPlane_tracks keepsPlane_select _ _ m s)
  intro width m₁ s₁ hk
  have h₁ : OnFastPlane m₁ s₁ := h.keeps hk (hk.note hs)
  refine Cmd.wlp_mono (processFast_plane (s := s₁) ?_) fun _ _ _ hn => hn.after hk.grabPlane
  exact h₁

/-- The cleanup forgets the plane of the fast path, and no other. -/
theorem drmtapFastCleanup_plane :
    Cmd.wlp planeEnv drmtapFastCleanup (fun _ m' _ => m'.ctx.grabPlaneId = m.ctx.grabPlaneId) m s := by
  unfold drmtapFastCleanup
  simp only [Cmd.wlp_bind, wlp_modifyCtx]
  apply Cmd.wlp_mono (follows_fastSyncClose keepsPlane_tracks keepsPlane_slot m s)
  intro _ m₁ s₁ hk₁
  apply Cmd.wlp_mono (follows_forSlots (follows_dropSlot keepsPlane_tracks keepsPlane_slot) _ m₁ s₁)
  exact fun _ m₂ s₂ hk₂ => hk₂.grabPlane.trans hk₁.grabPlane

theorem fastMiss_plane (h : OnFastPlane m s) :
    Cmd.wlp planeEnv (fastMiss i fbId frame) (fun r m' s' => Names r.1 (m, s) (m', s')) m s := by
  have hacces : (- EACCES : ℤ) ≠ 0 := by decide
  unfold fastMiss
  rw [Cmd.wlp_bind, Cmd.wlp_call]
  refine ⟨trivial, ?_⟩
  rintro (e | fb2) s₁ rfl
  · exact ⟨fun h0 => absurd h0 e.neg_ne_zero, fun _ => rfl⟩
  · have h₁ : OnFastPlane m (s.note (.getFB2 fbId) (.ok fb2)) := h
    have hread : (s.note (.getFB2 fbId) (.ok fb2)).read = true := rfl
    generalize s.note (.getFB2 fbId) (.ok fb2) = s₁ at h₁ hread
    simp only [Cmd.wlp_bind, Cmd.wlp_ite, Cmd.wlp_pure, wlp_modifyCtx]
    apply Cmd.wlp_mono (follows_closeAuxiliary keepsPlane_tracks fb2 m s₁)
    intro _ m₂ s₂ hk₂
    have h₂ := h₁.keeps hk₂ (hk₂.note hread)
    have hread₂ : s₂.read = true := by
      rw [show s₂ = s₁ from hk₂.note hread]
      exact hread
    refine ⟨fun _ => ?_, fun _ => ⟨fun hbad => ?_, fun _ => ?_⟩⟩
    · apply Cmd.wlp_mono (drmtapFastCleanup_plane (s := s₂))
      exact fun _ m₃ _ h₃ => ⟨fun h0 => absurd h0 hacces, fun _ => h₃.trans hk₂.grabPlane⟩
    · apply Cmd.wlp_mono (follows_gemClose keepsPlane_tracks _ m₂ s₂)
      exact fun _ m₃ _ hk₃ => ⟨fun h0 => absurd h0 hbad, fun _ => hk₃.grabPlane.trans hk₂.grabPlane⟩
    · rw [Cmd.wlp_call]
      refine ⟨trivial, ?_⟩
      rintro (e | primeFd) s₂ rfl
      · simp only [Cmd.wlp_bind, Cmd.wlp_pure]
        apply Cmd.wlp_mono (follows_gemClose keepsPlane_tracks _ ⟨m₂.ctx.stageFb2 fb2, m₂.heap⟩ s₂)
        exact fun _ m₃ _ hk₃ =>
          ⟨fun h0 => absurd h0 e.neg_ne_zero, fun _ => hk₃.grabPlane.trans hk₂.grabPlane⟩
      · unfold fastExported
        rw [Cmd.wlp_bind]
        have hmap : ∀ (m : Machine) s, KeepsPlane (m, s) (⟨m.ctx.setFastNoCpuMap, m.heap⟩, s) :=
          fun _ _ => ⟨rfl, rfl, fun _ => rfl⟩
        apply Cmd.wlp_mono (follows_mapFast keepsPlane_tracks hmap fb2 primeFd _ s₂)
        rintro ⟨_ | mapped, started⟩ m₃ s₃ hk₃
        all_goals
          have hk : KeepsPlane (m₂, s₂) (m₃, s₃) := ⟨hk₃.grabPlane, hk₃.fastPlane, hk₃.note⟩
          have h₃ := h₂.keeps hk (hk.note hread₂)
          have hread₃ : s₃.read = true := by
            rw [show s₃ = s₂ from hk.note hread₂]
            exact hread₂
        · exact Cmd.wlp_mono (fastUnmapped_plane h₃ hread₃) fun _ _ _ hn =>
            hn.after (hk.grabPlane.trans hk₂.grabPlane)
        · exact Cmd.wlp_mono (storeSlot_plane h₃ hread₃) fun _ _ _ hn =>
            hn.after (hk.grabPlane.trans hk₂.grabPlane)

theorem fastFrame_plane (h : OnFastPlane m s) :
    Cmd.wlp planeEnv (fastFrame fbId frame) (fun r m' s' => Names r.1 (m, s) (m', s')) m s := by
  unfold fastFrame
  rw [Cmd.wlp_bind, wlp_getCtx]
  cases m.ctx.lastSlot fbId with
  | some i => exact fastSame_plane h
  | none =>
    unfold fastFlip getSlot
    simp only [Cmd.wlp_bind, Cmd.wlp_ite, Cmd.wlp_pure, wlp_getCtx]
    apply Cmd.wlp_mono (follows_fastSyncClose keepsNote_tracks keepsNote_slot m s)
    rintro _ m₁ s₁ ⟨hk₁, hs₁⟩
    apply Cmd.wlp_mono (follows_findOrAllocSlot keepsNote_tracks keepsNote_slot fbId m₁ s₁)
    rintro i m₂ s₂ ⟨hk₂, hs₂⟩
    have h₂ := (h.keeps hk₁ hs₁).keeps hk₂ hs₂
    have hgrab := hk₂.grabPlane.trans hk₁.grabPlane
    exact ⟨fun _ => Cmd.wlp_mono (fastHit_plane h₂) fun _ _ _ hn => hn.after hgrab,
      fun _ => Cmd.wlp_mono (fastMiss_plane h₂) fun _ _ _ hn => hn.after hgrab⟩

theorem startFast_plane :
    Cmd.wlp planeEnv startFast (fun _ m' s' =>
      m'.ctx.grabPlaneId = m.ctx.grabPlaneId ∧ s'.read = s.read) m s := by
  unfold startFast
  simp only [Cmd.wlp_bind, Cmd.wlp_ite, Cmd.wlp_pure, wlp_getCtx, wlp_modifyCtx]
  refine ⟨fun _ => ⟨trivial, trivial⟩, fun _ => ?_⟩
  apply Cmd.wlp_mono ((follows_findPrimaryPlane keepsPlane_tracks keepsPlane_select).wlp_and
    (kms_unread findPrimaryPlane_steps m s))
  rintro planeId m₁ s₁ ⟨hk₁, hr₁⟩
  apply Cmd.wlp_mono ((follows_readHdr keepsPlane_tracks).wlp_and (readHdr_unread _ s₁))
  rintro _ m₂ s₂ ⟨hk₂, hr₂⟩
  have h : m₂.ctx.grabPlaneId = m.ctx.grabPlaneId ∧ s₂.read = s.read :=
    ⟨hk₂.grabPlane.trans hk₁.grabPlane, hr₂.trans hr₁⟩
  exact ⟨fun _ => h, fun _ => h⟩

theorem drmtapGrabMappedFast_plane (hs : s.read = false) :
    Cmd.wlp planeEnv (drmtapGrabMappedFast frame)
      (fun r m' s' => Names r.1 (m, s) (m', s')) m s := by
  have hnotsup : (- ENOTSUP : ℤ) ≠ 0 := by decide
  have hacces : (- EACCES : ℤ) ≠ 0 := by decide
  have hnodev : (- ENODEV : ℤ) ≠ 0 := by decide
  unfold drmtapGrabMappedFast readFastFb
  simp only [Cmd.wlp_bind, Cmd.wlp_ite, Cmd.wlp_pure, Cmd.wlp_call, wlp_getCtx]
  refine ⟨fun _ => ⟨fun h0 => absurd h0 hnotsup, fun _ => rfl⟩, fun _ =>
    ⟨fun _ => ⟨fun h0 => absurd h0 hacces, fun _ => rfl⟩, fun _ => ?_⟩⟩
  apply Cmd.wlp_mono startFast_plane
  rintro started m₁ s₁ ⟨hg, hr⟩
  refine ⟨fun _ => ⟨fun h0 => absurd h0 hnodev, fun _ => hg⟩, fun _ => ⟨trivial, ?_⟩⟩
  rintro plane s₂ rfl
  have hfast : OnFastPlane m₁ (s₁.note (.getPlane m₁.ctx.fastPlaneId) plane) := by
    simp [OnFastPlane, PlaneNote.note, hr, hs]
  have hcleanup : ∀ s₂, Cmd.wlp planeEnv drmtapFastCleanup
      (fun _ m' s' => Names (- ENODEV) (m, s) (m', s')) m₁ s₂ := fun s₂ =>
    Cmd.wlp_mono drmtapFastCleanup_plane fun _ _ _ h =>
      ⟨fun h0 => absurd h0 hnodev, fun _ => h.trans hg⟩
  cases plane with
  | none => exact ⟨fun _ => hcleanup _, fun h0 => absurd rfl h0⟩
  | some plane =>
    exact ⟨fun _ => hcleanup _, fun _ =>
      Cmd.wlp_mono (fastFrame_plane hfast) fun _ _ _ hn => hn.after hg⟩

end Fast

/-! Whole runs -/

/-- The calls on a context that hand out frames or look at its planes. -/
inductive PlaneCall where
  | grab (entry : GrabEntry) (frame : FrameInfo)
  | fast (frame : FrameInfo)
  | convert (desc : DmabufDesc) (frame : FrameInfo)
  | rotation
  | refresh
  | release (frame : FrameInfo)

/-- A call, and whether it returned a frame. -/
def PlaneCall.run : PlaneCall → M Bool
  | .grab entry frame => do
    let r ← entry.run frame
    pure (r.1 = 0)
  | .fast frame => do
    let r ← drmtapGrabMappedFast frame
    pure (r.1 = 0)
  | .convert desc frame => do
    let _ ← drmtapConvertDmabuf desc frame
    pure false
  | .rotation => do
    let _ ← drmtapPlaneRotation
    pure false
  | .refresh => do
    let _ ← drmtapCrtcRefresh
    pure false
  | .release frame => do
    let _ ← drmtapFrameRelease frame
    pure false

/-- What a call leaves: the plane it noted if it returned a frame, and the one before if not. -/
def Settles (x : Machine) (returned : Bool) (m' : Machine) (s' : PlaneNote) : Prop :=
  m'.ctx.grabPlaneId = if returned then s'.plane else x.ctx.grabPlaneId

section Runs
variable {m : Machine} {s : PlaneNote}

theorem Names.settles {ret : ℤ} {m' : Machine} {s' : PlaneNote}
    (h : Names ret (m, s) (m', s')) : Settles m (decide (ret = 0)) m' s' := by
  by_cases h0 : ret = 0
  · rw [Settles, decide_eq_true h0]
    exact h.success h0
  · rw [Settles, decide_eq_false h0]
    exact h.failure h0

theorem GrabEntry.run_plane (hs : s.read = false) (entry : GrabEntry) (frame : FrameInfo) :
    Cmd.wlp planeEnv (entry.run frame) (fun r m' s' => Names r.1 (m, s) (m', s')) m s := by
  cases entry with
  | grab => exact doGrab_plane hs
  | mapped => exact doGrab_plane hs
  | desc desc =>
    unfold GrabEntry.run
    rw [Cmd.wlp_bind]
    exact Cmd.wlp_mono (drmtapGrabDesc_plane hs desc) fun _ _ _ h => h

theorem PlaneCall.run_plane (hs : s.read = false) (call : PlaneCall) :
    Cmd.wlp planeEnv call.run (Settles m) m s := by
  have hkeeps : ∀ {α : Type} {c : M α}, Cmd.Follows planeEnv KeepsPlane c →
      Cmd.wlp planeEnv (c >>= fun _ => pure false) (Settles m) m s := by
    intro α c hc
    rw [Cmd.wlp_bind]
    exact Cmd.wlp_mono (hc m s) fun _ _ _ hk => hk.grabPlane
  cases call with
  | grab entry frame =>
    unfold PlaneCall.run
    rw [Cmd.wlp_bind]
    exact Cmd.wlp_mono (entry.run_plane hs frame) fun _ _ _ h => h.settles
  | fast frame =>
    unfold PlaneCall.run
    rw [Cmd.wlp_bind]
    exact Cmd.wlp_mono (drmtapGrabMappedFast_plane hs) fun _ _ _ h => h.settles
  | convert desc frame => exact hkeeps (follows_convertDmabuf keepsPlane_tracks desc frame)
  | rotation =>
    have hrot : ∀ (m : Machine) (c : Ctx) (s : PlaneNote), m.ctx.SameButRotation c →
        KeepsPlane (m, s) (⟨c, m.heap⟩, s) := by
      intro m c s h
      rw [show c = _ from h]
      exact ⟨rfl, rfl, fun _ => rfl⟩
    exact hkeeps (follows_planeRotation keepsPlane_tracks keepsPlane_select hrot)
  | refresh => exact hkeeps (follows_crtcRefresh keepsPlane_tracks keepsPlane_select)
  | release frame => exact hkeeps (follows_frameRelease keepsPlane_tracks frame)

end Runs

/-- One call on a context, with the plane of the last frame that was handed out. -/
inductive PlaneStep : Machine × UInt32 → Machine × UInt32 → Prop where
  | call {m m' : Machine} {last : UInt32} {call : PlaneCall} {returned : Bool} {seen : PlaneNote}
      (h : Cmd.Runs planeEnv call.run m .start returned m' seen) :
      PlaneStep (m, last) (m', if returned then seen.plane else last)

theorem PlaneStep.grabPlane {x y : Machine × UInt32} (h : PlaneStep x y)
    (hx : x.1.ctx.grabPlaneId = x.2) : y.1.ctx.grabPlaneId = y.2 := by
  cases h with
  | @call m m' last call returned seen h =>
    have hs : Settles m returned m' seen := Cmd.wlp_runs (call.run_plane rfl) h
    rw [Settles, show m.ctx.grabPlaneId = last from hx] at hs
    exact hs

/-- In every run, whatever fails in it, `grab_plane_id` is the plane of the last frame that was
handed out, and 0 before the first. -/
theorem grab_plane_names_last {m m' : Machine} {last : UInt32} (h0 : m.ctx.grabPlaneId = 0)
    (hrun : Relation.ReflTransGen PlaneStep (m, 0) (m', last)) : m'.ctx.grabPlaneId = last := by
  have hall : ∀ y, Relation.ReflTransGen PlaneStep (m, 0) y → y.1.ctx.grabPlaneId = y.2 := by
    intro y hy
    induction hy with
    | refl => exact h0
    | tail _ hstep ih => exact hstep.grabPlane ih
  exact hall _ hrun

theorem passedDevice_plane : ((PlaneCall.grab .mapped .cleared).run.exec 100
    (fun (s : PlaneNote) o => some (passedDevice o, s.note o (passedDevice o)))
      ⟨.opened "i915" 2, .empty⟩ PlaneNote.start).map (fun x => (x.1.1, x.2.plane)) = some (true, 1) := by
  decide +kernel

theorem grab_plane_names_last_passed : ∃ m',
    Relation.ReflTransGen PlaneStep (⟨.opened "i915" 2, .empty⟩, 0) (m', 1) ∧
      m'.ctx.grabPlaneId = 1 := by
  obtain ⟨⟨⟨returned, m'⟩, seen⟩, he, heq⟩ := Option.map_eq_some_iff.mp passedDevice_plane
  obtain ⟨hret, hplane⟩ : returned = true ∧ seen.plane = 1 := by simpa using heq
  have hruns : Cmd.Runs planeEnv (PlaneCall.grab .mapped .cleared).run ⟨.opened "i915" 2, .empty⟩
      .start returned m' seen := by
    refine Cmd.exec_runs (E := planeEnv) ?_ he
    intro s o r s' hs
    obtain ⟨rfl, rfl⟩ := Prod.mk.inj (Option.some.inj hs)
    rfl
  have hrun := Relation.ReflTransGen.single (@PlaneStep.call _ _ 0 _ _ _ hruns)
  rw [hret, if_pos rfl, hplane] at hrun
  exact ⟨m', hrun, grab_plane_names_last rfl hrun⟩

end Drmtap
