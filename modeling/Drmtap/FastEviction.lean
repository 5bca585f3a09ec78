import Drmtap.Lib.Replacement
import Drmtap.FastRuns
import Drmtap.Footprint

/-! Which entry the fast path gives up when its slots are all taken. -/
namespace Drmtap

open Memory Effect

/-- The framebuffers of the slots. -/
def Ctx.cachedFbs (c : Ctx) : Fin (2 + 2) → UInt32 := fun i => (c.fastSlots i).fbId

/-- Every framebuffer can be read, exported and mapped. -/
def CanAcquire : (o : Op) → Ans o → Prop
  | .getFB2 _, r => ∃ fb2 : Fb2, r = .ok fb2 ∧ fb2.handles 0 ≠ 0 ∧
      checkGeometry fb2.width fb2.height (fb2.pitches 0) = 0
  | .primeHandleToFD _, r => ∃ fd, r = .ok fd
  | .mmap (.fd _) _ _, r => ∃ g, r = .ok g
  | .forceMmapFail, r => r = false
  | _, _ => True

abbrev acquiringEnv : Env := .only (fun _ => True) CanAcquire

/-- The slots are of the same framebuffers. -/
structure KeepsFbs (x y : Machine × Unit) : Prop where
  fbs : y.1.ctx.cachedFbs = x.1.ctx.cachedFbs
  initialized : y.1.ctx.fastInitialized = x.1.ctx.fastInitialized
  noCpuMap : y.1.ctx.fastNoCpuMap = x.1.ctx.fastNoCpuMap

instance : IsPreorder (Machine × Unit) KeepsFbs where
  refl _ := ⟨rfl, rfl, rfl⟩
  trans _ _ _ h₁ h₂ := ⟨h₂.fbs.trans h₁.fbs, h₂.initialized.trans h₁.initialized,
    h₂.noCpuMap.trans h₁.noCpuMap⟩

theorem keepsFbs_tracks : Tracks Unprobing acquiringEnv KeepsFbs where
  beside _ h := h.unprobing
  legal _ _ _ := trivial
  call _ _ _ _ _ _ _ := ⟨rfl, rfl, rfl⟩
  untouched _ _ _ h := ⟨by unfold Ctx.cachedFbs; rw [h.slots], h.initialized, h.noCpuMap⟩

theorem keepsFbs_select : Cmd.Follows acquiringEnv KeepsFbs selectFirstActiveCrtc :=
  follows_select keepsFbs_tracks fun _ _ _ => ⟨rfl, rfl, rfl⟩

theorem Ctx.cachedFbs_setSlot (c : Ctx) (i : SlotId) (slot : FastSlot) :
    (c.setSlot i slot).cachedFbs = Function.update c.cachedFbs i slot.fbId := by
  funext j
  by_cases hj : j = i
  · subst hj
    simp [cachedFbs, Ctx.setSlot]
  · simp [cachedFbs, Ctx.setSlot, hj]

section Operations
variable {m : Machine} {s : Unit} {fbId : UInt32}

/-- A slot is replaced by one of the same framebuffer. -/
theorem keepsFbs_setSlot {i : SlotId} {slot : FastSlot}
    (h : slot.fbId = (m.ctx.fastSlots i).fbId) :
    KeepsFbs (m, s) (⟨m.ctx.setSlot i slot, m.heap⟩, s) := by
  refine ⟨?_, rfl, rfl⟩
  rw [Ctx.cachedFbs_setSlot, h]
  exact Function.update_eq_self i m.ctx.cachedFbs

theorem keepsFbs_closeWindow (i : SlotId) : Cmd.Follows acquiringEnv KeepsFbs (closeWindow i) := by
  intro m s
  unfold closeWindow getSlot setSlot
  simp only [Cmd.wlp_bind, Cmd.wlp_pure, wlp_getCtx, Cmd.wlp_ite, wlp_modifyCtx, Cmd.wlp_call]
  exact ⟨fun _ => ⟨trivial, fun _ _ _ => keepsFbs_setSlot rfl⟩, fun _ => keepsFbs_setSlot rfl⟩

theorem keepsFbs_syncClose : Cmd.Follows acquiringEnv KeepsFbs fastSyncClose :=
  follows_forSlots keepsFbs_closeWindow _

theorem keepsFbs_refresh (i : SlotId) : Cmd.Follows acquiringEnv KeepsFbs (refreshSlot i) := by
  have hbegin : Cmd.Follows acquiringEnv KeepsFbs (fastSyncBegin i) := by
    apply Cmd.Follows.bind keepsFbs_syncClose
    intro _ m s
    unfold getSlot setSlot
    simp only [Cmd.wlp_bind, Cmd.wlp_pure, wlp_getCtx, Cmd.wlp_ite, wlp_modifyCtx, Cmd.wlp_call]
    refine ⟨fun _ => ⟨trivial, fun started s' _ => keepsFbs_setSlot rfl⟩, fun _ => ?_⟩
    exact refl_of KeepsFbs (m, s)
  refine .bind follows_getCtx fun ctx => .ite (.bind (.bind (follows_sys keepsFbs_tracks id) ?_) ?_) ?_
  · rintro (_ | e)
    · exact follows_sys keepsFbs_tracks id
    · exact .pure _
  · rintro (_ | e)
    · exact .bind keepsFbs_syncClose fun _ => .pure _
    · exact .pure _
  · exact .bind hbegin fun _ => .pure _

/-- The frame of a slot comes from the plane of the fast path. -/
theorem keepsFbs_process (frame : FrameInfo) :
    Cmd.Follows acquiringEnv KeepsFbs (processFast frame) := by
  refine .bind (follows_autoProcess keepsFbs_tracks _ _ _ _) fun r => .ite (.pure _) ?_
  refine .bind follows_getCtx fun ctx => .bind (.modify ?_) fun _ => .pure _
  exact fun _ _ => ⟨rfl, rfl, rfl⟩

theorem keepsFbs_show (i : SlotId) (fbId : UInt32) :
    Cmd.Follows acquiringEnv KeepsFbs (showSlot i fbId) := by
  refine .bind (follows_getSlot i) fun slot => .bind (.modify ?_) fun _ => keepsFbs_process _
  exact fun _ _ => ⟨rfl, rfl, rfl⟩

/-! Slots that are given up -/

/-- One slot is of another framebuffer, or free. -/
structure SetsFb (i : SlotId) (fbId : UInt32) (x y : Machine × Unit) : Prop where
  fbs : y.1.ctx.cachedFbs = Function.update x.1.ctx.cachedFbs i fbId
  initialized : y.1.ctx.fastInitialized = x.1.ctx.fastInitialized
  noCpuMap : y.1.ctx.fastNoCpuMap = x.1.ctx.fastNoCpuMap

theorem SetsFb.of_setSlot (m : Machine) (i : SlotId) (slot : FastSlot) :
    SetsFb i slot.fbId (m, s) (⟨m.ctx.setSlot i slot, m.heap⟩, s) :=
  ⟨m.ctx.cachedFbs_setSlot i slot, rfl, rfl⟩

theorem SetsFb.after {i : SlotId} {x y z : Machine × Unit} (h : SetsFb i fbId y z)
    (hk : KeepsFbs x y) : SetsFb i fbId x z :=
  ⟨by rw [h.fbs, hk.fbs], h.initialized.trans hk.initialized, h.noCpuMap.trans hk.noCpuMap⟩

theorem SetsFb.keeps {i : SlotId} {x y z : Machine × Unit} (h : SetsFb i fbId x y)
    (hk : KeepsFbs y z) : SetsFb i fbId x z :=
  ⟨by rw [hk.fbs, h.fbs], hk.initialized.trans h.initialized, hk.noCpuMap.trans h.noCpuMap⟩

/-- The last framebuffer that was put into a slot stands. -/
theorem SetsFb.again {i : SlotId} {id : UInt32} {x y z : Machine × Unit} (h : SetsFb i id x y)
    (h' : SetsFb i fbId y z) : SetsFb i fbId x z :=
  ⟨by rw [h'.fbs, h.fbs, Function.update_idem], h'.initialized.trans h.initialized,
    h'.noCpuMap.trans h.noCpuMap⟩

theorem dropSlot_fbs (i : SlotId) :
    Cmd.wlp acquiringEnv (dropSlot i) (fun _ m' s' => SetsFb i 0 (m, s) (m', s')) m s := by
  have hunmap (slot : FastSlot) : Cmd.Follows acquiringEnv KeepsFbs (unmapSlot slot) := by
    unfold unmapSlot
    cases slot.mmapPtr with
    | none => exact .pure ()
    | some mapped => exact follows_munmap keepsFbs_tracks _
  unfold dropSlot getSlot
  simp only [Cmd.wlp_bind, Cmd.wlp_pure, wlp_getCtx]
  apply Cmd.wlp_mono (hunmap _ m s)
  intro _ m₁ s₁ h₁
  apply Cmd.wlp_mono (follows_closeFd keepsFbs_tracks _ m₁ s₁)
  intro _ m₂ s₂ h₂
  apply Cmd.wlp_mono (follows_gemClose keepsFbs_tracks _ m₂ s₂)
  intro _ m₃ s₃ h₃
  have hk := trans_of KeepsFbs (trans_of KeepsFbs h₁ h₂) h₃
  exact (SetsFb.of_setSlot m₃ i .empty).after hk

theorem evictSlot_fbs : Cmd.wlp acquiringEnv evictSlot
    (fun i m' s' => i = 0 ∧ SetsFb 0 0 (m, s) (m', s')) m s := by
  unfold evictSlot getSlot setSlot
  simp only [Cmd.wlp_bind, Cmd.wlp_pure, wlp_getCtx, Cmd.wlp_ite, wlp_modifyCtx, Cmd.wlp_call]
  refine ⟨fun _ => ⟨trivial, fun _ s' _ => ?_⟩, fun _ => ?_⟩
  · apply Cmd.wlp_mono (dropSlot_fbs 0)
    exact fun _ _ _ h => ⟨trivial, h.after (keepsFbs_setSlot rfl)⟩
  · apply Cmd.wlp_mono (dropSlot_fbs 0)
    exact fun _ _ _ h => ⟨trivial, h⟩

theorem forSlots_drop (l : List SlotId) :
    Cmd.wlp acquiringEnv (forSlots dropSlot l) (fun _ m' _ =>
      (∀ j, j ∈ l ∨ m.ctx.cachedFbs j = 0 → m'.ctx.cachedFbs j = 0) ∧
        m'.ctx.fastNoCpuMap = m.ctx.fastNoCpuMap) m s := by
  induction l generalizing m s with
  | nil => exact ⟨fun j hj => hj.resolve_left (by simp), rfl⟩
  | cons i l ih =>
    rw [forSlots, Cmd.wlp_bind]
    apply Cmd.wlp_mono (dropSlot_fbs i)
    intro _ m₁ s₁ h₁
    apply Cmd.wlp_mono ih
    rintro _ m₂ _ ⟨hzero, hmap⟩
    refine ⟨fun j hj => hzero j ?_, hmap.trans h₁.noCpuMap⟩
    rw [h₁.fbs]
    by_cases hji : j = i
    · subst hji
      simp
    · rw [Function.update_of_ne hji]
      exact hj.imp_left fun h => (List.mem_cons.mp h).resolve_left hji

theorem drmtapFastCleanup_fbs :
    Cmd.wlp acquiringEnv drmtapFastCleanup (fun _ m' _ =>
      m'.ctx.cachedFbs = 0 ∧ m'.ctx.fastNoCpuMap = false) m s := by
  unfold drmtapFastCleanup
  simp only [Cmd.wlp_bind, wlp_modifyCtx]
  apply Cmd.wlp_mono (keepsFbs_syncClose m s)
  intro _ m₁ s₁ _
  apply Cmd.wlp_mono (forSlots_drop _)
  rintro _ m₂ _ ⟨hzero, -⟩
  exact ⟨funext fun j => hzero j (.inl (List.mem_finRange j)), rfl⟩

/-- Where a new framebuffer goes: to the first free slot, or to slot 0, which is given up. -/
inductive Allocates (fbId : UInt32) (x : Machine × Unit) (i : SlotId) (y : Machine × Unit) : Prop where
  | cached (hi : x.1.ctx.cachedFbs i = fbId) (hk : KeepsFbs x y)
  | free (hnew : ∀ j, x.1.ctx.cachedFbs j ≠ fbId) (hfree : x.1.ctx.cachedFbs i = 0)
      (hfirst : ∀ j < i, x.1.ctx.cachedFbs j ≠ 0) (hk : KeepsFbs x y)
  | evicted (hnew : ∀ j, x.1.ctx.cachedFbs j ≠ fbId) (hi : i = 0)
      (hfull : ∀ j, x.1.ctx.cachedFbs j ≠ 0) (hk : SetsFb 0 0 x y)

theorem Ctx.findSlot_first {c : Ctx} {p : FastSlot → Bool} {i : SlotId}
    (h : c.findSlot p = some i) {j : SlotId} (hj : j < i) : p (c.fastSlots j) = false := by
  obtain ⟨-, k, hk, hget, hbefore⟩ := List.find?_eq_some_iff_getElem.mp h
  have hki : k = i.val := by
    rw [List.getElem_finRange] at hget
    exact congrArg Fin.val hget
  have hlen : j.val < k := by
    rw [hki]
    exact hj
  have hp := hbefore j.val hlen
  rw [List.getElem_finRange] at hp
  simpa using hp

theorem findOrAllocSlot_fbs : Cmd.wlp acquiringEnv (findOrAllocSlot fbId)
    (fun i m' s' => Allocates fbId (m, s) i (m', s')) m s := by
  unfold findOrAllocSlot
  rw [Cmd.wlp_bind, wlp_getCtx]
  cases hfind : m.ctx.findSlot fun slot => slot.fbId = fbId with
  | some i =>
    have hi : m.ctx.cachedFbs i = fbId := by simpa [Ctx.cachedFbs] using Ctx.findSlot_eq_some hfind
    exact .cached hi (refl_of KeepsFbs (m, s))
  | none =>
    have hnew (j : SlotId) : m.ctx.cachedFbs j ≠ fbId := by
      simpa [Ctx.cachedFbs] using Ctx.findSlot_eq_none hfind j
    cases hfree : m.ctx.findSlot fun slot => slot.fbId = 0 with
    | some i =>
      have hi : m.ctx.cachedFbs i = 0 := by simpa [Ctx.cachedFbs] using Ctx.findSlot_eq_some hfree
      refine .free hnew hi (fun j hj => ?_) (refl_of KeepsFbs (m, s))
      simpa [Ctx.cachedFbs] using Ctx.findSlot_first hfree hj
    | none =>
      have hfull (j : SlotId) : m.ctx.cachedFbs j ≠ 0 := by
        simpa [Ctx.cachedFbs] using Ctx.findSlot_eq_none hfree j
      apply Cmd.wlp_mono evictSlot_fbs
      exact fun i m' s' h => .evicted hnew h.1 hfull h.2

end Operations

/-! A framebuffer that is stored -/

section Stores
variable {m : Machine} {s : Unit} {i : SlotId} {fbId : UInt32} {fb2 : Fb2} {primeFd : ℤ}
  {frame : FrameInfo}

theorem mapFast_fbs (hmap : m.ctx.fastNoCpuMap = false) :
    Cmd.wlp acquiringEnv (mapFast fb2 primeFd) (fun r m' s' => (∃ mapped, r.1 = some mapped) ∧
      KeepsFbs (m, s) (m', s')) m s := by
  unfold mapFast
  rw [Cmd.wlp_bind]
  apply Cmd.wlp_mono (follows_mapVirtio keepsFbs_tracks fb2 _ m s)
  rintro (_ | mapped) m₁ s₁ hk
  · simp only [Cmd.wlp_bind, Cmd.wlp_pure, wlp_getCtx, Cmd.wlp_ite, Cmd.wlp_call, wlp_mmap]
    refine ⟨fun h => ?_, fun _ => ⟨trivial, ?_⟩⟩
    · rw [hk.noCpuMap, hmap] at h
      cases h
    · intro started s₂ _
      refine ⟨trivial, ?_, ?_⟩
      · rintro e s₃ ⟨-, g, ⟨⟩⟩
      · rintro g s₃ -
        refine ⟨trivial, ?_⟩
        rintro force s₄ ⟨-, rfl⟩
        exact ⟨fun h => absurd h (by decide), fun _ => ⟨⟨_, rfl⟩, hk.fbs, hk.initialized, hk.noCpuMap⟩⟩
  · exact ⟨⟨mapped, rfl⟩, hk⟩

theorem storeSlot_fbs {mapped : Slice} {started : Bool} :
    Cmd.wlp acquiringEnv (storeSlot i fb2 fbId primeFd mapped started)
      (fun _ m' s' => SetsFb i fbId (m, s) (m', s')) m s := by
  unfold storeSlot setSlot
  simp only [Cmd.wlp_bind, wlp_getCtx, wlp_modifyCtx]
  apply Cmd.wlp_mono (follows_scanoutWidth keepsFbs_tracks keepsFbs_select _ _ m s)
  intro width m₁ s₁ hk
  refine Cmd.wlp_mono (keepsFbs_process _ _ s₁) ?_
  intro r m₂ s₂ hk₂
  refine SetsFb.after (y := (m₁, s₁)) ?_ hk
  exact (SetsFb.of_setSlot m₁ i _).keeps ⟨hk₂.fbs, hk₂.initialized, hk₂.noCpuMap⟩

theorem fastMiss_fbs (hmap : m.ctx.fastNoCpuMap = false) :
    Cmd.wlp acquiringEnv (fastMiss i fbId frame)
      (fun _ m' s' => SetsFb i fbId (m, s) (m', s')) m s := by
  unfold fastMiss
  rw [Cmd.wlp_bind, Cmd.wlp_call]
  refine ⟨trivial, ?_⟩
  rintro _ s₁ ⟨-, fb2, rfl, hhandle, hgeometry⟩
  simp only [hhandle, hgeometry, if_false, ne_eq, not_true_eq_false, Cmd.wlp_bind, wlp_modifyCtx,
    Cmd.wlp_call]
  apply Cmd.wlp_mono (follows_closeAuxiliary keepsFbs_tracks fb2 m s₁)
  intro _ m₂ s₂ hk₂
  refine ⟨trivial, ?_⟩
  rintro _ s₃ ⟨-, primeFd, rfl⟩
  unfold fastExported
  rw [Cmd.wlp_bind]
  have hmap₂ : (m₂.ctx.stageFb2 fb2).fastNoCpuMap = false := hk₂.noCpuMap.trans hmap
  apply Cmd.wlp_mono (mapFast_fbs (m := ⟨m₂.ctx.stageFb2 fb2, m₂.heap⟩) hmap₂)
  rintro ⟨_, started⟩ m₄ s₄ ⟨⟨mapped, rfl⟩, hk₄⟩
  have hk : KeepsFbs (m, s) (m₄, s₄) :=
    trans_of KeepsFbs hk₂ (⟨hk₄.fbs, hk₄.initialized, hk₄.noCpuMap⟩ : KeepsFbs (m₂, s₂) (m₄, s₄))
  exact Cmd.wlp_mono storeSlot_fbs fun _ _ _ h => h.after hk

/-! The grab -/

/-- The context between two calls: mappings work, and a cache that was not started is empty. -/
structure Ctx.CacheReady (c : Ctx) : Prop where
  noCpuMap : c.fastNoCpuMap = false
  idle : c.fastInitialized = false → c.cachedFbs = 0

/-- What a call does to the cache. -/
structure KeepsCache (m m' : Machine) : Prop where
  step : Replacement.Step m.ctx.cachedFbs m'.ctx.cachedFbs
  ready : m'.ctx.CacheReady

theorem KeepsCache.of_keeps {x y : Machine × Unit} (h : KeepsFbs x y) (hx : x.1.ctx.CacheReady) :
    KeepsCache x.1 y.1 := by
  refine ⟨?_, h.noCpuMap.trans hx.noCpuMap, fun hinit => ?_⟩
  · rw [h.fbs]
    exact .kept
  · rw [h.fbs]
    exact hx.idle (h.initialized ▸ hinit)

theorem KeepsCache.of_zero (m : Machine) {m' : Machine} (h : m'.ctx.cachedFbs = 0)
    (hmap : m'.ctx.fastNoCpuMap = false) : KeepsCache m m' := by
  refine ⟨?_, hmap, fun _ => h⟩
  rw [h]
  exact .emptied

theorem KeepsCache.after {x y z : Machine × Unit} (h : KeepsCache y.1 z.1) (hk : KeepsFbs x y) :
    KeepsCache x.1 z.1 := by
  refine ⟨?_, h.ready⟩
  rw [← hk.fbs]
  exact h.step

theorem keepsFbs_hit (i : SlotId) (fbId : UInt32) (frame : FrameInfo) :
    Cmd.Follows acquiringEnv KeepsFbs (fastHit i fbId frame) := by
  apply Cmd.Follows.bind (keepsFbs_refresh i)
  rintro (_ | e)
  · exact .bind (.modify fun _ _ => ⟨rfl, rfl, rfl⟩) fun _ => keepsFbs_show i fbId
  · exact .pure _

/-- A buffer that is in none of the slots is stored. -/
theorem fastMiss_caches {x y : Machine × Unit} (hx : x.1.ctx.CacheReady)
    (hinit : x.1.ctx.fastInitialized = true) (h0 : fbId ≠ 0) (ha : Allocates fbId x i y) :
    Cmd.wlp acquiringEnv (fastMiss i fbId frame) (fun _ m' _ => KeepsCache x.1 m') y.1 y.2 := by
  have hdone : ∀ {m' : Machine} {s' : Unit}, SetsFb i fbId x (m', s') →
      Replacement.Step x.1.ctx.cachedFbs (Function.update x.1.ctx.cachedFbs i fbId) →
        KeepsCache x.1 m' := by
    intro m' s' h hstep
    refine ⟨?_, h.noCpuMap.trans hx.noCpuMap, fun hnot => ?_⟩
    · rw [show m'.ctx.cachedFbs = _ from h.fbs]
      exact hstep
    · rw [show m'.ctx.fastInitialized = _ from h.initialized, hinit] at hnot
      cases hnot
  cases ha with
  | cached hi hk =>
    apply Cmd.wlp_mono (fastMiss_fbs (hk.noCpuMap.trans hx.noCpuMap))
    intro _ m' s' h
    apply hdone (h.after hk)
    rw [← hi, Function.update_eq_self]
    exact .kept
  | free hnew hfree hfirst hk =>
    apply Cmd.wlp_mono (fastMiss_fbs (hk.noCpuMap.trans hx.noCpuMap))
    intro _ m' s' h
    exact hdone (h.after hk) (.filled h0 hnew hfree hfirst)
  | evicted hnew hi hfull hk =>
    subst hi
    apply Cmd.wlp_mono (fastMiss_fbs (hk.noCpuMap.trans hx.noCpuMap))
    intro _ m' s' h
    exact hdone (hk.again h) (.evicted h0 hnew hfull)

theorem fastFlip_caches (hm : m.ctx.CacheReady) (hinit : m.ctx.fastInitialized = true)
    (h0 : fbId ≠ 0) :
    Cmd.wlp acquiringEnv (fastFlip fbId frame) (fun _ m' _ => KeepsCache m m') m s := by
  unfold fastFlip getSlot
  simp only [Cmd.wlp_bind, Cmd.wlp_ite, Cmd.wlp_pure, wlp_getCtx]
  apply Cmd.wlp_mono (keepsFbs_syncClose m s)
  intro _ m₁ s₁ hk₁
  have hm₁ : KeepsCache m m₁ := .of_keeps hk₁ hm
  have hinit₁ : m₁.ctx.fastInitialized = true := hk₁.initialized.trans hinit
  apply Cmd.wlp_mono findOrAllocSlot_fbs
  intro i m₂ s₂ ha
  constructor
  · intro hcaches
    have hid : m₂.ctx.cachedFbs i = fbId := (FastSlot.caches_iff.mp hcaches).1
    have hk₂ : KeepsFbs (m₁, s₁) (m₂, s₂) := by
      cases ha with
      | cached _ hk => exact hk
      | free _ _ _ hk => exact hk
      | evicted _ hi _ hk =>
        subst hi
        rw [show m₂.ctx.cachedFbs = _ from hk.fbs, Function.update_self] at hid
        exact absurd hid.symm h0
    apply Cmd.wlp_mono (keepsFbs_hit i fbId frame m₂ s₂)
    intro _ m₃ s₃ hk₃
    exact .of_keeps (trans_of KeepsFbs (trans_of KeepsFbs hk₁ hk₂) hk₃) hm
  · intro _
    apply Cmd.wlp_mono (fastMiss_caches hm₁.ready hinit₁ h0 ha)
    exact fun _ _ s₃ h => KeepsCache.after (z := (_, s₃)) h hk₁

theorem fastFrame_caches (hm : m.ctx.CacheReady) (hinit : m.ctx.fastInitialized = true)
    (h0 : fbId ≠ 0) :
    Cmd.wlp acquiringEnv (fastFrame fbId frame) (fun _ m' _ => KeepsCache m m') m s := by
  unfold fastFrame
  rw [Cmd.wlp_bind, wlp_getCtx]
  cases m.ctx.lastSlot fbId with
  | none => exact fastFlip_caches hm hinit h0
  | some i =>
    have hsame : Cmd.Follows acquiringEnv KeepsFbs (fastSame i fbId frame) := by
      apply Cmd.Follows.bind (keepsFbs_refresh i)
      rintro (_ | e)
      · exact keepsFbs_show i fbId
      · exact .pure _
    exact Cmd.wlp_mono (hsame m s) fun _ _ _ hk => .of_keeps hk hm

/-- The cache of a plane starts empty. -/
theorem startFast_caches (hm : m.ctx.CacheReady) :
    Cmd.wlp acquiringEnv startFast (fun started m' _ =>
      (m'.ctx.cachedFbs = m.ctx.cachedFbs ∧ m'.ctx.CacheReady) ∧
        (started = true → m'.ctx.fastInitialized = true)) m s := by
  unfold startFast
  simp only [Cmd.wlp_bind, Cmd.wlp_ite, Cmd.wlp_pure, wlp_getCtx, wlp_modifyCtx]
  refine ⟨fun hinit => ⟨⟨trivial, hm⟩, fun _ => hinit⟩, fun hinit => ?_⟩
  apply Cmd.wlp_mono (follows_findPrimaryPlane keepsFbs_tracks keepsFbs_select m s)
  intro planeId m₁ s₁ hk₁
  apply Cmd.wlp_mono (follows_readHdr keepsFbs_tracks ⟨m₁.ctx.setFastPlane planeId, m₁.heap⟩ s₁)
  intro _ m₂ s₂ hk₂
  have hk : KeepsFbs (m, s) (m₂, s₂) := trans_of KeepsFbs hk₁
    (⟨hk₂.fbs, hk₂.initialized, hk₂.noCpuMap⟩ : KeepsFbs (m₁, s₁) (m₂, s₂))
  have hready : m₂.ctx.CacheReady := (KeepsCache.of_keeps hk hm).ready
  have hzero : m.ctx.cachedFbs = 0 := hm.idle (by simpa using hinit)
  refine ⟨fun _ => ⟨⟨hk.fbs, hready⟩, by simp⟩, fun _ => ⟨⟨?_, rfl, fun h => ?_⟩, fun _ => rfl⟩⟩
  · rw [hzero]
    rfl
  · cases h

theorem drmtapGrabMappedFast_caches (hm : m.ctx.CacheReady) :
    Cmd.wlp acquiringEnv (drmtapGrabMappedFast frame) (fun _ m' _ => KeepsCache m m') m s := by
  have hkept : KeepsCache m m := .of_keeps (refl_of KeepsFbs (m, s)) hm
  unfold drmtapGrabMappedFast
  simp only [Cmd.wlp_bind, Cmd.wlp_ite, Cmd.wlp_pure, wlp_getCtx]
  refine ⟨fun _ => hkept, fun _ => ⟨fun _ => hkept, fun _ => ?_⟩⟩
  apply Cmd.wlp_mono (startFast_caches hm)
  rintro started m₁ s₁ ⟨⟨hfbs, hready⟩, hinit⟩
  have hsame : KeepsCache m m₁ := by
    refine ⟨?_, hready⟩
    rw [hfbs]
    exact .kept
  have hafter : ∀ {m' : Machine}, KeepsCache m₁ m' → KeepsCache m m' := by
    intro m' h
    refine ⟨?_, h.ready⟩
    rw [← hfbs]
    exact h.step
  refine ⟨fun _ => hsame, fun hstarted => ?_⟩
  have hinit₁ := hinit (by simpa using hstarted)
  apply Cmd.wlp_mono (follows_readFastFb keepsFbs_tracks m₁ s₁)
  intro fbId m₂ s₂ hk₂
  have hready₂ : m₂.ctx.CacheReady := (KeepsCache.of_keeps hk₂ hready).ready
  refine ⟨fun _ => ?_, fun h0 => ?_⟩
  · apply Cmd.wlp_mono drmtapFastCleanup_fbs
    exact fun _ _ _ h => .of_zero m h.1 h.2
  · apply Cmd.wlp_mono (fastFrame_caches hready₂ (hk₂.initialized.trans hinit₁) h0)
    exact fun _ _ s₃ h => hafter (KeepsCache.after (z := (_, s₃)) h hk₂)

theorem FastCall.run_caches (call : FastCall) (hm : m.ctx.CacheReady) :
    Cmd.wlp acquiringEnv call.run (fun _ m' _ => KeepsCache m m') m s := by
  cases call with
  | grab frame =>
    unfold FastCall.run
    rw [Cmd.wlp_bind]
    exact drmtapGrabMappedFast_caches hm
  | cleanup => exact Cmd.wlp_mono drmtapFastCleanup_fbs fun _ _ _ h => .of_zero m h.1 h.2

end Stores

/-! Whole runs -/

/-- One call on the fast path, with the order in which the cached entries were stored. -/
inductive CacheRun :
    Machine × Replacement.History 2 → Machine × Replacement.History 2 → Prop where
  | call {m m' : Machine} {h : Replacement.History 2} {call : FastCall}
      (hr : Cmd.Runs acquiringEnv call.run m () () m' ()) :
      CacheRun (m, h) (m', h.after m.ctx.cachedFbs m'.ctx.cachedFbs)

/-- The cache and the order of its entries between two calls. -/
structure CacheAged (x : Machine × Replacement.History 2) : Prop where
  aged : Replacement.Aged x.1.ctx.cachedFbs x.2
  ready : x.1.ctx.CacheReady

theorem CacheRun.aged {x y : Machine × Replacement.History 2} (h : CacheRun x y)
    (hx : CacheAged x) : CacheAged y := by
  cases h with
  | call hr =>
    have hc := Cmd.wlp_runs (FastCall.run_caches _ hx.ready) hr
    exact ⟨hc.step.aged hx.aged, hc.ready⟩

theorem cacheAged_of_run {m : Machine} (hempty : m.ctx.cachedFbs = 0)
    (hmap : m.ctx.fastNoCpuMap = false) {y : Machine × Replacement.History 2}
    (hrun : Relation.ReflTransGen CacheRun (m, .start) y) : CacheAged y := by
  induction hrun with
  | refl => exact ⟨.start fun i => congrFun hempty i, hmap, fun _ => hempty⟩
  | tail _ hstep ih => exact hstep.aged ih

/-- In every run in which each framebuffer can be acquired, the entry that a call gives up for
another is the oldest one if the entries stored since the cache was empty are just those that it
holds, and only then. -/
theorem fast_evicts_oldest_iff {m m₁ m' : Machine} {h : Replacement.History 2} {call : FastCall}
    {i : SlotId} (hempty : m.ctx.cachedFbs = 0) (hmap : m.ctx.fastNoCpuMap = false)
    (hrun : Relation.ReflTransGen CacheRun (m, .start) (m₁, h))
    (hr : Cmd.Runs acquiringEnv call.run m₁ () () m' ())
    (hi : Replacement.Evicts m₁.ctx.cachedFbs m'.ctx.cachedFbs i) :
    h.order.head? = some i ↔ h.stores = drmtapFastSlots := by
  have hm₁ := cacheAged_of_run hempty hmap hrun
  have hc := Cmd.wlp_runs (FastCall.run_caches call hm₁.ready) hr
  exact hm₁.aged.evicts_oldest_iff hc.step hi

/-! Framebuffers that come up in turn -/

/-- `fbId` is on the plane, and can be acquired. -/
def flipDevice (fbId : UInt32) : Device
  | .getPlaneResources => .ok [1]
  | .getPlane _ => some ⟨1, 2, fbId⟩
  | .getFB2 _ => .ok
    { width := 1, height := 1, pixelFormat := fmtXR24, modifier := 0, hasModifiers := true
      handles := fun _ => 9, pitches := fun _ => 4, offsets := fun _ => 0 }
  | .primeHandleToFD _ => .ok 7
  | .mmap _ _ _ => .ok fun _ => 0
  | o => Device.blank o

theorem flipDevice_acquires (fbId : UInt32) (o : Op) : CanAcquire o (flipDevice fbId o) := by
  cases o with
  | getFB2 id => exact ⟨_, rfl, by decide, by decide⟩
  | primeHandleToFD handle => exact ⟨7, rfl⟩
  | mmap src size off =>
    cases src with
    | fd fd => exact ⟨_, rfl⟩
    | drm => trivial
  | forceMmapFail => rfl
  | _ => trivial

def flip (fbId : UInt32) (m : Machine) : Option Machine :=
  ((FastCall.grab .cleared).run.exec 100 (Cmd.still (flipDevice fbId)) m ()).map (·.1.2)

theorem flip_runs {fbId : UInt32} {m m' : Machine} (h : flip fbId m = some m') :
    Cmd.Runs acquiringEnv (FastCall.grab .cleared).run m () () m' () := by
  obtain ⟨⟨⟨_, m₁⟩, _⟩, he, rfl⟩ := Option.map_eq_some_iff.mp h
  refine Cmd.exec_runs (E := acquiringEnv) ?_ he
  rintro _ o r _ ⟨⟩
  exact ⟨trivial, flipDevice_acquires fbId o⟩

def flips : List UInt32 → Machine × Replacement.History 2 →
    Option (Machine × Replacement.History 2)
  | [], x => some x
  | fbId :: fbIds, x => (flip fbId x.1).bind fun m' =>
    flips fbIds (m', x.2.after x.1.ctx.cachedFbs m'.ctx.cachedFbs)

theorem flips_run {fbIds : List UInt32} {x y : Machine × Replacement.History 2}
    (h : flips fbIds x = some y) : Relation.ReflTransGen CacheRun x y := by
  induction fbIds generalizing x with
  | nil =>
    cases h
    exact .refl
  | cons fbId fbIds ih =>
    obtain ⟨m', hflip, hrest⟩ := Option.bind_eq_some_iff.mp h
    exact .head (.call (flip_runs hflip)) (ih hrest)

def flipStart : Machine := ⟨.opened "i915" 2, .empty⟩

/-- The history after some flips, and what slot 0 holds before and after another. -/
def flipOldest (fbIds : List UInt32) (fbId : UInt32) :
    Option (Replacement.History 2 × UInt32 × UInt32) :=
  (flips fbIds (flipStart, .start)).bind fun y => (flip fbId y.1).map fun m' =>
    (y.2, y.1.ctx.cachedFbs 0, m'.ctx.cachedFbs 0)

theorem flipOldest_runs {fbIds : List UInt32} {fbId old new : UInt32} {h : Replacement.History 2}
    (he : flipOldest fbIds fbId = some (h, old, new)) : ∃ m₁ m',
      Relation.ReflTransGen CacheRun (flipStart, .start) (m₁, h) ∧
      Cmd.Runs acquiringEnv (FastCall.grab .cleared).run m₁ () () m' () ∧
      m₁.ctx.cachedFbs 0 = old ∧ m'.ctx.cachedFbs 0 = new := by
  obtain ⟨⟨m₁, h₁⟩, hflips, hrest⟩ := Option.bind_eq_some_iff.mp he
  obtain ⟨m', hflip, heq⟩ := Option.map_eq_some_iff.mp hrest
  obtain ⟨rfl, hold, hnew⟩ : h₁ = h ∧ m₁.ctx.cachedFbs 0 = old ∧ m'.ctx.cachedFbs 0 = new := by
    simpa using heq
  exact ⟨m₁, m', flips_run hflips, flip_runs hflip, hold, hnew⟩

theorem flipOldest_fifth : flipOldest [1, 2, 3, 4] 5 = some (⟨[0, 1, 2, 3], 4⟩, 1, 5) := by
  decide +kernel

theorem flipOldest_sixth : flipOldest [1, 2, 3, 4, 5] 1 = some (⟨[1, 2, 3, 0], 5⟩, 5, 1) := by
  decide +kernel

theorem fast_evicts_oldest_iff_fifth : ∃ (m' : Machine) (h : Replacement.History 2),
    m'.ctx.cachedFbs 0 = 5 ∧ h.stores = 4 ∧
      (h.order.head? = some 0 ↔ h.stores = drmtapFastSlots) := by
  obtain ⟨m₁, m', hrun, hr, hold, hnew⟩ := flipOldest_runs flipOldest_fifth
  have hi : Replacement.Evicts m₁.ctx.cachedFbs m'.ctx.cachedFbs 0 := by
    rw [Replacement.Evicts, hold, hnew]
    decide
  exact ⟨m', _, hnew, rfl, fast_evicts_oldest_iff rfl rfl hrun hr hi⟩

/-- With one framebuffer more than there are slots, the second entry that is given up is the
newest. -/
theorem fast_evicts_newest : ¬ ∀ (m m₁ m' : Machine) (h : Replacement.History 2) (call : FastCall)
    (i : Fin (2 + 2)), m.ctx.cachedFbs = 0 → m.ctx.fastNoCpuMap = false →
      Relation.ReflTransGen CacheRun (m, .start) (m₁, h) →
      Cmd.Runs acquiringEnv call.run m₁ () () m' () →
      Replacement.Evicts m₁.ctx.cachedFbs m'.ctx.cachedFbs i → h.order.head? = some i := by
  intro hall
  obtain ⟨m₁, m', hrun, hr, hold, hnew⟩ := flipOldest_runs flipOldest_sixth
  have hi : Replacement.Evicts m₁.ctx.cachedFbs m'.ctx.cachedFbs 0 := by
    rw [Replacement.Evicts, hold, hnew]
    decide
  have hhead := hall _ _ _ _ _ _ rfl rfl hrun hr hi
  revert hhead
  decide

end Drmtap
