import Drmtap.SkipUnchanged

/-! The history of a thread as its converts and their calls tell it, and that every skip in it is
sound. -/
namespace Drmtap

open Memory Effect

/-! What the calls of a convert tell of it. -/

/-- The grid that the hash pass read, the first error asked for after it, and where the pixels were
read to. -/
structure Seen where
  grid : Option (ℕ → UInt32)
  failed : Option Bool
  pixels : Option Slice

namespace Seen

def nothing : Seen := ⟨none, none, none⟩

def note (seen : Seen) : (o : Op ⊕ GlOp) → EglAns o → Seen
  | .inr (.hashPass _ _), (grid : ℕ → UInt32) => { seen with grid := some grid, failed := none }
  | .inr .getError, (failed : Bool) => { seen with failed := seen.failed.or (some failed) }
  | .inr (.readPixels dst), _ => { seen with pixels := some dst }
  | _, _ => seen

/-- Neither a grid nor pixels were read. -/
structure Unread (seen : Seen) : Prop where
  grid : seen.grid = none
  pixels : seen.pixels = none

/-- A grid was read, without an error. -/
def Hashed (seen : Seen) : Prop := seen.grid.isSome ∧ seen.failed = some false

instance (seen : Seen) : Decidable seen.Hashed := by
  unfold Hashed
  infer_instance

/-- Between two calls, neither a grid nor pixels were read. -/
structure Still (seen seen' : Seen) : Prop where
  grid : seen'.grid = seen.grid
  pixels : seen'.pixels = seen.pixels

instance : IsPreorder Seen Still where
  refl _ := ⟨rfl, rfl⟩
  trans _ _ _ h h' := ⟨h'.grid.trans h.grid, h'.pixels.trans h.pixels⟩

theorem Unread.still {seen seen' : Seen} (hu : seen.Unread) (h : seen.Still seen') :
    seen'.Unread :=
  ⟨h.grid.trans hu.grid, h.pixels.trans hu.pixels⟩

theorem Unread.not_hashed {seen : Seen} (hu : seen.Unread) : ¬ seen.Hashed := by
  simp [Hashed, hu.grid]

end Seen

/-- Every call is allowed, and any answer possible, of which the above is noted. -/
abbrev seeingGl : Effect.Env (Op ⊕ GlOp) EglAns := .noting Seen.note

theorem DrawOp.still {o : Op ⊕ GlOp} (ho : DrawOp o) (seen : Seen) (r : EglAns o) :
    seen.Still (seen.note o r) := by
  rcases o with o | o
  · exact refl_of Seen.Still seen
  · cases o <;> first | exact ho.elim | exact ⟨rfl, rfl⟩

section Events
variable {K : Type}

/-- What a convert did. It was skipped, as `hash_check` returned 1, if it succeeded and the pixels
were not read; the frame is in the buffer that it returned, and has the grid that was read. It was
committed if it succeeded, and read a grid without an error and then the pixels. -/
def EglCall.outcome (call : EglCall) (k : K) (r : Except ℤ (Slice × ℕ)) (seen : Seen) :
    List (EglEvent K) :=
  match r, seen.pixels with
  | .ok (out, _), none => [.skipped (call.frame k out seen.grid)]
  | .ok _, some dst =>
    if seen.Hashed then [.committed (call.frame k dst seen.grid)] else []
  | .error _, _ => []

/-- `drmtap_ensure_out` was called, or not: the counter of the context tells. -/
def resolved (k : K) (c c' : Ctx) : List (EglEvent K) :=
  if c'.outGen = c.outGen then [] else [.ensured k]

variable [DecidableEq K]

/-- One step of a thread and of its history: a convert, with fewer than 2 ^ 32 calls for an output
buffer on its context since the last one, a cleanup, or other code in between. -/
inductive EglStep (address : ℕ → ℕ) :
    EglThread K × List (EglEvent K) → EglThread K × List (EglEvent K) → Prop
  | convert {t t' : EglThread K} {events : List (EglEvent K)} (k : K) (call : EglCall)
      (r : Except ℤ (Slice × ℕ)) (seen : Seen) (hcalls : callsSince k events < 2 ^ 32)
      (h : Cmd.Runs seeingGl (drmtapGpuEglConvertOn address k call) t .nothing r t' seen) :
      EglStep address (t, events)
        (t', .left k :: (call.outcome k r seen ++ resolved k (t.ctxs k) (t'.ctxs k) ++ events))
  | cleanup {t t' : EglThread K} {events : List (EglEvent K)}
      (h : Cmd.Runs anyGl drmtapGpuEglThreadCleanup t () () t' ()) :
      EglStep address (t, events) (t', events)
  | elsewhere {t t' : EglThread K} {events : List (EglEvent K)} (k : K) (n : ℕ)
      (h : t.Elsewhere k n t') :
      EglStep address (t, events) (t', List.replicate n (.ensured k) ++ events)

/-- A thread that has not converted yet. -/
def EglThread.Unused (t : EglThread K) : Prop := t.egl = .zero ∧ t.log = []

end Events

/-! The log of a convert is what its calls tell. -/

section Telling
variable {K : Type} {address : ℕ → ℕ} {k : K} {call : EglCall} {t t' : EglThread K}
  {seen : Seen} {dst : Slice} {wasValid hashing : Bool}

theorem keeps_seen {α : Type} {m : EglM K α} (hm : EglSteps m) (t : EglThread K) (seen : Seen) :
    Cmd.wlp seeingGl m (fun _ t' seen' => t.Keeps t' ∧ seen.Still seen') t seen := by
  have hfollows : Cmd.Follows seeingGl (fun x y => EglThread.Keeps x.1 y.1 ∧ Seen.Still x.2 y.2)
      m := by
    apply hm.follows
    intro seen o ho
    refine ⟨trivial, ?_⟩
    intro r seen' hs
    subst hs
    exact ho.still seen r
  exact hfollows t seen

/-- The contexts and the log are as before, and the room for the grids. -/
structure EglThread.Hashes (t t' : EglThread K) : Prop where
  ctxs : t'.ctxs = t.ctxs
  log : t'.log = t.log
  cap : t'.egl.hash.cap = t.egl.hash.cap
  allocated : t.egl.hash.Allocated → t'.egl.hash.Allocated

/-- The hash would be committed exactly if a grid was read without an error, and is that grid. -/
structure EglHash.Tells (h : EglHash K) (call : EglCall) (hashing : Bool) (seen : Seen) : Prop where
  fresh : hashing = true ∧ h.on = true ∧ h.fresh = true ↔ seen.Hashed
  checked : seen.grid.isSome → seen.failed.isSome
  grid : seen.Hashed → EglHash.gridOf h.cur (gridWords call.width call.height) =
    EglHash.gridOf seen.grid (gridWords call.width call.height)

theorem EglHash.Tells.of_unread {h : EglHash K} (hu : seen.Unread)
    (hf : ¬ (hashing = true ∧ h.on = true ∧ h.fresh = true)) : h.Tells call hashing seen where
  fresh := iff_of_false hf hu.not_hashed
  checked hg := by simp [hu.grid] at hg
  grid hh := absurd hh hu.not_hashed

theorem growGrids_told (ha : t.egl.hash.Allocated) (bytes : ℕ) :
    Cmd.wlp seeingGl (growGrids bytes) (fun r t' seen' => t'.ctxs = t.ctxs ∧ t'.log = t.log ∧
      t'.egl.hash.Allocated ∧ (r = true → bytes ≤ t'.egl.hash.cap) ∧
      t'.egl.hash.on = (r && t.egl.hash.on) ∧ seen' = seen) t seen := by
  unfold growGrids hashFail
  simp only [Cmd.wlp_bind, Cmd.wlp_ite, Cmd.wlp_pure, wlp_getHash, wlp_modifyHash]
  constructor
  · intro _
    refine ⟨trivial, fun cur _ hs => ⟨trivial, fun prev _ hs' => ?_⟩⟩
    subst hs hs'
    constructor
    · intro _
      exact ⟨rfl, rfl, fun h => absurd rfl h, fun h => absurd h (by simp), rfl, rfl⟩
    · intro hsome
      obtain ⟨hcur, hprev⟩ := not_or.mp hsome
      rw [Bool.not_eq_true, Option.isNone_eq_false_iff] at hcur hprev
      exact ⟨rfl, rfl, fun _ => ⟨hcur, hprev⟩, fun _ => le_rfl, rfl, rfl⟩
  · intro hcap
    exact ⟨trivial, trivial, ha, fun _ => not_lt.mp hcap, by simp, trivial⟩

theorem sizeTarget_told (gw gh : UInt32) :
    Cmd.wlp seeingGl (sizeTarget gw gh) (fun r t' seen' => t.Hashes t' ∧
      t'.egl.hash.on = (r && t.egl.hash.on) ∧ seen' = seen) t seen := by
  unfold sizeTarget hashFail
  simp only [Cmd.wlp_bind, Cmd.wlp_ite, Cmd.wlp_pure, wlp_getHash, wlp_modifyHash]
  constructor
  · intro _
    refine ⟨trivial, fun sized seen' hs => ?_⟩
    subst hs
    exact ⟨fun _ => ⟨⟨rfl, rfl, rfl, id⟩, rfl, rfl⟩, fun _ => ⟨⟨rfl, rfl, rfl, id⟩, rfl, rfl⟩⟩
  · intro _
    exact ⟨⟨rfl, rfl, rfl, id⟩, by simp, trivial⟩

theorem EglHash.Allocated.readInto {h : EglHash K} (ha : h.Allocated) (words : ℕ)
    (grid : ℕ → UInt32) : (h.readInto words grid).Allocated :=
  ha.congr rfl (Option.isSome_map ..)

/-- What was read over the words of a frame is its grid. -/
theorem EglHash.gridOf_readInto {h : EglHash K} {width height : UInt32} (ha : h.Allocated)
    (hcap : gridBytes width height ≤ h.cap) (grid : ℕ → UInt32) :
    EglHash.gridOf (h.readInto (gridWords width height) grid).cur (gridWords width height) =
      EglHash.gridOf (some grid) (gridWords width height) := by
  by_cases hwords : gridWords width height = 0
  · rw [hwords]
    cases (h.readInto 0 grid).cur <;> rfl
  · have hbytes : gridBytes width height = gridWords width height * 4 := by
      unfold gridBytes gridWords
      omega
    obtain ⟨hcur, -⟩ := ha (by omega)
    obtain ⟨old, hold⟩ := Option.isSome_iff_exists.mp hcur
    simp only [readInto, hold, Option.map_some, gridOf]
    apply List.map_congr_left
    intro i hi
    rw [if_pos (List.mem_range.mp hi)]

theorem readGrid_told (ha : t.egl.hash.Allocated)
    (hcap : gridBytes call.width call.height ≤ t.egl.hash.cap) (hon : t.egl.hash.on = true)
    (hp : seen.pixels = none) :
    Cmd.wlp seeingGl (readGrid call.width call.height) (fun r t' seen' => t.Hashes t' ∧
      t'.egl.hash.Tells call true seen' ∧ (r = true → seen'.Hashed) ∧ seen'.pixels = none)
      t seen := by
  unfold readGrid hashFail
  simp only [Cmd.wlp_bind, Cmd.wlp_ite, Cmd.wlp_pure, wlp_modifyHash]
  refine ⟨trivial, fun grid _ hs => ⟨trivial, fun failed _ hs' => ?_⟩⟩
  subst hs hs'
  have hgrid := EglHash.gridOf_readInto ha hcap grid
  have hallocated := ha.readInto (gridWords call.width call.height) grid
  constructor
  · intro hfailed
    subst hfailed
    refine ⟨⟨rfl, rfl, rfl, fun _ => hallocated⟩, ⟨?_, fun _ => rfl, fun _ => hgrid⟩, by simp, hp⟩
    simp [EglHash.turnOff, Seen.Hashed, Seen.note]
  · intro hfailed
    have hclean : failed = false := Bool.eq_false_of_not_eq_true hfailed
    subst hclean
    refine ⟨⟨rfl, rfl, rfl, fun _ => hallocated⟩, ⟨?_, fun _ => rfl, fun _ => hgrid⟩,
      fun _ => ⟨rfl, rfl⟩, hp⟩
    exact iff_of_true ⟨rfl, hon, rfl⟩ ⟨rfl, rfl⟩

/-- What a convert says of itself and its context, beside what was there. -/
structure EglThread.Told (k : K) (call : EglCall) (t : EglThread K) (r : Except ℤ (Slice × ℕ))
    (t' : EglThread K) (seen : Seen) : Prop where
  allocated : t'.egl.hash.Allocated
  log : t'.log = call.outcome k r seen ++ resolved k (t.ctxs k) (t'.ctxs k) ++ t.log

/-- A convert that fails before it asks for an output buffer. -/
theorem EglThread.Told.of_error (h : t.Keeps t') (ha : t.egl.hash.Allocated) (e : ℤ) :
    t.Told k call (.error e) t' seen where
  allocated := h.allocated ha
  log := by
    rw [h.log, h.ctxs, resolved, if_pos rfl]
    rfl

theorem EglThread.Told.of_keeps {t₀ : EglThread K} {r : Except ℤ (Slice × ℕ)} (h : t₀.Keeps t)
    (ht : t.Told k call r t' seen) : t₀.Told k call r t' seen where
  allocated := ht.allocated
  log := by
    rw [ht.log, h.log, h.ctxs]

theorem releaseUncached_told {acquired : Acquired} {Q : Unit → EglThread K → Seen → Prop}
    (h : Q () t seen) : Cmd.wlp seeingGl (releaseUncached acquired) Q t seen := by
  unfold releaseUncached destroyImage
  rw [Cmd.wlp_ite]
  refine ⟨fun _ => h, fun _ => ?_⟩
  rw [Cmd.wlp_bind]
  refine ⟨trivial, fun _ seen₁ hs => ?_⟩
  subst hs
  cases acquired.image with
  | none => exact h
  | some image =>
    refine ⟨trivial, fun _ seen₂ hs => ?_⟩
    subst hs
    exact h

variable [DecidableEq K]

theorem compareGrids_told (ht : t.egl.hash.Tells call true seen) (hh : seen.Hashed) :
    Cmd.wlp seeingGl (compareGrids address k wasValid call dst) (fun r t' seen' => seen' = seen ∧
      t'.ctxs = t.ctxs ∧ (t.egl.hash.Allocated → t'.egl.hash.Allocated) ∧
      t'.egl.hash.Tells call true seen ∧
      t'.log = (if r then [.skipped (call.frame k dst seen.grid)] else []) ++ t.log) t seen := by
  have hframe : call.frame k dst t.egl.hash.cur = call.frame k dst seen.grid := by
    unfold EglCall.frame
    rw [ht.grid hh]
  unfold compareGrids
  simp only [Cmd.wlp_bind, Cmd.wlp_ite, Cmd.wlp_pure, wlp_getHash, wlp_modifyHash, wlp_debugLog,
    hframe]
  constructor
  · intro _
    exact ⟨trivial, trivial, id, ⟨ht.fresh, ht.checked, ht.grid⟩, by simp⟩
  · intro _
    exact ⟨trivial, trivial, id, ht, by simp⟩

theorem hashCheck_told (hu : seen.Unread) (ha : t.egl.hash.Allocated) :
    Cmd.wlp seeingGl (hashCheck address k wasValid call dst) (fun r t' seen' =>
      t'.ctxs = t.ctxs ∧ t'.egl.hash.Allocated ∧ seen'.pixels = none ∧
      t'.egl.hash.Tells call true seen' ∧
      t'.log = (if r then [.skipped (call.frame k dst seen'.grid)] else []) ++ t.log) t seen := by
  have hstale : ∀ h : EglHash K, h.fresh = false → h.Tells call true seen := by
    intro h hf
    exact .of_unread hu (by simp [hf])
  have hoff : ∀ h : EglHash K, h.on = false → h.Tells call true seen := by
    intro h hf
    exact .of_unread hu (by simp [hf])
  unfold hashCheck
  simp only [Cmd.wlp_bind, Cmd.wlp_ite, Cmd.wlp_pure, wlp_getHash, wlp_modifyHash]
  refine ⟨fun _ => ⟨trivial, ha, hu.pixels, hstale _ rfl, by simp⟩, fun hon =>
    ⟨fun _ => ⟨trivial, ha, hu.pixels, hstale _ rfl, by simp⟩, fun _ => ?_⟩⟩
  refine Cmd.wlp_mono (growGrids_told ?_ _) ?_
  · exact ha
  intro grown t₁ seen₁ h
  obtain ⟨hc₁, hl₁, ha₁, hcap, hon₁, hs₁⟩ := h
  subst hs₁
  constructor
  · intro hfail
    obtain rfl : grown = false := by simpa using hfail
    exact ⟨hc₁, ha₁, hu.pixels, hoff _ hon₁, hl₁⟩
  intro hgrown
  obtain rfl : grown = true := by simpa using hgrown
  refine Cmd.wlp_mono (sizeTarget_told _ _) ?_
  intro sized t₂ seen₂ h
  obtain ⟨h₂, hon₂, hs₂⟩ := h
  subst hs₂
  have hc₂ := h₂.ctxs.trans hc₁
  have hl₂ := h₂.log.trans hl₁
  constructor
  · intro hfail
    obtain rfl : sized = false := by simpa using hfail
    exact ⟨hc₂, h₂.allocated ha₁, hu.pixels, hoff _ hon₂, hl₂⟩
  intro hsized
  obtain rfl : sized = true := by simpa using hsized
  have hcap₂ : gridBytes call.width call.height ≤ t₂.egl.hash.cap := h₂.cap ▸ hcap rfl
  have hon : t₂.egl.hash.on = true := by
    rw [hon₂, hon₁]
    simpa using hon
  refine Cmd.wlp_mono (readGrid_told (h₂.allocated ha₁) hcap₂ hon hu.pixels) ?_
  intro read t₃ seen₃ h
  obtain ⟨h₃, ht₃, hhashed, hp₃⟩ := h
  have ha₃ := h₃.allocated (h₂.allocated ha₁)
  constructor
  · intro hfail
    exact ⟨h₃.ctxs.trans hc₂, ha₃, hp₃, ht₃, h₃.log.trans hl₂⟩
  intro hread
  refine Cmd.wlp_mono (compareGrids_told ht₃ (hhashed (by simpa using hread))) ?_
  intro r t' seen' h
  obtain ⟨hs, hc, ha', ht, hl⟩ := h
  subst hs
  exact ⟨hc.trans (h₃.ctxs.trans hc₂), ha' ha₃, hp₃, ht, by rw [hl, h₃.log, hl₂]⟩

/-- The pixels, once the hash tells what was read. -/
theorem readBack_told (ha : t.egl.hash.Allocated) (ht : t.egl.hash.Tells call hashing seen) :
    Cmd.wlp seeingGl (readBack address k call hashing dst) (fun r t' seen' => t'.ctxs = t.ctxs ∧
      t'.egl.hash.Allocated ∧ t'.log = call.outcome k r seen' ++ t.log) t seen := by
  unfold readBack
  simp only [Cmd.wlp_bind, wlp_onCtx, wlp_onHeap, Cmd.wlp_ite, Cmd.wlp_pure, wlp_getHash]
  refine ⟨trivial, fun bytes _ hs _ h _ => ⟨trivial, fun failed _ hs' => ?_⟩⟩
  subst hs hs'
  have hctxs : Function.update t.ctxs k (t.ctxs k) = t.ctxs := Function.update_eq_self _ _
  refine ⟨fun _ => ⟨hctxs, ha, rfl⟩, fun hclean => ?_⟩
  obtain rfl : failed = false := Bool.eq_false_of_not_eq_true hclean
  -- the error of the pixels is not that of the pass, which was asked for before
  have hsame : ((seen.note (.inr (.readPixels dst)) bytes).note (.inr .getError) false).Hashed ↔
      seen.Hashed := by
    have hchecked := ht.checked
    rcases seen with ⟨_ | grid, _ | failed, pixels⟩ <;> simp_all [Seen.note, Seen.Hashed]
  constructor
  · intro hcommit
    have hh : seen.Hashed := ht.fresh.mp hcommit
    have hframe : call.frame k dst t.egl.hash.cur = call.frame k dst seen.grid := by
      unfold EglCall.frame
      rw [ht.grid hh]
    unfold hashCommit noteGen
    simp only [Cmd.wlp_bind, wlp_modifyHash, wlp_getHash, wlp_debugLog, wlp_ctxOf]
    refine ⟨hctxs, fun hcap => (ha hcap).symm, ?_⟩
    have hout : call.outcome k (.ok (dst, call.width.toNat * call.height.toNat * 4))
        ((seen.note (.inr (.readPixels dst)) bytes).note (.inr .getError) false) =
          [.committed (call.frame k dst seen.grid)] := if_pos (hsame.mpr hh)
    rw [hout, ← hframe]
    rfl
  · intro hnot
    refine ⟨hctxs, ha, ?_⟩
    have hout : call.outcome k (.ok (dst, call.width.toNat * call.height.toNat * 4))
        ((seen.note (.inr (.readPixels dst)) bytes).note (.inr .getError) false) = [] :=
      if_neg fun hh => hnot (ht.fresh.mpr (hsame.mp hh))
    rw [hout]
    rfl

theorem deliver_told (hu : seen.Unread) (ha : t.egl.hash.Allocated) :
    Cmd.wlp seeingGl (deliver address k call hashing wasValid dst) (fun r t' seen' =>
      t'.ctxs = t.ctxs ∧ t'.egl.hash.Allocated ∧ t'.log = call.outcome k r seen' ++ t.log)
      t seen := by
  unfold deliver skips
  simp only [Cmd.wlp_bind, Cmd.wlp_ite, Cmd.wlp_pure]
  constructor
  · intro hh
    subst hh
    refine Cmd.wlp_mono (hashCheck_told hu ha) ?_
    intro skip t₁ seen₁ h
    obtain ⟨hc, ha₁, hp, ht, hl⟩ := h
    constructor
    · intro hskip
      unfold noteGen
      simp only [Cmd.wlp_bind, wlp_ctxOf, wlp_modifyHash]
      refine ⟨hc, ha₁, ?_⟩
      rw [hl, if_pos hskip]
      simp only [EglCall.outcome, hp]
    · intro hskip
      refine Cmd.wlp_mono (readBack_told ha₁ ht) ?_
      intro r t' seen' h
      obtain ⟨hc', ha', hl'⟩ := h
      refine ⟨hc'.trans hc, ha', ?_⟩
      rw [hl', hl, if_neg hskip]
      rfl
  · intro hh
    refine ⟨by simp, fun _ => readBack_told ha (.of_unread hu fun h => hh h.1)⟩

theorem resolveOut_told (hu : seen.Unread) (ha : t.egl.hash.Allocated)
    (hsize : call.width.toNat * call.height.toNat * 4 ≠ 0) :
    Cmd.wlp seeingGl (resolveOut address k call hashing wasValid) (t.Told k call) t seen := by
  have hquiet := Cmd.Follows.of_env (E := Effect.Env.left seeingGl) (T := Eq)
    (fun _ _ => trivial) (fun s o r s' hs => hs.symm)
    (drmtapEnsureOut (call.width.toNat * call.height.toNat * 4))
  unfold resolveOut ensureOut
  simp only [Cmd.wlp_bind, Cmd.wlp_pure, wlp_debugLog, wlp_onCtx]
  refine Cmd.wlp_mono (Cmd.wlp_and (wlp_drmtapEnsureOut_outGen (fun _ _ => trivial) hsize)
    (hquiet _ _)) ?_
  intro r m' seen' h
  obtain ⟨hgen, hs⟩ := h
  subst hs
  have hresolved : resolved k (t.ctxs k) m'.ctx = [.ensured k] := by
    apply if_neg
    rw [hgen]
    simp
  cases r with
  | error e =>
    refine ⟨ha, ?_⟩
    simp only [Function.update_self]
    rw [hresolved]
    rfl
  | ok dst =>
    refine Cmd.wlp_mono (deliver_told hu ha) ?_
    intro r t' seen' h
    obtain ⟨hc, ha', hl⟩ := h
    refine ⟨ha', ?_⟩
    rw [hc, hl]
    simp only [Function.update_self]
    rw [hresolved]
    simp

theorem drawAndRead_told {drawn : DrawnFrom} {texture : ℕ} (hu : seen.Unread)
    (ha : t.egl.hash.Allocated) (hsize : call.width.toNat * call.height.toNat * 4 ≠ 0) :
    Cmd.wlp seeingGl (drawAndRead address k call drawn texture wasValid) (t.Told k call) t
      seen := by
  have hsame := refl_of EglThread.Keeps t
  unfold drawAndRead drawFailed
  simp only [Cmd.wlp_bind, Cmd.wlp_ite, Cmd.wlp_pure, wlp_ctxOf, wlp_getHash]
  refine ⟨trivial, fun _ seen₁ hs => ?_⟩
  subst hs
  constructor
  · intro _
    refine ⟨trivial, fun failed seen₂ hs => ⟨fun _ => .of_error hsame ha _, fun _ => ?_⟩⟩
    subst hs
    exact resolveOut_told ⟨hu.grid, hu.pixels⟩ ha hsize
  · intro _
    exact ⟨by simp, fun _ => resolveOut_told hu ha hsize⟩

theorem convertCurrent_told (hu : seen.Unread) (ha : t.egl.hash.Allocated)
    (hsize : call.width.toNat * call.height.toNat * 4 ≠ 0) :
    Cmd.wlp seeingGl (convertCurrent address k call wasValid) (t.Told k call) t seen := by
  unfold convertCurrent
  simp only [Cmd.wlp_bind, wlp_ctxOf]
  refine Cmd.wlp_mono (keeps_seen (currentInode_keeps call.dmaBufFd) t seen) ?_
  intro inode t₁ seen₁ h₁
  refine Cmd.wlp_mono (keeps_seen (acquireImage_keeps k call _ inode) t₁ seen₁) ?_
  intro image t₂ seen₂ h₂
  have hk := h₁.1.trans h₂.1
  have hu₂ := (hu.still h₁.2).still h₂.2
  cases image with
  | error e => exact .of_error hk ha e
  | ok acquired =>
    simp only [Cmd.wlp_bind, Cmd.wlp_pure]
    refine Cmd.wlp_mono (drawAndRead_told hu₂ (hk.allocated ha) hsize) ?_
    intro r t₃ seen₃ h₃
    exact releaseUncached_told (h₃.of_keeps hk)

theorem drmtapValidateFbDims_size {width height : UInt32}
    (h : drmtapValidateFbDims width height = 0) : width.toNat * height.toNat * 4 ≠ 0 := by
  unfold drmtapValidateFbDims at h
  split at h
  · cases h
  next hzero =>
    obtain ⟨hw, hh⟩ := not_or.mp hzero
    have hw' : width.toNat ≠ 0 := fun h => hw (UInt32.toNat_inj.mp h)
    have hh' : height.toNat ≠ 0 := fun h => hh (UInt32.toNat_inj.mp h)
    simp [hw', hh']

theorem eglConvertImpl_told (ha : t.egl.hash.Allocated) :
    Cmd.wlp seeingGl (eglConvertImpl address k call) (t.Told k call) t .nothing := by
  have h₀ : t.Keeps { t with egl := { t.egl with
      hash := { t.egl.hash with valid := false, fresh := false } } } :=
    ⟨rfl, rfl, .inr rfl, .inr rfl, id⟩
  unfold eglConvertImpl
  simp only [Cmd.wlp_bind, Cmd.wlp_ite, Cmd.wlp_pure, wlp_getHash, wlp_modifyHash]
  refine ⟨fun _ => .of_error h₀ ha _, fun hdims => ?_⟩
  have hsize := drmtapValidateFbDims_size (not_not.mp hdims)
  refine Cmd.wlp_mono (keeps_seen (leaveDevice_keeps k) _ _) ?_
  intro _ t₁ seen₁ h₁
  refine Cmd.wlp_mono (keeps_seen (ensureInit_keeps k) t₁ seen₁) ?_
  intro ret t₂ seen₂ h₂
  have hall := (h₀.trans h₁.1).trans h₂.1
  have hu : seen₂.Unread := ((⟨rfl, rfl⟩ : Seen.nothing.Unread).still h₁.2).still h₂.2
  refine ⟨fun _ => .of_error hall ha _, fun _ => ⟨trivial, fun _ seen₃ hs => ⟨trivial,
    fun current seen₄ hs' => ?_⟩⟩⟩
  subst hs hs'
  refine ⟨fun _ => ?_, fun _ => .of_error hall ha _⟩
  refine Cmd.wlp_mono (convertCurrent_told hu (hall.allocated ha) hsize) ?_
  intro r t' seen' h
  exact h.of_keeps hall

theorem drmtapGpuEglConvertOn_told (ha : t.egl.hash.Allocated) :
    Cmd.wlp seeingGl (drmtapGpuEglConvertOn address k call) (fun r t' seen =>
      t'.egl.hash.Allocated ∧ t'.log =
        .left k :: (call.outcome k r seen ++ resolved k (t.ctxs k) (t'.ctxs k) ++ t.log))
      t .nothing := by
  unfold drmtapGpuEglConvertOn
  simp only [Cmd.wlp_bind, Cmd.wlp_pure, wlp_debugLog]
  refine Cmd.wlp_mono (eglConvertImpl_told ha) ?_
  intro r t' seen h
  exact ⟨h.allocated, congrArg (.left k :: ·) h.log⟩

end Telling

/-! Runs -/

section Runs
variable {K : Type} [DecidableEq K] {address : ℕ → ℕ} {x x' : EglThread K × List (EglEvent K)}

/-- Between the steps, what the thread remembers is true, and its log is the history. -/
structure EglRecord (x : EglThread K × List (EglEvent K)) : Prop where
  remembers : x.1.Remembers
  allocated : x.1.egl.hash.Allocated
  log : x.1.log = x.2

theorem EglRecord.step (h : EglRecord x) (hstep : EglStep address x x') : EglRecord x' := by
  obtain ⟨hr, ha, hlog⟩ := h
  cases hstep with
  | convert k call r seen hcalls hrun =>
    dsimp only at hlog
    subst hlog
    obtain ⟨ha', hlog'⟩ := Cmd.wlp_runs (drmtapGpuEglConvertOn_told ha) hrun
    exact ⟨Cmd.wlp_runs (drmtapGpuEglConvertOn_spec hr hcalls) hrun.any, ha', hlog'⟩
  | cleanup hrun =>
    have hk := Cmd.wlp_runs (keeps_any eglCleanup_keeps _) hrun
    exact ⟨hr.keeps hk, hk.allocated ha, hk.log.trans hlog⟩
  | elsewhere k n hother =>
    refine ⟨hr.elsewhere hother, ?_, ?_⟩
    · cases hother with
      | on c heap hgen hbuf => exact ha
    · cases hother with
      | on c heap hgen hbuf => exact congrArg (List.replicate n (.ensured k) ++ ·) hlog

theorem EglThread.Unused.record {t : EglThread K} (h : t.Unused) : EglRecord (t, []) := by
  obtain ⟨hegl, hlog⟩ := h
  refine ⟨⟨fun hv => ?_, ?_⟩, ?_, hlog⟩
  · rw [hegl] at hv
    cases hv
  · rw [hlog]
    intro frame earlier hs
    exact absurd (List.suffix_nil.mp hs) (by simp)
  · rw [hegl]
    exact fun hcap => absurd rfl hcap

theorem EglRecord.run (h : EglRecord x) (hrun : Relation.ReflTransGen (EglStep address) x x') :
    EglRecord x' := by
  induction hrun with
  | refl => exact h
  | tail _ hstep ih => exact ih.step hstep

/-- Whenever `hash_check` says that a frame is unchanged, it is the last one committed on this
thread: for the same context, size, format and modifier, with the same grid, into the same
buffer, which nothing has asked for since but the skips of this frame. -/
theorem skips_sound {t₀ t : EglThread K} {events : List (EglEvent K)} (h0 : t₀.Unused)
    (hrun : Relation.ReflTransGen (EglStep address) (t₀, []) (t, events)) : SkipsSound events := by
  have hrecord : EglRecord (t, events) := h0.record.run hrun
  have hsound := hrecord.remembers.sound
  rwa [hrecord.log] at hsound

end Runs

/-! A device on which everything works, and shows the same picture every time. -/

def fineGl : (o : Op ⊕ GlOp) → Option (EglAns o)
  | .inl (.malloc _) => some (some fun _ => 0)
  | .inr .loadEglProcs | .inr (.display _) | .inr .eglInitialize | .inr .chooseConfig
  | .inr .getenvSkipUnchanged | .inr (.createContext _) | .inr (.makeCurrent _)
  | .inr .createProgram | .inr (.hashTarget _ _) => some true
  | .inr .getenvNoImageCache | .inr .getError => some false
  | .inr (.fstatInode _) => some none
  | .inr (.createImage _) => some (some 1)
  | .inr .genTexture => some (2 : ℕ)
  | .inr (.bindTexture _) | .inr (.imageTargetTexture _ _) | .inr (.draw _ _)
  | .inr (.deleteTexture _) | .inr (.destroyImage _) => some ()
  | .inr (.allocGrid _) => some (some fun _ => 0)
  | .inr (.hashPass _ _) => some fun _ => 7
  | .inr (.readPixels _) => some fun _ => 5
  | _ => none

def fineDevice (seen : Seen) (o : Op ⊕ GlOp) : Option (EglAns o × Seen) :=
  (fineGl o).map fun r => (r, seen.note o r)

def fullHd : EglCall := ⟨5, 1920, 1080, 7680, fmtXR24, 0, 0⟩

def fullHdBytes : ℕ := 1920 * 1080 * 4

/-- The frame, in the first buffer there is. -/
def fullHdFrame : HashedFrame Unit := fullHd.frame () ⟨0, fullHdBytes⟩ (some fun _ => 7)

section Fine
variable {α β : Type} {m : EglM Unit α} {f : α → EglM Unit β} {a : α} {t t' : EglThread Unit}
  {seen seen' : Seen} {P : α → EglThread Unit → Seen → Prop}
  {Q : β → EglThread Unit → Seen → Prop}

theorem fine_runs (he : Cmd.exec 0 fineDevice m t seen = some ((a, t'), seen')) :
    Cmd.Runs seeingGl m t seen a t' seen' := by
  refine Cmd.exec_runs ?_ he
  intro s o r s' hs
  obtain ⟨r', -, heq⟩ := Option.map_eq_some_iff.mp hs
  cases heq
  rfl

/-- Some run gets there. -/
def Proceeds (m : EglM Unit α) (Q : α → EglThread Unit → Seen → Prop) (t : EglThread Unit)
    (seen : Seen) : Prop :=
  ∃ a t' seen', Cmd.Runs seeingGl m t seen a t' seen' ∧ Q a t' seen'

theorem proceeds_iff : Proceeds m P t seen ↔ Cmd.can seeingGl m P t seen := Cmd.can_iff.symm

theorem proceeds_pure : Proceeds (pure a) P t seen ↔ P a t seen := proceeds_iff.trans Cmd.can_pure

theorem proceeds_bind :
    Proceeds (m >>= f) Q t seen ↔ Proceeds m (fun a => Proceeds (f a) Q) t seen := by
  have hnext : (fun a => Proceeds (f a) Q) = fun a t seen => Cmd.can seeingGl (f a) Q t seen := by
    funext a t seen
    exact propext proceeds_iff
  rw [proceeds_iff, proceeds_iff, Cmd.can_bind, hnext]

/-- What the device answers is one way to go on. -/
theorem proceeds_fine (he : Cmd.exec 0 fineDevice m t seen = some ((a, t'), seen'))
    (h : Proceeds (f a) Q t' seen') : Proceeds (m >>= f) Q t seen :=
  proceeds_bind.mpr ⟨a, t', seen', fine_runs he, h⟩

theorem proceeds_pos {c : Prop} {hd : Decidable c} {m m' : EglM Unit α} (hc : c)
    (h : Proceeds m P t seen) : Proceeds (if c then m else m') P t seen := by
  rwa [if_pos hc]

theorem proceeds_neg {c : Prop} {hd : Decidable c} {m m' : EglM Unit α} (hc : ¬ c)
    (h : Proceeds m' P t seen) : Proceeds (if c then m else m') P t seen := by
  rwa [if_neg hc]

theorem proceeds_store {dst : Slice} {l : List UInt8} {heap : Heap} {f : Unit → EglM Unit β}
    (hstore : t.heap.store dst 0 l = some heap)
    (h : Proceeds (f ()) Q { t with ctxs := Function.update t.ctxs () (t.ctxs ()), heap := heap }
      seen) :
    Proceeds (onCtx () (onHeap fun h => (h.store dst 0 l).map ((), ·)) >>= f) Q t seen := by
  have hp : (onHeap (fun h : Heap => (h.store dst 0 l).map fun x => ((), x)) : M Unit)
      ⟨t.ctxs (), t.heap⟩ = .ret ((), ⟨t.ctxs (), heap⟩) := by
    have hheap : (HasHeap.heap (⟨t.ctxs (), t.heap⟩ : Machine)).store dst 0 l = some heap := hstore
    unfold onHeap
    dsimp only
    rw [hheap]
    rfl
  refine proceeds_bind.mpr ⟨(), _, seen, ?_, h⟩
  unfold Cmd.Runs onCtx Cmd.zoom
  rw [hp]
  exact .ret

/-- The pixels are read into the buffer, and the frame is committed. -/
theorem proceeds_readBack {call : EglCall} {dst : Slice} {heap : Heap}
    {Q : Except ℤ (Slice × ℕ) → EglThread Unit → Seen → Prop}
    (hstore : t.heap.store dst 0
      ((List.range (call.width.toNat * call.height.toNat * 4)).map fun _ => 5) = some heap)
    (hon : t.egl.hash.on = true) (hfresh : t.egl.hash.fresh = true)
    (hQ : Q (.ok (dst, call.width.toNat * call.height.toNat * 4))
      { t with
        egl := { t.egl with hash :=
          { t.egl.hash.commit () call dst.base with gen := (t.ctxs ()).outGen } }
        ctxs := Function.update t.ctxs () (t.ctxs ())
        heap := heap
        log := .committed (call.frame () dst t.egl.hash.cur) :: t.log }
      { seen with pixels := some dst, failed := seen.failed.or (some false) }) :
    Proceeds (readBack id () call true dst) Q t seen := by
  unfold readBack
  refine proceeds_fine (m := gl (.readPixels dst)) rfl ?_
  refine proceeds_store hstore ?_
  refine proceeds_fine (m := gl .getError) rfl ?_
  rw [if_neg Bool.false_ne_true]
  refine proceeds_fine (m := getHash) rfl ?_
  rw [if_pos ⟨rfl, hon, hfresh⟩]
  refine proceeds_fine (m := hashCommit id () call dst) rfl ?_
  refine proceeds_fine (m := noteGen ()) rfl ?_
  exact proceeds_pure.mpr hQ

def fullHdGrid : ℕ → UInt32 := fun i => if i < gridWords 1920 1080 then 7 else 0

/-- The thread that has committed such a picture. -/
def committedThread (heap : Heap) (log : List (EglEvent Unit)) : EglThread Unit where
  egl :=
    { devicePath := "/dev/dri/card0"
      initialized := true
      imageSlots := fun _ => .empty
      nextEvict := 0
      cacheDisabled := false
      hash :=
        { on := true
          es3 := true
          fresh := true
          gw := blocksOf 1920
          gh := blocksOf 1080
          cur := some fun _ => 0
          prev := some fullHdGrid
          cap := gridBytes 1920 1080
          valid := true
          owner := some ()
          w := 1920
          h := 1080
          fourcc := fmtXR24
          modifier := 0
          out := 0
          gen := 1 } }
  devicePath := newThread.devicePath
  ctxs := fun _ => ((newThread.ctxs ()).bumpOutGen fullHdBytes).setShadow (some ⟨0, fullHdBytes⟩)
  heap := heap
  log := log

/-- The same frame may be skipped next. -/
def SkipsNext (t : EglThread Unit) : Prop :=
  Proceeds (drmtapGpuEglConvertOn id () fullHd)
    (fun r t' seen => fullHd.outcome () r seen ++ resolved () (t.ctxs ()) (t'.ctxs ()) =
      [.skipped fullHdFrame, .ensured ()]) t .nothing

theorem committedThread_skips (heap : Heap) (log : List (EglEvent Unit)) :
    SkipsNext (committedThread heap log) := by
  unfold SkipsNext drmtapGpuEglConvertOn
  rw [proceeds_bind]
  unfold eglConvertImpl
  refine proceeds_fine rfl (proceeds_fine rfl ?_)
  refine proceeds_neg (by decide) ?_
  refine proceeds_fine rfl (proceeds_fine rfl ?_)
  refine proceeds_neg (by decide) ?_
  refine proceeds_fine rfl (proceeds_fine rfl ?_)
  refine proceeds_pos rfl ?_
  unfold convertCurrent
  refine proceeds_fine rfl (proceeds_fine rfl (proceeds_fine rfl ?_))
  dsimp only
  rw [proceeds_bind]
  unfold drawAndRead
  refine proceeds_fine rfl (proceeds_fine rfl (proceeds_fine rfl ?_))
  refine proceeds_fine (m := drawFailed _) rfl ?_
  refine proceeds_neg (by decide) ?_
  unfold resolveOut
  refine proceeds_fine rfl ?_
  dsimp only
  unfold deliver
  rw [proceeds_bind]
  unfold skips
  refine proceeds_pos rfl ?_
  unfold hashCheck
  refine proceeds_fine rfl (proceeds_fine rfl ?_)
  refine proceeds_neg (not_not_intro rfl) (proceeds_neg (by decide) ?_)
  refine proceeds_fine rfl ?_
  refine proceeds_neg (by decide) ?_
  refine proceeds_fine rfl ?_
  refine proceeds_neg (by decide) ?_
  refine proceeds_fine rfl ?_
  refine proceeds_neg (by decide) ?_
  unfold compareGrids
  refine proceeds_fine rfl ?_
  refine proceeds_pos ⟨rfl, rfl, rfl, rfl, rfl, rfl, rfl, congrArg (EglHash.gridOf · _) rfl⟩ ?_
  refine proceeds_fine rfl (proceeds_fine rfl ?_)
  rw [proceeds_pure]
  refine proceeds_pos rfl ?_
  refine proceeds_fine rfl ?_
  rw [proceeds_pure]
  refine proceeds_fine rfl ?_
  rw [proceeds_pure]
  refine proceeds_fine rfl ?_
  rw [proceeds_pure]
  rfl

theorem fullHd_skipped {heap : Heap}
    (hstore : (Heap.empty.alloc fullHdBytes fun _ => 0).2.store ⟨0, fullHdBytes⟩ 0
      ((List.range fullHdBytes).map fun _ => 5) = some heap) :
    Proceeds (drmtapGpuEglConvertOn id () fullHd) (fun r t' seen => SkipsNext t' ∧
      fullHd.outcome () r seen ++ resolved () (newThread.ctxs ()) (t'.ctxs ()) =
        [.committed fullHdFrame, .ensured ()]) newThread .nothing := by
  unfold drmtapGpuEglConvertOn
  rw [proceeds_bind]
  unfold eglConvertImpl
  refine proceeds_fine rfl (proceeds_fine rfl ?_)
  refine proceeds_neg (by decide) ?_
  refine proceeds_fine rfl (proceeds_fine rfl ?_)
  refine proceeds_neg (by decide) ?_
  refine proceeds_fine rfl (proceeds_fine rfl ?_)
  refine proceeds_pos rfl ?_
  unfold convertCurrent
  refine proceeds_fine rfl (proceeds_fine rfl (proceeds_fine rfl ?_))
  dsimp only
  rw [proceeds_bind]
  unfold drawAndRead
  refine proceeds_fine rfl (proceeds_fine rfl (proceeds_fine rfl ?_))
  refine proceeds_fine (m := drawFailed _) rfl ?_
  refine proceeds_neg (by decide) ?_
  unfold resolveOut
  refine proceeds_fine rfl ?_
  dsimp only
  unfold deliver
  rw [proceeds_bind]
  unfold skips
  refine proceeds_pos rfl ?_
  unfold hashCheck
  refine proceeds_fine rfl (proceeds_fine rfl ?_)
  refine proceeds_neg (by decide) (proceeds_neg (by decide) ?_)
  refine proceeds_fine rfl ?_
  refine proceeds_neg (by decide) ?_
  refine proceeds_fine rfl ?_
  refine proceeds_neg (by decide) ?_
  refine proceeds_fine rfl ?_
  refine proceeds_neg (by decide) ?_
  unfold compareGrids
  refine proceeds_fine rfl ?_
  refine proceeds_neg (fun h => absurd h.1 (by decide)) ?_
  rw [proceeds_pure]
  refine proceeds_neg (by decide) ?_
  refine proceeds_readBack hstore rfl rfl ?_
  refine proceeds_fine rfl ?_
  rw [proceeds_pure]
  refine proceeds_fine rfl ?_
  rw [proceeds_pure]
  refine ⟨?_, rfl⟩
  change SkipsNext (committedThread heap _)
  exact committedThread_skips heap _

end Fine

/-- A frame is committed, and the same frame is skipped. -/
theorem skips_sound_unchanged : SkipsSound
    [.left (), .skipped fullHdFrame, .ensured (), .left (), .committed fullHdFrame,
      .ensured ()] := by
  have hlive : (Heap.empty.alloc fullHdBytes fun _ => 0).2.Live ⟨0, fullHdBytes⟩ :=
    Heap.alloc_live .empty fullHdBytes fun _ => 0
  obtain ⟨heap, hstore, -⟩ :=
    @Heap.store_live _ _ hlive 0 ((List.range fullHdBytes).map fun _ => 5) (by simp)
  obtain ⟨r, t, seen, hr, ⟨r', t', seen', hr', hskipped⟩, hcommitted⟩ := fullHd_skipped hstore
  have hfirst : EglStep id (newThread, [])
      (t, [.left (), .committed fullHdFrame, .ensured ()]) := by
    have hstep := EglStep.convert () fullHd r seen (by decide : callsSince () [] < 2 ^ 32) hr
    rwa [hcommitted] at hstep
  have hsecond : EglStep id (t, [.left (), .committed fullHdFrame, .ensured ()])
      (t', .left () :: ([.skipped fullHdFrame, .ensured ()] ++
        [.left (), .committed fullHdFrame, .ensured ()])) := by
    rw [← hskipped]
    exact .convert () fullHd r' seen' (by decide) hr'
  exact skips_sound ⟨rfl, rfl⟩ (.tail (.single hfirst) hsecond)

end Drmtap
