import Drmtap.HelperLedger
import Drmtap.Rotation
import Drmtap.WireDescriptors

/-! The plane that the library reads and the plane that the helper captures. -/
namespace Drmtap

open Memory Effect

/-- The planes of a device whose state is stable: their ids in order, what they are bound to, and
their properties. -/
structure PlaneBoard where
  planes : List UInt32
  crtc : UInt32 → UInt32
  fb : UInt32 → UInt32
  props : UInt32 → List (UInt32 × UInt64)
  name : UInt32 → String
  ids : ∀ id ∈ planes, id ≠ 0

namespace PlaneBoard
variable (d : PlaneBoard)

def plane (id : UInt32) : Plane := ⟨id, d.crtc id, d.fb id⟩

/-- Everything about the planes can be read; the other answers are any. -/
def Allows : (o : Op) → Ans o → Prop
  | .getPlaneResources, r => r = .ok d.planes
  | .getPlane id, r => r = some (d.plane id)
  | .objectGetProperties id .plane, r => r = some (d.props id)
  | .getProperty id, r => r = some (d.name id)
  | _, _ => True

abbrev env : Env := .only (fun _ => True) d.Allows

/-- A property that says PRIMARY. -/
def saysPrimary (p : UInt32 × UInt64) : Bool := d.name p.1 = "type" ∧ p.2 = drmPlaneTypePrimary

def isPrimary (id : UInt32) : Bool := (d.props id).any d.saysPrimary

/-- The planes that are bound to a CRTC and have a framebuffer. -/
def active (crtc : UInt32) (ids : List UInt32) : List UInt32 :=
  ids.filter fun id => d.crtc id = crtc ∧ d.fb id ≠ 0

/-- The entries of a plane among those that say PRIMARY. -/
def entries (id : UInt32) : List UInt32 := ((d.props id).filter d.saysPrimary).map fun _ => id

/-- The entries that the helper has room for. -/
def cached : List UInt32 := (d.planes.flatMap d.entries).take maxPrimaryIds

/-- The first plane of a CRTC that meets `prim`, else the first one at all. -/
def pick (prim : UInt32 → Bool) (crtc : UInt32) : Option UInt32 :=
  ((d.active crtc d.planes).find? prim).or (d.active crtc d.planes).head?

/-- The first PRIMARY plane of the CRTC, if there is one, is in the cache of the helper, or the
first plane of the CRTC at all. -/
def Seen (crtc : UInt32) : Prop :=
  ∀ id, (d.active crtc d.planes).find? d.isPrimary = some id →
    id ∈ d.cached ∨ (d.active crtc d.planes).head? = some id

theorem mem_entries {id x : UInt32} : x ∈ d.entries id ↔ x = id ∧ d.isPrimary id := by
  unfold entries isPrimary
  rw [List.mem_map, List.any_eq_true]
  constructor
  · rintro ⟨p, hp, rfl⟩
    exact ⟨rfl, p, List.mem_filter.mp hp⟩
  · rintro ⟨rfl, p, hp⟩
    exact ⟨p, List.mem_filter.mpr hp, rfl⟩

/-- The entries of a PRIMARY plane begin with it. -/
theorem entries_of_primary {id : UInt32} (h : d.isPrimary id) :
    ∃ rest, d.entries id = id :: rest := by
  have hmem : id ∈ d.entries id := d.mem_entries.mpr ⟨rfl, h⟩
  cases he : d.entries id with
  | nil =>
    rw [he] at hmem
    cases hmem
  | cons x rest =>
    have hx : x ∈ d.entries id := by
      rw [he]
      exact List.mem_cons_self
    exact ⟨rest, by rw [(d.mem_entries.mp hx).1]⟩

theorem isPrimary_of_cached {id : UInt32} (h : id ∈ d.cached) : d.isPrimary id := by
  obtain ⟨x, -, hx⟩ := List.mem_flatMap.mp (List.mem_of_mem_take h)
  obtain ⟨rfl, hprim⟩ := d.mem_entries.mp hx
  exact hprim

/-- A PRIMARY plane that is not in the cache has none behind it that is, unless it is before it
as well. -/
theorem cached_before {f g : UInt32} {before after : List UInt32}
    (hsplit : d.planes = before ++ f :: after) (hf : d.isPrimary f) (hnot : f ∉ d.cached)
    (hg : g ∈ d.cached) : g ∈ before := by
  by_contra hbefore
  have hno : g ∉ before.flatMap d.entries := by
    intro h
    obtain ⟨x, hx, hgx⟩ := List.mem_flatMap.mp h
    exact hbefore ((d.mem_entries.mp hgx).1 ▸ hx)
  obtain ⟨rest, hrest⟩ := d.entries_of_primary hf
  unfold cached at hnot hg
  rw [hsplit, List.flatMap_append, List.flatMap_cons, hrest, List.take_append] at hnot hg
  rcases List.mem_append.mp hg with hg | hg
  · exact hno (List.mem_of_mem_take hg)
  · -- some room is left behind the planes before it, and it takes the first place
    obtain ⟨n, hn⟩ : ∃ n, maxPrimaryIds - (before.flatMap d.entries).length = n + 1 := by
      refine Nat.exists_eq_add_one.mpr (Nat.pos_of_ne_zero fun h0 => ?_)
      rw [h0, List.take_zero] at hg
      cases hg
    refine hnot (List.mem_append_right _ ?_)
    rw [hn, List.cons_append, List.take_succ_cons]
    exact List.mem_cons_self

/-- The first PRIMARY plane of a CRTC, among those in the cache. -/
theorem find_cached (crtc : UInt32) {f : UInt32}
    (hf : (d.active crtc d.planes).find? d.isPrimary = some f) :
    (d.active crtc d.planes).find? (d.cached.contains ·) =
      if f ∈ d.cached then some f else none := by
  unfold active at hf ⊢
  rw [List.find?_filter] at hf ⊢
  obtain ⟨hprim, before, after, hsplit, hbefore⟩ := List.find?_eq_some_iff_append.mp hf
  simp only [decide_eq_true_eq] at hprim
  have hfirst : ∀ a ∈ before, ¬ ((d.crtc a = crtc ∧ d.fb a ≠ 0) ∧ d.isPrimary a = true) := by
    intro a ha
    simpa only [Bool.not_eq_true', decide_eq_false_iff_not, decide_eq_true_eq] using hbefore a ha
  split_ifs with hin
  · have hact : decide (d.crtc f = crtc ∧ d.fb f ≠ 0) = true := by simpa using hprim.1
    refine List.find?_eq_some_iff_append.mpr ⟨by simpa [hin] using hact, before, after, hsplit, ?_⟩
    intro a ha
    simp only [Bool.not_eq_true', decide_eq_false_iff_not, decide_eq_true_eq]
    rintro ⟨hact, hcached⟩
    exact hfirst a ha ⟨hact, d.isPrimary_of_cached (by simpa using hcached)⟩
  · refine List.find?_eq_none.mpr fun a ha hact => ?_
    simp only [decide_eq_true_eq, List.contains_iff_mem] at hact
    have hbefore := d.cached_before hsplit hprim.2 hin hact.2
    exact hfirst a hbefore ⟨hact.1, d.isPrimary_of_cached hact.2⟩

/-- The cache gives the same plane exactly where it has seen enough. -/
theorem pick_cached_iff (crtc : UInt32) :
    d.pick (d.cached.contains ·) crtc = d.pick d.isPrimary crtc ↔ d.Seen crtc := by
  unfold pick Seen
  cases hf : (d.active crtc d.planes).find? d.isPrimary with
  | none =>
    have hnone : (d.active crtc d.planes).find? (d.cached.contains ·) = none := by
      apply List.find?_eq_none.mpr
      intro a ha hcached
      refine List.find?_eq_none.mp hf a ha (d.isPrimary_of_cached ?_)
      simpa using hcached
    rw [hnone]
    simp
  | some f =>
    rw [d.find_cached crtc hf]
    split_ifs with hin
    · simp [hin]
    · simp [hin]

/-! The library -/

section Library
variable {d : PlaneBoard} {crtc : UInt32} {m : Machine}

theorem hasTypePrimary_spec (props : List (UInt32 × UInt64)) :
    Cmd.wp d.env (hasTypePrimary (S := Machine) props)
      (fun r m' _ => r = props.any d.saysPrimary ∧ m' = m) m () := by
  induction props with
  | nil => exact ⟨rfl, rfl⟩
  | cons p props ih =>
    unfold hasTypePrimary
    simp only [Cmd.wp_bind, Cmd.wp_call, Cmd.wp_pure]
    refine ⟨trivial, ?_⟩
    rintro _ _ ⟨-, rfl⟩
    apply Cmd.wp_mono ih
    rintro rest _ _ ⟨rfl, rfl⟩
    refine ⟨?_, rfl⟩
    rw [List.any_cons, Bool.or_comm]
    simp [saysPrimary]

theorem planeTypeIsPrimary_spec (id : UInt32) :
    Cmd.wp d.env (planeTypeIsPrimary id) (fun r m' _ => r = d.isPrimary id ∧ m' = m) m () := by
  unfold planeTypeIsPrimary
  simp only [Cmd.wp_bind, Cmd.wp_call]
  refine ⟨trivial, ?_⟩
  rintro _ _ ⟨-, rfl⟩
  exact hasTypePrimary_spec _

theorem active_cons (id : UInt32) (ids : List UInt32) : d.active crtc (id :: ids) =
    if d.crtc id = crtc ∧ d.fb id ≠ 0 then id :: d.active crtc ids else d.active crtc ids := by
  unfold active
  rw [List.filter_cons]
  simp only [decide_eq_true_eq]

theorem searchPlanes_spec (ids : List UInt32) (hids : ∀ id ∈ ids, id ≠ 0) (result : UInt32) :
    Cmd.wp d.env (searchPlanes crtc ids result) (fun r _ _ =>
      r = ((d.active crtc ids).find? d.isPrimary).getD
        (if result = 0 then (d.active crtc ids).head?.getD 0 else result)) m () := by
  induction ids generalizing result m with
  | nil =>
    show result = if result = 0 then 0 else result
    split_ifs with h
    · exact h
    · rfl
  | cons id ids ih =>
    have hid := hids id List.mem_cons_self
    have hrest : ∀ id ∈ ids, id ≠ 0 := fun x hx => hids x (List.mem_cons_of_mem _ hx)
    unfold searchPlanes
    simp only [Cmd.wp_bind, Cmd.wp_call]
    refine ⟨trivial, ?_⟩
    rintro _ _ ⟨-, rfl⟩
    rw [active_cons]
    apply Cmd.wp_ite.mpr
    constructor
    · intro (hskip : d.crtc id ≠ crtc ∨ d.fb id = 0)
      have hno : ¬ (d.crtc id = crtc ∧ d.fb id ≠ 0) := by tauto
      rw [if_neg hno]
      exact ih hrest result
    · intro (hskip : ¬ (d.crtc id ≠ crtc ∨ d.fb id = 0))
      have hact : d.crtc id = crtc ∧ d.fb id ≠ 0 := by tauto
      rw [if_pos hact, Cmd.wp_bind]
      apply Cmd.wp_mono (planeTypeIsPrimary_spec id)
      rintro _ m' _ ⟨rfl, rfl⟩
      apply Cmd.wp_ite.mpr
      constructor
      · intro hdone
        have hprim : d.isPrimary id = true := hdone.2
        have hfound : (id :: d.active crtc ids).find? d.isPrimary = some id := by simp [hprim]
        show (if d.isPrimary id = true ∨ result = 0 then id else result) = _
        rw [hfound, if_pos (.inl hprim)]
        rfl
      · intro hgo
        have hprim : d.isPrimary id = false := by
          by_contra h
          refine hgo ⟨?_, by simpa using h⟩
          rw [if_pos (.inl (by simpa using h))]
          exact hid
        rw [List.find?_cons_of_neg (by simp [hprim])]
        apply Cmd.wp_mono (ih hrest _)
        rintro r _ _ rfl
        by_cases h0 : result = 0
        · simp [h0, hid, plane]
        · simp [h0, hprim]

/-- What `find_primary_plane` returns for the CRTC of the context. -/
theorem findPrimaryPlane_picks (hm : m.ctx.crtcId ≠ 0) :
    Cmd.wp d.env findPrimaryPlane
      (fun r _ _ => r = (d.pick d.isPrimary m.ctx.crtcId).getD 0) m () := by
  unfold findPrimaryPlane
  simp only [Cmd.wp_bind, Cmd.wp_call]
  refine ⟨trivial, ?_⟩
  rintro _ _ ⟨-, rfl⟩
  simp only [Cmd.wp_bind, wp_getCtx, targetCrtcOf, Cmd.wp_ite, Cmd.wp_pure, hm, false_imp_iff,
    not_false_eq_true, true_imp_iff, true_and]
  apply Cmd.wp_mono (searchPlanes_spec d.planes d.ids 0)
  rintro r _ _ rfl
  unfold pick
  cases (d.active m.ctx.crtcId d.planes).find? d.isPrimary <;> rfl

end Library

/-! The helper -/

/-- The loop of `grab_and_send`, with the whole of the plane it takes. -/
def matchPlane (targetCrtc : UInt32) : List UInt32 → Option Plane → H (Option Plane)
  | [], found => pure found
  | id :: ids, found => do
    match ← sys (.getPlane id) with
    | none => matchPlane targetCrtc ids found
    | some plane =>
      if (targetCrtc ≠ 0 ∧ plane.crtcId ≠ targetCrtc) ∨ plane.fbId = 0 then
        matchPlane targetCrtc ids found
      else do
        let isPrimary ← planeIsPrimary plane.planeId
        if isPrimary then pure (some plane)
        else matchPlane targetCrtc ids (found.or (some plane))

/-- The plane whose framebuffer a grab of this CRTC captures. -/
def capturedPlane (targetCrtc : UInt32) : H (Option Plane) := do
  match ← sys .getPlaneResources with
  | .error _ => pure none
  | .ok planes => matchPlane targetCrtc planes none

/-- What the loop keeps of a plane. -/
def scanout (plane : Option Plane) : UInt32 × UInt32 :=
  plane.elim (0, 0) fun plane => (plane.fbId, plane.crtcId)

theorem matchFramebuffer_eq (targetCrtc : UInt32) (ids : List UInt32) {found : Option Plane}
    (hfound : ∀ plane, found = some plane → plane.fbId ≠ 0) :
    matchFramebuffer targetCrtc ids (scanout found) = (do
      let plane ← matchPlane targetCrtc ids found
      pure (scanout plane)) := by
  induction ids generalizing found with
  | nil => rfl
  | cons id ids ih =>
    unfold matchFramebuffer matchPlane
    simp only [bind_assoc]
    congr! 1
    funext plane
    rcases plane with _ | plane
    · exact ih hfound
    · dsimp only
      by_cases hskip : (targetCrtc ≠ 0 ∧ plane.crtcId ≠ targetCrtc) ∨ plane.fbId = 0
      · rw [if_pos hskip, if_pos hskip]
        exact ih hfound
      · rw [if_neg hskip, if_neg hskip, bind_assoc]
        congr! 1
        funext isPrimary
        have hfb : plane.fbId ≠ 0 := fun h => hskip (.inr h)
        cases isPrimary with
        | true => rfl
        | false =>
          simp only [Bool.false_eq_true, if_false]
          cases found with
          | none =>
            have hnone : (scanout none).1 = 0 := rfl
            rw [if_pos hnone]
            apply @ih (some plane)
            rintro _ ⟨rfl⟩
            exact hfb
          | some first =>
            have hno : (scanout (some first)).1 ≠ 0 := hfound first rfl
            rw [if_neg hno]
            exact ih hfound

/-- The cache of the helper is that of this device, once it is filled. -/
def Cached (p : Helper) : Prop := p.primaryIds = none ∨ p.primaryIds = some d.cached

section Cache
variable {d : PlaneBoard} {crtc : UInt32} {p : Helper}

theorem take_of_take (n : ℕ) (l l' : List UInt32) : (l.take n ++ l').take n = (l ++ l').take n := by
  rw [List.take_append, List.take_append, List.take_take, min_self, List.length_take]
  congr 2
  omega

/-- The entries of a plane, as far as there is room. -/
theorem probeProps_spec (id : UInt32) (props : List (UInt32 × UInt64)) {ids : List UInt32}
    (hlen : ids.length ≤ maxPrimaryIds) : Cmd.wp d.env (probeProps id props ids) (fun r p' _ =>
      r = (ids ++ (props.filter d.saysPrimary).map fun _ => id).take maxPrimaryIds ∧
        p' = p) p () := by
  induction props generalizing ids with
  | nil =>
    refine ⟨?_, rfl⟩
    rw [List.filter_nil, List.map_nil, List.append_nil, List.take_of_length_le hlen]
  | cons q props ih =>
    unfold probeProps
    simp only [Cmd.wp_bind, Cmd.wp_call]
    refine ⟨trivial, ?_⟩
    rintro _ _ ⟨-, rfl⟩
    apply Cmd.wp_ite.mpr
    constructor
    · rintro ⟨hname, hval, hroom⟩
      have hsays : d.saysPrimary q = true := by
        simpa [saysPrimary] using ⟨Option.some.inj hname, hval⟩
      rw [List.filter_cons_of_pos hsays, List.map_cons,
        List.append_cons ids id ((props.filter d.saysPrimary).map fun _ => id)]
      apply ih
      rw [List.length_append]
      exact hroom
    · intro hno
      by_cases hsays : d.saysPrimary q = true
      · have hfull : ids.length = maxPrimaryIds := by
          have hcond : d.name q.1 = "type" ∧ q.2 = drmPlaneTypePrimary := by
            simpa [saysPrimary] using hsays
          refine le_antisymm hlen (not_lt.mp fun hroom => hno ⟨?_, hcond.2, hroom⟩)
          rw [hcond.1]
        apply Cmd.wp_mono (ih hlen)
        rintro r _ _ ⟨rfl, rfl⟩
        rw [List.take_append_of_le_length hfull.ge, List.take_append_of_le_length hfull.ge]
        exact ⟨rfl, rfl⟩
      · rw [List.filter_cons_of_neg hsays]
        exact ih hlen

theorem probePlanes_spec (planes : List UInt32) {ids : List UInt32}
    (hlen : ids.length ≤ maxPrimaryIds) : Cmd.wp d.env (probePlanes planes ids) (fun r p' _ =>
      r = (ids ++ planes.flatMap d.entries).take maxPrimaryIds ∧ p' = p) p () := by
  induction planes generalizing ids with
  | nil =>
    refine ⟨?_, rfl⟩
    rw [List.flatMap_nil, List.append_nil, List.take_of_length_le hlen]
  | cons id planes ih =>
    unfold probePlanes
    apply Cmd.wp_ite.mpr
    constructor
    · intro _
      simp only [Cmd.wp_bind, Cmd.wp_call]
      refine ⟨trivial, ?_⟩
      rintro _ _ ⟨-, rfl⟩
      rw [Cmd.wp_bind]
      apply Cmd.wp_mono (probeProps_spec id (d.props id) hlen)
      rintro _ _ _ ⟨rfl, rfl⟩
      apply Cmd.wp_mono (ih (List.length_take_le _ _))
      rintro r _ _ ⟨rfl, rfl⟩
      refine ⟨?_, rfl⟩
      rw [List.flatMap_cons, ← List.append_assoc, take_of_take]
      rfl
    · intro hfull
      have hle : maxPrimaryIds ≤ ids.length := not_lt.mp hfull
      refine ⟨?_, rfl⟩
      rw [List.take_append_of_le_length hle, List.take_of_length_le hlen]

theorem planeIsPrimary_spec (hp : d.Cached p) (id : UInt32) :
    Cmd.wp d.env (planeIsPrimary id)
      (fun r p' _ => r = d.cached.contains id ∧ d.Cached p') p () := by
  unfold planeIsPrimary
  simp only [Cmd.wp_bind, Cmd.wp_get]
  rcases hp with hp | hp
  · rw [hp]
    simp only [Cmd.wp_bind, Cmd.wp_modify, Cmd.wp_pure, probePrimaryIds, Cmd.wp_call]
    refine ⟨trivial, ?_⟩
    rintro _ _ ⟨-, rfl⟩
    apply Cmd.wp_mono (probePlanes_spec d.planes (Nat.zero_le _))
    rintro _ _ _ ⟨rfl, rfl⟩
    exact ⟨rfl, .inr rfl⟩
  · rw [hp]
    exact ⟨rfl, .inr hp⟩

theorem matchPlane_spec (hp : d.Cached p) (hcrtc : crtc ≠ 0) (ids : List UInt32)
    (found : Option Plane) : Cmd.wp d.env (matchPlane crtc ids found) (fun r p' _ =>
      r = (((d.active crtc ids).find? (d.cached.contains ·)).map d.plane).or
        (found.or ((d.active crtc ids).head?.map d.plane)) ∧ d.Cached p') p () := by
  induction ids generalizing found p with
  | nil =>
    refine ⟨?_, hp⟩
    show found = Option.or none (found.or none)
    simp
  | cons id ids ih =>
    unfold matchPlane
    simp only [Cmd.wp_bind, Cmd.wp_call]
    refine ⟨trivial, ?_⟩
    rintro _ _ ⟨-, rfl⟩
    rw [active_cons]
    apply Cmd.wp_ite.mpr
    constructor
    · intro (hskip : (crtc ≠ 0 ∧ d.crtc id ≠ crtc) ∨ d.fb id = 0)
      have hno : ¬ (d.crtc id = crtc ∧ d.fb id ≠ 0) := by tauto
      rw [if_neg hno]
      exact ih hp found
    · intro (hskip : ¬ ((crtc ≠ 0 ∧ d.crtc id ≠ crtc) ∨ d.fb id = 0))
      have hact : d.crtc id = crtc ∧ d.fb id ≠ 0 := by tauto
      rw [if_pos hact, Cmd.wp_bind]
      apply Cmd.wp_mono (planeIsPrimary_spec hp id)
      rintro _ p' _ ⟨rfl, hp'⟩
      apply Cmd.wp_ite.mpr
      constructor
      · intro hin
        rw [List.find?_cons_of_pos hin]
        exact ⟨rfl, hp'⟩
      · intro hout
        rw [List.find?_cons_of_neg hout]
        apply Cmd.wp_mono (ih hp' _)
        rintro r p'' _ ⟨rfl, hp''⟩
        refine ⟨?_, hp''⟩
        cases found <;> simp

/-- The plane that a grab captures. -/
theorem capturedPlane_picks (hp : d.Cached p) (hcrtc : crtc ≠ 0) :
    Cmd.wp d.env (capturedPlane crtc) (fun r p' _ =>
      r = (d.pick (d.cached.contains ·) crtc).map d.plane ∧ d.Cached p') p () := by
  unfold capturedPlane
  simp only [Cmd.wp_bind, Cmd.wp_call]
  refine ⟨trivial, ?_⟩
  rintro _ _ ⟨-, rfl⟩
  apply Cmd.wp_mono (matchPlane_spec hp hcrtc d.planes none)
  rintro r p' _ ⟨rfl, hp'⟩
  refine ⟨?_, hp'⟩
  unfold pick
  cases (d.active crtc d.planes).find? (d.cached.contains ·) <;> simp

end Cache

/-! Every command keeps the cache -/

/-- The cache stays that of the device. -/
def CacheKept (x y : Helper × Unit) : Prop := d.Cached x.1 → d.Cached y.1

instance : IsPreorder (Helper × Unit) d.CacheKept where
  refl _ := id
  trans _ _ _ h h' := h' ∘ h

/-- Code of the helper that keeps the cache. -/
abbrev KeepsCache {α : Type} (c : H α) : Prop := Cmd.Follows d.env d.CacheKept c

section Commands
variable {d : PlaneBoard} {α : Type} {sock : ℤ} {isVirtio : Bool}

theorem keepsCache_reads {P : Op → Prop} {c : H α} (hc : Cmd.Reads P c) : d.KeepsCache c :=
  .of_reads hc fun _ _ _ _ => ⟨trivial, fun _ _ _ => id⟩

theorem keepsCache_sys (o : Op) : d.KeepsCache (sys o : H (Ans o)) :=
  .call fun _ _ => ⟨trivial, fun _ _ _ => id⟩

theorem keepsCache_onHeap (f : Heap → Option (α × Heap)) : d.KeepsCache (onHeap f : H α) := by
  intro p s
  rw [wlp_onHeap]
  exact fun _ _ _ => id

theorem keepsCache_sendAll (bytes : List UInt8) : d.KeepsCache (wireSendAll sock bytes : H Bool) :=
  keepsCache_reads (wireSendAll_reads sock bytes)

theorem keepsCache_sendError : d.KeepsCache (sendError sock) :=
  .bind (keepsCache_sendAll _) fun _ => .pure _

theorem keepsCache_gemClose (handle : UInt32) : d.KeepsCache (helperGemClose handle) :=
  .ite (.pure ()) (keepsCache_sys _)

theorem keepsCache_mmap (src : MapSource) (size off : ℕ) :
    d.KeepsCache (mmap src size off : H (Except Errno Slice)) := by
  apply Cmd.Follows.bind (keepsCache_sys _)
  intro r
  cases r with
  | error e => exact .pure _
  | ok bytes => exact keepsCache_onHeap _

theorem keepsCache_munmap (mapped : Slice) : d.KeepsCache (munmap mapped : H Unit) :=
  .bind (keepsCache_sys _) fun _ => keepsCache_onHeap _

theorem keepsCache_refreshVirtio (fb2 : Fb2) : d.KeepsCache (refreshVirtio isVirtio fb2) := by
  apply Cmd.Follows.ite
  · apply Cmd.Follows.bind (keepsCache_sys _)
    intro r
    cases r with
    | some _ => exact .pure ()
    | none => exact .bind (keepsCache_sys _) fun _ => .pure ()
  · exact .pure ()

theorem keepsCache_detectVirtio : d.KeepsCache (detectVirtio isVirtio) := by
  apply Cmd.Follows.bind .get
  intro p
  apply Cmd.Follows.ite
  · exact .bind (keepsCache_sys _) fun _ => .modify fun _ _ => id
  · exact .pure ()

theorem keepsCache_buildMeta (fbId matchedCrtc : UInt32) (fb2 : Fb2) :
    d.KeepsCache (buildMeta fbId matchedCrtc fb2) := by
  apply Cmd.Follows.bind (keepsCache_reads (readHdr_reads _))
  intro hdr
  apply Cmd.Follows.bind (.modify fun _ _ => id)
  intro _
  apply Cmd.Follows.bind (keepsCache_sys _)
  intro timestamp
  exact .bind .get fun p => .pure _

theorem keepsCache_sendPixels (handle : UInt32) (size : ℕ) (reply : GrabWire) :
    d.KeepsCache (sendPixels sock handle size reply) := by
  apply Cmd.Follows.bind (keepsCache_sys _)
  intro r
  cases r with
  | error e => exact keepsCache_sendError
  | ok off =>
    apply Cmd.Follows.bind (keepsCache_mmap _ _ _)
    intro r
    cases r with
    | error e => exact keepsCache_sendError
    | ok mapped =>
      apply Cmd.Follows.bind (keepsCache_sendAll _)
      intro sent
      apply Cmd.Follows.ite
      · apply Cmd.Follows.bind (keepsCache_onHeap _)
        intro pixels
        apply Cmd.Follows.bind (keepsCache_sendAll _)
        intro sent
        exact .bind (keepsCache_munmap _) fun _ => .pure _
      · exact .bind (keepsCache_munmap _) fun _ => .pure _

theorem keepsCache_sendFramebuffer (handle : UInt32) (size : ℕ) (reply : GrabWire) :
    d.KeepsCache (sendFramebuffer sock isVirtio handle size reply) := by
  apply Cmd.Follows.ite
  · apply Cmd.Follows.bind .get
    intro p
    apply Cmd.Follows.bind (keepsCache_sys _)
    intro r
    cases r with
    | ok fd =>
      apply Cmd.Follows.bind (keepsCache_reads (wireSendFd_reads _ _ _))
      intro sent
      exact .bind (keepsCache_sys _) fun _ => .pure _
    | error e => exact .ite keepsCache_sendError (keepsCache_sendPixels _ _ _)
  · exact keepsCache_sendPixels _ _ _

theorem keepsCache_grabFramebuffer (fbId matchedCrtc : UInt32) :
    d.KeepsCache (grabFramebuffer sock isVirtio fbId matchedCrtc) := by
  apply Cmd.Follows.bind (keepsCache_sys _)
  intro r
  cases r with
  | error e => exact keepsCache_sendError
  | ok fb2 =>
    apply Cmd.Follows.ite keepsCache_sendError
    apply Cmd.Follows.ite
    · exact .bind (keepsCache_gemClose _) fun _ => keepsCache_sendError
    · apply Cmd.Follows.bind
      · apply Cmd.Follows.bind (keepsCache_refreshVirtio fb2)
        intro _
        apply Cmd.Follows.bind keepsCache_detectVirtio
        intro _
        exact .bind (keepsCache_buildMeta _ _ _) fun _ => keepsCache_sendFramebuffer _ _ _
      · intro ret
        exact .bind (keepsCache_gemClose _) fun _ => .pure _

theorem keepsCache_planeIsPrimary (id : UInt32) : d.KeepsCache (planeIsPrimary id) := by
  intro p s
  by_cases hp : d.Cached p
  · apply Cmd.wlp_mono (Cmd.wlp_of_wp (planeIsPrimary_spec hp id))
    intro r p' _ h _
    exact h.2
  · apply Cmd.wlp_mono (Cmd.wlp_true (fun _ _ => trivial) (planeIsPrimary id) p s)
    intro r p' _ _ hp'
    exact absurd hp' hp

theorem keepsCache_matchFramebuffer (targetCrtc : UInt32) (ids : List UInt32)
    (found : UInt32 × UInt32) : d.KeepsCache (matchFramebuffer targetCrtc ids found) := by
  induction ids generalizing found with
  | nil => exact .pure found
  | cons id ids ih =>
    apply Cmd.Follows.bind (keepsCache_sys _)
    intro r
    cases r with
    | none => exact ih found
    | some plane =>
      apply Cmd.Follows.ite (ih found)
      apply Cmd.Follows.bind (keepsCache_planeIsPrimary _)
      intro isPrimary
      apply Cmd.Follows.ite (.pure _)
      exact .ite (ih _) (ih found)

theorem keepsCache_grabAndSend (targetCrtc : UInt32) :
    d.KeepsCache (grabAndSend sock targetCrtc isVirtio) := by
  apply Cmd.Follows.bind (keepsCache_sys _)
  intro r
  cases r with
  | error e => exact keepsCache_sendError
  | ok planes =>
    apply Cmd.Follows.bind (keepsCache_matchFramebuffer _ _ _)
    intro found
    exact .ite keepsCache_sendError (keepsCache_grabFramebuffer _ _)

theorem keepsCache_sendCursorMeta (reply : CursorWire) (extended : Bool) :
    d.KeepsCache (do
      let _ ← sendCursorMeta sock reply extended
      pure ()) :=
  .bind (keepsCache_sendAll _) fun _ => .pure ()

theorem keepsCache_mapCursor (handle : UInt32) (size : ℕ) :
    d.KeepsCache (mapCursor handle size) := by
  apply Cmd.Follows.bind (keepsCache_sys _)
  intro r
  cases r with
  | error e => exact .pure none
  | ok fd =>
    apply Cmd.Follows.bind (keepsCache_mmap _ _ _)
    intro r
    cases r with
    | error e => exact .bind (keepsCache_sys _) fun _ => .pure none
    | ok mapped => exact .pure _

theorem keepsCache_readCursor (mapped : Slice) (fd : ℕ) (fb2 : Fb2) :
    d.KeepsCache (readCursor mapped fd fb2) := by
  apply Cmd.Follows.bind (keepsCache_sys _)
  intro started
  apply Cmd.Follows.bind (keepsCache_onHeap _)
  intro pixels
  exact .ite (.bind (keepsCache_sys _) fun _ => .pure _) (.pure _)

theorem keepsCache_sendCursor (extended : Bool) (reply : CursorWire) (fb2 : Fb2) :
    d.KeepsCache (sendCursor sock extended reply fb2) := by
  apply Cmd.Follows.ite
  · exact .bind (keepsCache_gemClose _) fun _ => keepsCache_sendCursorMeta _ _
  · apply Cmd.Follows.bind (keepsCache_mapCursor _ _)
    intro r
    cases r with
    | none => exact .bind (keepsCache_gemClose _) fun _ => keepsCache_sendCursorMeta _ _
    | some found =>
      apply Cmd.Follows.bind (keepsCache_readCursor _ _ _)
      intro pixels
      apply Cmd.Follows.bind (keepsCache_munmap _)
      intro _
      apply Cmd.Follows.bind (keepsCache_sys _)
      intro _
      apply Cmd.Follows.bind (keepsCache_gemClose _)
      intro _
      apply Cmd.Follows.bind (keepsCache_sendAll _)
      intro _
      exact .bind (keepsCache_sendAll _) fun _ => .pure ()

theorem keepsCache_cursorAndSend (targetCrtc : UInt32) (extended : Bool) :
    d.KeepsCache (cursorAndSend sock targetCrtc extended) := by
  apply Cmd.Follows.bind (keepsCache_sys _)
  intro r
  cases r with
  | error e => exact keepsCache_sendCursorMeta _ _
  | ok planes =>
    apply Cmd.Follows.bind (keepsCache_reads (matchCursor_reads targetCrtc planes))
    intro found
    apply Cmd.Follows.ite (keepsCache_sendCursorMeta _ _)
    apply Cmd.Follows.bind (keepsCache_reads (cursorPlacement_reads _))
    intro reply
    apply Cmd.Follows.bind (keepsCache_sys _)
    intro r
    cases r with
    | error e => exact keepsCache_sendCursorMeta _ _
    | ok fb2 => exact .ite (keepsCache_sendCursorMeta _ _) (keepsCache_sendCursor _ _ _)

theorem keepsCache_serveOne : d.KeepsCache (serveOne sock isVirtio) := by
  apply Cmd.Follows.bind (keepsCache_reads (wireRecvAll_reads sock _))
  intro r
  cases r with
  | none => exact .pure _
  | some bytes =>
    apply Cmd.Follows.ite (.pure _)
    apply Cmd.Follows.ite
    · exact .bind (keepsCache_grabAndSend _) fun _ => .pure _
    apply Cmd.Follows.ite
    · exact .bind (keepsCache_cursorAndSend _ _) fun _ => .pure _
    apply Cmd.Follows.ite
    · exact .bind (keepsCache_cursorAndSend _ _) fun _ => .pure _
    · exact .pure _

end Commands

/-- The helper serves a command of this device. -/
def Served (sock : ℤ) (isVirtio : Bool) (p p' : Helper) : Prop :=
  Cmd.Runs d.env (serveOne sock isVirtio) p () (.inl ()) p' ()

theorem Cached.of_served {sock : ℤ} {isVirtio : Bool} {p : Helper}
    (hrun : Relation.ReflTransGen (d.Served sock isVirtio) .start p) : d.Cached p := by
  induction hrun with
  | refl => exact .inl rfl
  | tail _ hserved ih => exact Cmd.wlp_runs (E := d.env) (keepsCache_serveOne _ _) hserved ih

/-- A grab is of the plane that it captures. -/
theorem grabAndSend_eq (sock : ℤ) (targetCrtc : UInt32) (isVirtio : Bool) :
    grabAndSend sock targetCrtc isVirtio = (do
      let captured ← capturedPlane targetCrtc
      if (scanout captured).1 = 0 then sendError sock
      else grabFramebuffer sock isVirtio (scanout captured).1 (scanout captured).2) := by
  unfold grabAndSend capturedPlane
  simp only [bind_assoc]
  congr! 1
  funext r
  cases r with
  | error e => rfl
  | ok planes =>
    have hnone : ∀ plane : Plane, none = some plane → plane.fbId ≠ 0 := by
      intro plane h
      cases h
    have hmatch : matchFramebuffer targetCrtc planes (0, 0) = _ :=
      matchFramebuffer_eq targetCrtc planes hnone
    dsimp only
    rw [hmatch, bind_assoc]
    rfl

theorem pick_ne_zero {prim : UInt32 → Bool} {crtc id : UInt32} (h : d.pick prim crtc = some id) :
    id ≠ 0 := by
  have hmem : id ∈ d.active crtc d.planes := by
    unfold pick at h
    rcases Option.or_eq_some_iff.mp h with hfind | ⟨-, hhead⟩
    · exact List.mem_of_find?_eq_some hfind
    · exact List.mem_of_mem_head? hhead
  exact d.ids id (List.mem_of_mem_filter hmem)

/-- No plane at all is told from every plane by its id. -/
theorem getD_pick_iff {prim prim' : UInt32 → Bool} {crtc : UInt32} :
    (d.pick prim crtc).getD 0 = (d.pick prim' crtc).getD 0 ↔
      d.pick prim crtc = d.pick prim' crtc := by
  constructor
  · intro h
    cases hp : d.pick prim crtc with
    | none =>
      cases hp' : d.pick prim' crtc with
      | none => rfl
      | some id' =>
        rw [hp, hp'] at h
        exact absurd h.symm (d.pick_ne_zero hp')
    | some id =>
      cases hp' : d.pick prim' crtc with
      | none =>
        rw [hp, hp'] at h
        exact absurd h (d.pick_ne_zero hp)
      | some id' =>
        rw [hp, hp'] at h
        exact congrArg some h
  · intro h
    rw [h]

/-- Where planes keep their state, a grab captures the plane that `find_primary_plane` returns,
and whose rotation is reported, exactly where the cache has seen enough of them. -/
theorem captures_found_iff {sock : ℤ} {isVirtio : Bool} {p p' : Helper} {m m' : Machine}
    {planeId : UInt32} {captured : Option Plane}
    (hrun : Relation.ReflTransGen (d.Served sock isVirtio) .start p) (hcrtc : m.ctx.crtcId ≠ 0)
    (hcaptured : Cmd.Runs d.env (capturedPlane m.ctx.crtcId) p () captured p' ())
    (hfound : Cmd.Runs d.env findPrimaryPlane m () planeId m' ()) :
    (grabAndSend sock m.ctx.crtcId isVirtio = do
      let captured ← capturedPlane m.ctx.crtcId
      if (scanout captured).1 = 0 then sendError sock
      else grabFramebuffer sock isVirtio (scanout captured).1 (scanout captured).2) ∧
    planeId = (d.pick d.isPrimary m.ctx.crtcId).getD 0 ∧
    (m.ctx.grabPlaneId = 0 → rotationPlane m.ctx = findPrimaryPlane) ∧
    (captured.elim 0 Plane.planeId = planeId ↔ d.Seen m.ctx.crtcId) := by
  have hcache : d.Cached p := .of_served d hrun
  have hcap := (Cmd.wp_runs (E := d.env) (capturedPlane_picks hcache hcrtc) hcaptured).1
  have hid : planeId = (d.pick d.isPrimary m.ctx.crtcId).getD 0 :=
    Cmd.wp_runs (E := d.env) (findPrimaryPlane_picks hcrtc) hfound
  have helim : captured.elim 0 Plane.planeId =
      (d.pick (d.cached.contains ·) m.ctx.crtcId).getD 0 := by
    rw [hcap]
    cases d.pick (d.cached.contains ·) m.ctx.crtcId <;> rfl
  refine ⟨grabAndSend_eq _ _ _, hid, fun h => if_neg (not_not.mpr h), ?_⟩
  rw [helim, hid, d.getD_pick_iff, d.pick_cached_iff]

/-- A device whose answers are those of the board. -/
def device : (o : Op) → Ans o
  | .getPlaneResources => .ok d.planes
  | .getPlane id => some (d.plane id)
  | .objectGetProperties id .plane => some (d.props id)
  | .getProperty id => some (d.name id)
  | o => oneScanout (scanoutOf fun _ => 1) o

theorem device_runs {S α : Type} {c : Cmd S Op Ans α} {p : S} {a : α}
    (he : (c.exec 100 (Cmd.still d.device) p ()).map (fun x => x.1.1) = some a) :
    ∃ p', Cmd.Runs d.env c p () a p' () := by
  obtain ⟨⟨⟨b, p'⟩, u⟩, hb, rfl⟩ := Option.map_eq_some_iff.mp he
  refine ⟨p', Cmd.exec_runs (E := d.env) ?_ hb⟩
  intro s o r s' hs
  obtain ⟨rfl, rfl⟩ := Prod.mk.inj (Option.some.inj hs)
  refine ⟨trivial, ?_⟩
  unfold Allows
  split <;> first | rfl | trivial

/-- An overlay and the last one of `n` PRIMARY planes, both on CRTC 1. -/
def crowded (n : ℕ) : PlaneBoard where
  planes := (100 :: (List.range' 1 n).map UInt32.ofNat).filter (· ≠ 0)
  crtc id := if id = 100 ∨ id = UInt32.ofNat n then 1 else 0
  fb id := if id = 100 ∨ id = UInt32.ofNat n then id else 0
  props id := [(1, if id = 100 then 0 else drmPlaneTypePrimary)]
  name _ := "type"
  ids := by simp

/-- A context on CRTC 1. -/
def onFirstCrtc : Machine := ⟨.opened "i915" 1, .empty⟩

theorem captures_found_iff_two : (crowded 2).Seen 1 := by
  have hrun : Relation.ReflTransGen ((crowded 2).Served 0 false) .start .start := .refl
  obtain ⟨p', hcaptured⟩ : ∃ p', Cmd.Runs (crowded 2).env (capturedPlane onFirstCrtc.ctx.crtcId)
      .start () (some ⟨2, 1, 2⟩) p' () := device_runs _ rfl
  obtain ⟨m', hfound⟩ : ∃ m', Cmd.Runs (crowded 2).env findPrimaryPlane onFirstCrtc () 2 m' () :=
    device_runs _ rfl
  exact (captures_found_iff (crowded 2) hrun (by decide) hcaptured hfound).2.2.2.mp rfl

/-- With 33 PRIMARY planes, the last one is not in the cache, and the overlay is captured. -/
theorem captures_overlay : ¬ ∀ (d : PlaneBoard) (sock : ℤ) (isVirtio : Bool) (p p' : Helper)
    (m m' : Machine) (planeId : UInt32) (captured : Option Plane),
    Relation.ReflTransGen (d.Served sock isVirtio) .start p → m.ctx.crtcId ≠ 0 →
      Cmd.Runs d.env (capturedPlane m.ctx.crtcId) p () captured p' () →
      Cmd.Runs d.env findPrimaryPlane m () planeId m' () →
        captured.elim 0 Plane.planeId = planeId := by
  intro h
  obtain ⟨p', hcaptured⟩ : ∃ p', Cmd.Runs (crowded 33).env (capturedPlane onFirstCrtc.ctx.crtcId)
      .start () (some ⟨100, 1, 100⟩) p' () := device_runs _ rfl
  obtain ⟨m', hfound⟩ : ∃ m', Cmd.Runs (crowded 33).env findPrimaryPlane onFirstCrtc () 33 m' () :=
    device_runs _ (by decide +kernel)
  have heq := h (crowded 33) 0 false .start p' onFirstCrtc m' 33 _ .refl (by decide) hcaptured
    hfound
  exact absurd heq (by decide)

end PlaneBoard

end Drmtap
