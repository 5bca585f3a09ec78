import Drmtap.DisplayCapacity
import Drmtap.Lib.Mixing

/-! Hotplug detection: the signature that a context caches tells two topologies apart wherever a
single value that goes into it differs. -/
namespace Drmtap

open Effect

/-- The mode of a CRTC, as it goes into the signature. -/
structure ModeView where
  valid : UInt32
  hdisplay : UInt16
  vdisplay : UInt16
  vrefresh : UInt32

/-- A connector, as it goes into the signature. -/
inductive ConnectorView where
  | missing (id : UInt32)
  | present (id connection crtc : UInt32) (mode : Option ModeView)

/-- What `topology_hash` reads. -/
structure Topology where
  countConnectors : UInt32
  countCrtcs : UInt32
  connectors : List ConnectorView

/-! The folded values -/

def ModeView.folded (m : ModeView) : List UInt32 :=
  [m.valid, m.hdisplay.toUInt32, m.vdisplay.toUInt32, m.vrefresh]

def ConnectorView.folded : ConnectorView → List UInt32
  | .missing id => [id]
  | .present id connection crtc none => [id, connection, crtc]
  | .present id connection crtc (some mode) => id :: connection :: crtc :: mode.folded

def Topology.folded (t : Topology) : List UInt32 :=
  t.countConnectors :: t.countCrtcs :: t.connectors.flatMap ConnectorView.folded

/-- The hash of a sequence of values. -/
def thHash (values : List UInt32) : UInt64 := values.foldl thFold 1469598103934665603

/-! What the kernel tells -/

/-- A connector that is bound to a CRTC. -/
def ConnectorView.bind (crtc : UInt32) : ConnectorView → ConnectorView
  | .present id connection _ mode => .present id connection crtc mode
  | view => view

/-- A connector whose CRTC shows a mode. -/
def ConnectorView.light (mode : ModeView) : ConnectorView → ConnectorView
  | .present id connection crtc _ => .present id connection crtc (some mode)
  | view => view

def Topology.add (t : Topology) (view : ConnectorView) : Topology :=
  { t with connectors := t.connectors ++ [view] }

/-- A change of the connector that was told of last. -/
def Topology.amend (t : Topology) (f : ConnectorView → ConnectorView) : Topology :=
  { t with connectors := t.connectors.modifyLast f }

theorem Topology.amend_add (t : Topology) (view : ConnectorView) (f : ConnectorView → ConnectorView) :
    (t.add view).amend f = t.add (f view) := by
  simp [amend, add, List.modifyLast_concat]

/-- What the kernel has told of the topology in a call, and the properties that it has listed but
not yet named. -/
structure Told where
  topology : Option Topology
  unnamed : List (UInt32 × UInt64)

namespace Told

def start : Told := ⟨none, []⟩

def change (s : Told) (f : Topology → Topology) : Told := { s with topology := s.topology.map f }

/-- The next property is named. -/
def name (s : Told) (name : Option String) : Told :=
  match s.unnamed with
  | [] => s
  | (_, value) :: rest =>
    let s := { s with unnamed := rest }
    if name = some "CRTC_ID" then s.change fun t => t.amend (.bind value.toUInt32) else s

def note (s : Told) : (o : EnumOp) → EnumAns o → Told
  | .getResources, some res => ⟨some ⟨res.connectors.length.toUInt32, res.countCrtcs, []⟩, []⟩
  | .getConnectorCurrent id, none => s.change fun t => t.add (.missing id)
  | .getConnectorCurrent _, some conn =>
    s.change fun t => t.add (.present conn.connectorId conn.connection 0 none)
  | .getProperties _, some props => { s with unnamed := props }
  | .getProperty _, name => s.name name
  | .getCrtc _, some c => s.change fun t =>
    t.amend (.light ⟨c.modeValid, c.mode.hdisplay, c.mode.vdisplay, c.mode.vrefresh⟩)
  | _, _ => s

end Told

/-- A kernel that answers in any way, with what it tells. -/
abbrev tellingEnv : Env EnumOp EnumAns := .noting Told.note

/-! One value that differs -/

/-- Two sequences differ in a single value. -/
def DifferInOne (l l' : List UInt32) : Prop :=
  ∃ before v v' after, v ≠ v' ∧ l = before ++ v :: after ∧ l' = before ++ v' :: after

/-- A change of the mode that a CRTC shows, in one value. -/
inductive ModeView.Changes (m : ModeView) : ModeView → Prop where
  | valid (v : UInt32) (h : v ≠ m.valid) : m.Changes { m with valid := v }
  | hdisplay (v : UInt16) (h : v ≠ m.hdisplay) : m.Changes { m with hdisplay := v }
  | vdisplay (v : UInt16) (h : v ≠ m.vdisplay) : m.Changes { m with vdisplay := v }
  | vrefresh (v : UInt32) (h : v ≠ m.vrefresh) : m.Changes { m with vrefresh := v }

/-- A plug or unplug, a move from one CRTC to another whose mode is equal, or a modeset. -/
inductive ConnectorView.Changes : ConnectorView → ConnectorView → Prop where
  | connection {id c c' crtc : UInt32} {mode : Option ModeView} (h : c ≠ c') :
      Changes (.present id c crtc mode) (.present id c' crtc mode)
  | crtc {id c crtc crtc' : UInt32} {mode : Option ModeView} (h : crtc ≠ crtc') (h0 : crtc ≠ 0)
      (h0' : crtc' ≠ 0) : Changes (.present id c crtc mode) (.present id c crtc' mode)
  | mode {id c crtc : UInt32} {m m' : ModeView} (h : m.Changes m') :
      Changes (.present id c crtc (some m)) (.present id c crtc (some m'))

/-- One connector changes. -/
def Topology.Changes (t t' : Topology) : Prop :=
  ∃ before c c' after, c.Changes c' ∧ t.connectors = before ++ c :: after ∧
    t' = { t with connectors := before ++ c' :: after }

theorem DifferInOne.append {l l' : List UInt32} (h : DifferInOne l l') (first last : List UInt32) :
    DifferInOne (first ++ l ++ last) (first ++ l' ++ last) := by
  obtain ⟨before, v, v', after, hne, rfl, rfl⟩ := h
  exact ⟨first ++ before, v, v', after ++ last, hne, by simp, by simp⟩

theorem ModeView.Changes.differInOne {m m' : ModeView} (h : m.Changes m') :
    DifferInOne m.folded m'.folded := by
  cases h with
  | valid v h => exact ⟨[], _, _, _, h.symm, rfl, rfl⟩
  | hdisplay v h =>
    exact ⟨[m.valid], _, _, _, fun he => h (UInt16.toUInt32_inj.mp he).symm, rfl, rfl⟩
  | vdisplay v h =>
    exact ⟨[m.valid, _], _, _, _, fun he => h (UInt16.toUInt32_inj.mp he).symm, rfl, rfl⟩
  | vrefresh v h => exact ⟨[m.valid, _, _], _, _, _, h.symm, rfl, rfl⟩

theorem ConnectorView.Changes.differInOne {c c' : ConnectorView} (h : c.Changes c') :
    DifferInOne c.folded c'.folded := by
  cases h with
  | @connection id _ _ crtc mode h =>
    cases mode with
    | none => exact ⟨[id], _, _, _, h, rfl, rfl⟩
    | some m => exact ⟨[id], _, _, _, h, rfl, rfl⟩
  | @crtc id c _ _ mode h =>
    cases mode with
    | none => exact ⟨[id, c], _, _, _, h, rfl, rfl⟩
    | some m => exact ⟨[id, c], _, _, _, h, rfl, rfl⟩
  | @mode id c crtc m m' h =>
    have h' := h.differInOne.append [id, c, crtc] []
    rwa [List.append_nil, List.append_nil] at h'

theorem Topology.Changes.differInOne {t t' : Topology} (h : t.Changes t') :
    DifferInOne t.folded t'.folded := by
  obtain ⟨before, c, c', after, hc, ht, rfl⟩ := h
  have h' := hc.differInOne.append
    (t.countConnectors :: t.countCrtcs :: before.flatMap ConnectorView.folded)
    (after.flatMap ConnectorView.folded)
  simp only [Topology.folded, ht, List.flatMap_append, List.flatMap_cons]
  simpa only [List.cons_append, List.append_assoc] using h'

/-! The steps of the hash -/

@[simp] theorem DisplayCtx.cache_hash (ctx : DisplayCtx) (h : UInt64) :
    (ctx.cache h).cachedTopologyHash = h := rfl

section Telling
variable {ctx : DisplayCtx} {told : Told} {t : Topology}

theorem telling_call {o : EnumOp} {Q : EnumAns o → DisplayCtx → Told → Prop}
    (h : ∀ r, Q r ctx (told.note o r)) : Cmd.wp tellingEnv (drm o) Q ctx told := by
  refine ⟨trivial, ?_⟩
  intro r told' hs
  have hs : told' = told.note o r := hs
  subst hs
  exact h r

theorem findCrtcId_tells {id connection : UInt32} (props : List (UInt32 × UInt64)) :
    Cmd.wp tellingEnv (findCrtcId props) (fun crtc ctx' told' => ctx' = ctx ∧
      told'.topology = some (t.add (.present id connection crtc none))) ctx
      ⟨some (t.add (.present id connection 0 none)), props⟩ := by
  induction props with
  | nil => exact ⟨rfl, rfl⟩
  | cons p props ih =>
    unfold findCrtcId
    rw [Cmd.wp_bind]
    apply telling_call
    intro name
    cases name with
    | none => exact ih
    | some name =>
      dsimp only
      rw [Cmd.wp_ite]
      constructor
      · intro hname
        subst hname
        refine ⟨rfl, ?_⟩
        show some ((t.add _).amend _) = _
        rw [Topology.amend_add]
        rfl
      · intro hname
        have hother : ¬ some name = some "CRTC_ID" := fun h => hname (Option.some.inj h)
        simp only [Told.note, Told.name, if_neg hother]
        exact ih

theorem connectorCrtcFromAtomic_tells {connection : UInt32} (id : UInt32) (htold : told.topology =
      some (t.add (.present id connection 0 none))) :
    Cmd.wp tellingEnv (connectorCrtcFromAtomic id) (fun crtc ctx' told' => ctx' = ctx ∧
      told'.topology = some (t.add (.present id connection crtc none))) ctx told := by
  unfold connectorCrtcFromAtomic
  rw [Cmd.wp_bind]
  apply telling_call
  intro props
  cases props with
  | none => exact ⟨rfl, htold⟩
  | some props =>
    simp only [Told.note]
    rw [htold]
    exact findCrtcId_tells props

theorem foldConnector_tells (h : UInt64) (id : UInt32) (htold : told.topology = some t) :
    Cmd.wp tellingEnv (foldConnector h id) (fun h' ctx' told' => ctx' = ctx ∧
      ∃ view, told'.topology = some (t.add view) ∧ h' = view.folded.foldl thFold h) ctx told := by
  unfold foldConnector
  rw [Cmd.wp_bind]
  apply telling_call
  intro conn
  cases conn with
  | none => exact ⟨rfl, .missing id, congrArg (Option.map _) htold, rfl⟩
  | some conn =>
    have hadded : (told.note (.getConnectorCurrent id) (some conn)).topology =
        some (t.add (.present conn.connectorId conn.connection 0 none)) :=
      congrArg (Option.map _) htold
    dsimp only
    rw [Cmd.wp_bind]
    apply Cmd.wp_mono (connectorCrtcFromAtomic_tells _ hadded)
    intro crtc ctx' told' hcrtc
    obtain ⟨hctx, htopology⟩ := hcrtc
    subst hctx
    rw [Cmd.wp_ite]
    constructor
    · intro _
      rw [Cmd.wp_bind]
      apply telling_call
      intro c
      cases c with
      | none => exact ⟨rfl, _, htopology, rfl⟩
      | some c =>
        refine ⟨rfl, .present conn.connectorId conn.connection crtc
          (some ⟨c.modeValid, c.mode.hdisplay, c.mode.vdisplay, c.mode.vrefresh⟩), ?_, ?_⟩
        · show told'.topology.map _ = _
          rw [htopology]
          exact congrArg some (Topology.amend_add t _ _)
        · rfl
    · intro _
      exact ⟨rfl, _, htopology, rfl⟩

theorem foldConnectors_tells (ids : List UInt32) (h : UInt64) (htold : told.topology = some t) :
    Cmd.wp tellingEnv (foldConnectors ids h) (fun h' ctx' told' => ctx' = ctx ∧
      ∃ views, told'.topology = some { t with connectors := t.connectors ++ views } ∧
        h' = (views.flatMap ConnectorView.folded).foldl thFold h) ctx told := by
  induction ids generalizing h t told with
  | nil => exact ⟨rfl, [], by rw [htold, List.append_nil], rfl⟩
  | cons id ids ih =>
    unfold foldConnectors
    rw [Cmd.wp_bind]
    apply Cmd.wp_mono (foldConnector_tells h id htold)
    intro h₁ ctx₁ told₁ hone
    obtain ⟨hctx, view, htold₁, hview⟩ := hone
    subst hctx hview
    apply Cmd.wp_mono (ih _ htold₁)
    intro h₂ ctx₂ told₂ hrest
    obtain ⟨hctx, views, htold₂, hviews⟩ := hrest
    refine ⟨hctx, view :: views, ?_, ?_⟩
    · rw [htold₂]
      simp [Topology.add]
    · rw [hviews, List.flatMap_cons, List.foldl_append]

/-- What is hashed is what the kernel tells of the topology. -/
theorem topologyHash_tells (res : DisplayResources) (htold : told.topology =
      some ⟨res.connectors.length.toUInt32, res.countCrtcs, []⟩) :
    Cmd.wp tellingEnv (topologyHash res) (fun h ctx' told' => ctx' = ctx ∧
      ∃ t, told'.topology = some t ∧ h = thHash t.folded) ctx told := by
  apply Cmd.wp_mono (foldConnectors_tells res.connectors _ htold)
  intro h ctx' told' hfold
  obtain ⟨hctx, views, htold', hh⟩ := hfold
  refine ⟨hctx, _, htold', ?_⟩
  simpa only [thHash, Topology.folded, List.foldl_cons, List.nil_append] using hh

/-- The connectors are listed before the topology is hashed. -/
theorem listConnectors_tells (maxCount : ℕ) (ids : List UInt32) (found : ℕ) (out : ℕ → Display)
    (htold : told.topology = some { t with connectors := [] }) :
    Cmd.wp tellingEnv (listConnectors maxCount ids found out) (fun _ ctx' told' => ctx' = ctx ∧
      told'.topology = some { t with connectors := [] }) ctx told := by
  have hdetail {α : Type} {m : EnumM α} (hm : Cmd.Reads DetailOp m) (told : Told)
      (htold : told.topology = some { t with connectors := [] }) :
      Cmd.wp tellingEnv m (fun _ ctx' told' => ctx' = ctx ∧
        told'.topology = some { t with connectors := [] }) ctx told := by
    apply hm.wp_inv (E := tellingEnv) (I := fun s => s.topology = some { t with connectors := [] })
      _ ctx htold
    intro s o ho hs
    refine ⟨trivial, ?_⟩
    intro r s' hstep
    have hstep : s' = s.note o r := hstep
    subst hstep
    cases o with
    | getEncoder id => exact hs
    | getCrtc id =>
      cases r with
      | none => exact hs
      | some c =>
        show s.topology.map _ = _
        rw [hs]
        rfl
    | getProperties id => cases r <;> exact hs
    | getProperty id =>
      simp only [Told.note, Told.name]
      split
      · exact hs
      · split
        · show s.topology.map _ = _
          rw [hs]
          rfl
        · exact hs
    | _ => exact ho.elim
  induction ids generalizing found out told with
  | nil => exact ⟨rfl, htold⟩
  | cons id ids ih =>
    unfold listConnectors
    rw [Cmd.wp_bind]
    apply telling_call
    intro conn
    cases conn with
    | none => exact ih found out htold
    | some conn =>
      dsimp only
      rw [Cmd.wp_ite]
      constructor
      · intro _
        exact ih found out htold
      · intro _
        rw [Cmd.wp_bind]
        apply Cmd.wp_mono (hdetail (attachedCrtc_reads conn) _ htold)
        intro crtcId ctx₁ told₁ h₁
        obtain ⟨hctx, htold₁⟩ := h₁
        subst hctx
        rw [Cmd.wp_ite]
        constructor
        · intro _
          rw [Cmd.wp_bind]
          apply Cmd.wp_mono (hdetail (fillDisplay_reads conn crtcId) _ htold₁)
          intro d ctx₂ told₂ h₂
          obtain ⟨hctx, htold₂⟩ := h₂
          subst hctx
          exact ih _ _ htold₂
        · intro _
          exact ih _ _ htold₁

/-- What a call does to the signature: nothing, unless it is told of a topology. -/
def Caches (ctx ctx' : DisplayCtx) : Option Topology → Prop
  | none => ctx' = ctx
  | some t => ctx'.cachedTopologyHash = thHash t.folded

theorem drmtapListDisplays_caches (out : Option (ℕ → Display)) (maxCount : ℤ) :
    Cmd.wp tellingEnv (drmtapListDisplays out maxCount)
      (fun _ ctx' told => Caches ctx ctx' told.topology) ctx .start := by
  cases out with
  | none => exact rfl
  | some out =>
    dsimp only [drmtapListDisplays]
    rw [Cmd.wp_ite]
    refine ⟨fun _ => rfl, fun _ => ?_⟩
    rw [Cmd.wp_bind, Cmd.wp_get, Cmd.wp_ite]
    refine ⟨fun _ => rfl, fun _ => ?_⟩
    rw [Cmd.wp_bind]
    apply telling_call
    intro res
    cases res with
    | none => exact rfl
    | some res =>
      dsimp only
      rw [Cmd.wp_bind]
      apply Cmd.wp_mono (listConnectors_tells (t := ⟨_, _, []⟩) _ _ _ _ rfl)
      intro found ctx₁ told₁ h₁
      obtain ⟨hctx, htold₁⟩ := h₁
      subst hctx
      rw [Cmd.wp_bind]
      apply Cmd.wp_mono (topologyHash_tells res htold₁)
      intro h ctx₂ told₂ h₂
      obtain ⟨hctx, t, htold₂, hh⟩ := h₂
      subst hctx hh
      rw [Cmd.wp_bind, Cmd.wp_modify, Cmd.wp_pure, htold₂]
      exact DisplayCtx.cache_hash _ _

/-- A check compares the signature of what it is told with the cached one, and caches it. -/
theorem drmtapDisplaysChanged_compares :
    Cmd.wp tellingEnv drmtapDisplaysChanged (fun ret ctx' told => Caches ctx ctx' told.topology ∧
      ∀ t, told.topology = some t →
        ret = if thHash t.folded ≠ ctx.cachedTopologyHash then 1 else 0) ctx .start := by
  have hnone {ret : ℤ} : ∀ t : Topology, none = some t →
      ret = if thHash t.folded ≠ ctx.cachedTopologyHash then 1 else 0 := fun t h => by cases h
  unfold drmtapDisplaysChanged
  rw [Cmd.wp_bind, Cmd.wp_get, Cmd.wp_ite]
  refine ⟨fun _ => ⟨rfl, hnone⟩, fun _ => ?_⟩
  rw [Cmd.wp_bind]
  apply telling_call
  intro res
  cases res with
  | none => exact ⟨rfl, hnone⟩
  | some res =>
    dsimp only
    rw [Cmd.wp_bind]
    apply Cmd.wp_mono (topologyHash_tells res rfl)
    intro h ctx₁ told₁ h₁
    obtain ⟨hctx, t, htold₁, hh⟩ := h₁
    subst hctx hh
    rw [Cmd.wp_bind, Cmd.wp_get, Cmd.wp_bind, Cmd.wp_modify, Cmd.wp_pure, htold₁]
    refine ⟨DisplayCtx.cache_hash _ _, ?_⟩
    intro t' ht'
    rw [← Option.some.inj ht']

end Telling

/-! Runs -/

/-- A context, and the topology that the kernel told of last. -/
structure Watched where
  ctx : DisplayCtx
  seen : Option Topology

/-- A call on the context, whatever the kernel answers. One that fails is told of no topology. -/
inductive WatchStep : Watched → Watched → Prop where
  | list {w : Watched} {out : Option (ℕ → Display)} {maxCount : ℤ} {r : ℤ × Option (ℕ → Display)}
      {ctx : DisplayCtx} {told : Told}
      (hr : Cmd.Runs tellingEnv (drmtapListDisplays out maxCount) w.ctx .start r ctx told) :
      WatchStep w ⟨ctx, told.topology <|> w.seen⟩
  | check {w : Watched} {ret : ℤ} {ctx : DisplayCtx} {told : Told}
      (hr : Cmd.Runs tellingEnv drmtapDisplaysChanged w.ctx .start ret ctx told) :
      WatchStep w ⟨ctx, told.topology <|> w.seen⟩

/-- The cached signature is that of the topology told last. -/
def Watched.Current (w : Watched) : Prop :=
  ∀ t, w.seen = some t → w.ctx.cachedTopologyHash = thHash t.folded

theorem Watched.Current.caches {w : Watched} (h : w.Current) {ctx : DisplayCtx} {t : Option Topology}
    (hc : Caches w.ctx ctx t) : Watched.Current ⟨ctx, t <|> w.seen⟩ := by
  cases t with
  | none =>
    intro t ht
    obtain rfl : ctx = w.ctx := hc
    exact h t ht
  | some t =>
    intro t' ht'
    obtain rfl := Option.some.inj ht'
    exact hc

theorem WatchStep.current {w w' : Watched} (hs : WatchStep w w') (h : w.Current) : w'.Current := by
  cases hs with
  | list hr => exact h.caches (Cmd.wp_runs (drmtapListDisplays_caches _ _) hr)
  | check hr => exact h.caches (Cmd.wp_runs drmtapDisplaysChanged_compares hr).1

end Drmtap
