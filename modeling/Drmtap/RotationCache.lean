import Drmtap.GrabPlane

/-! What `drmtap_plane_rotation` remembers from one call to the next. -/
namespace Drmtap

open Memory Effect

/-- A call, and how it was answered. -/
structure Reply where
  op : Op
  ans : Ans op

/-- The properties of every plane, and their names. -/
structure PlaneProps where
  ids : UInt32 → List UInt32
  name : UInt32 → String

/-- The answers of a device with these properties. Any read may fail, and any value change. -/
def PlaneProps.Allows (d : PlaneProps) : (o : Op) → Ans o → Prop
  | .objectGetProperties planeId .plane, some props => props.map Prod.fst = d.ids planeId
  | .getProperty id, some name => name = d.name id
  | _, _ => True

/-- Such a device, all of whose answers are noted. -/
abbrev propsEnv (d : PlaneProps) : Env :=
  (Effect.Env.noting fun (log : List Reply) o r => log ++ [⟨o, r⟩]).restrict fun _ => d.Allows

section Notes
variable (d : PlaneProps)

/-- The reads of the names of some properties. -/
def namesRead (props : List (UInt32 × UInt64)) : List Reply :=
  props.map fun p => ⟨.getProperty p.1, some (d.name p.1)⟩

/-- A scan of the plane read all of its properties, and the rotation is none of them. -/
def ScannedWithout (planeId : UInt32) (log : List Reply) : Prop :=
  ∃ props : List (UInt32 × UInt64), props.map Prod.fst = d.ids planeId ∧
    (⟨.objectGetProperties planeId .plane, some props⟩ :: namesRead d props) <:+: log ∧
    ∀ p ∈ props, d.name p.1 ≠ "rotation"

/-- The value that the rotation of the plane was read with. -/
def ReadRotation (planeId : UInt32) (log : List Reply) (rotation : UInt32) : Prop :=
  ∃ (props : List (UInt32 × UInt64)) (id : UInt32) (value : UInt64),
    ⟨.objectGetProperties planeId .plane, some props⟩ ∈ log ∧ (id, value) ∈ props ∧
      d.name id = "rotation" ∧ rotation = value.toUInt32

end Notes

/-- A read that failed. -/
def Reply.Failed : Reply → Prop
  | ⟨.objectGetProperties _ _, none⟩ | ⟨.getProperty _, none⟩ => True
  | _ => False

/-- A read failed, for the reason `e`. -/
def FailedWith (e : ℕ) (log : List Reply) : Prop :=
  ∃ reply : Reply, reply.Failed ∧ [reply, ⟨.errno, e⟩] <:+: log

theorem FailedWith.append {e : ℕ} {log : List Reply} (h : FailedWith e log) (before : List Reply) :
    FailedWith e (before ++ log) := by
  obtain ⟨reply, hf, hin⟩ := h
  exact ⟨reply, hf, hin.trans (List.suffix_append before log).isInfix⟩

theorem ScannedWithout.mono {d : PlaneProps} {planeId : UInt32} {log log' : List Reply}
    (h : ScannedWithout d planeId log) (hlog : log <+: log') : ScannedWithout d planeId log' := by
  obtain ⟨props, hids, hin, hnone⟩ := h
  exact ⟨props, hids, hin.trans hlog.isInfix, hnone⟩

theorem namesRead_read {d : PlaneProps} {props : List (UInt32 × UInt64)} {reply : Reply}
    (h : reply ∈ namesRead d props) : ¬ reply.Failed := by
  obtain ⟨p, -, rfl⟩ := List.mem_map.mp h
  exact id

/-! The scan for the name -/

/-- What a scan of `props` finds, after failures that left `failed`. -/
structure NameScan (d : PlaneProps) (props : List (UInt32 × UInt64)) (failed : ℤ)
    (r : Option (UInt32 × UInt64) × ℤ) (seg : List Reply) : Prop where
  found : ∀ p, r.1 = some p → p ∈ props ∧ d.name p.1 = "rotation"
  absent : r.1 = none → r.2 = 0 →
    failed = 0 ∧ seg = namesRead d props ∧ ∀ p ∈ props, d.name p.1 ≠ "rotation"
  reason : r.2 = failed ∨ ∃ e : ℕ, FailedWith e seg ∧ r.2 = if e ≠ 0 then (e : ℤ) else EIO

section Reads
variable {d : PlaneProps} {m : Machine} {log : List Reply} {failed : ℤ}

theorem NameScan.missed {p : UInt32 × UInt64} {props : List (UInt32 × UInt64)}
    {r : Option (UInt32 × UInt64) × ℤ} {seg : List Reply} {e : ℕ}
    (h : NameScan d props (if e ≠ 0 then (e : ℤ) else EIO) r seg) :
    NameScan d (p :: props) failed r (⟨.getProperty p.1, none⟩ :: ⟨.errno, e⟩ :: seg) := by
  have hne : (if e ≠ 0 then (e : ℤ) else EIO) ≠ 0 := by
    split_ifs with he
    · exact_mod_cast he
    · decide
  constructor
  · intro q hq
    exact ⟨List.mem_cons_of_mem _ (h.found q hq).1, (h.found q hq).2⟩
  · intro hnone h0
    exact absurd (h.absent hnone h0).1 hne
  · right
    rcases h.reason with hr | ⟨e', hf, hr⟩
    · exact ⟨e, ⟨⟨.getProperty p.1, none⟩, trivial, [], seg, rfl⟩, hr⟩
    · exact ⟨e', hf.append [_, _], hr⟩

theorem NameScan.other {p : UInt32 × UInt64} {props : List (UInt32 × UInt64)}
    {r : Option (UInt32 × UInt64) × ℤ} {seg : List Reply} (h : NameScan d props failed r seg)
    (hname : d.name p.1 ≠ "rotation") :
    NameScan d (p :: props) failed r (⟨.getProperty p.1, some (d.name p.1)⟩ :: seg) := by
  constructor
  · intro q hq
    exact ⟨List.mem_cons_of_mem _ (h.found q hq).1, (h.found q hq).2⟩
  · intro hnone h0
    obtain ⟨hfailed, hseg, hothers⟩ := h.absent hnone h0
    refine ⟨hfailed, by rw [hseg]; rfl, ?_⟩
    intro q hq
    rcases List.mem_cons.mp hq with rfl | hq
    · exact hname
    · exact hothers q hq
  · rcases h.reason with hr | ⟨e, hf, hr⟩
    · exact .inl hr
    · exact .inr ⟨e, hf.append [_], hr⟩

theorem findRotation_scan (props : List (UInt32 × UInt64)) :
    Cmd.wlp (propsEnv d) (findRotation props failed) (fun r m' log' => m' = m ∧
      ∃ seg, log' = log ++ seg ∧ NameScan d props failed r seg) m log := by
  induction props generalizing failed log with
  | nil =>
    refine ⟨rfl, [], (List.append_nil log).symm, ?_⟩
    constructor
    · rintro p ⟨⟩
    · exact fun _ h0 => ⟨h0, rfl, by simp⟩
    · exact .inl rfl
  | cons p props ih =>
    obtain ⟨id, value⟩ := p
    unfold findRotation
    rw [Cmd.wlp_bind, Cmd.wlp_call]
    refine ⟨trivial, ?_⟩
    rintro (_ | name) log₁ ⟨rfl, hname⟩
    · unfold errnoOrEIO
      simp only [Cmd.wlp_bind, Cmd.wlp_call, Cmd.wlp_pure]
      refine ⟨trivial, ?_⟩
      rintro e log₂ ⟨rfl, -⟩
      apply Cmd.wlp_mono ih
      rintro r m' log' ⟨hm, seg, rfl, hscan⟩
      exact ⟨hm, _, by simp, hscan.missed⟩
    · obtain rfl : name = d.name id := hname
      rw [Cmd.wlp_ite]
      constructor
      · intro hrot
        refine ⟨rfl, _, rfl, ?_⟩
        constructor
        · rintro q ⟨⟩
          exact ⟨List.mem_cons_self, hrot⟩
        · rintro ⟨⟩
        · exact .inl rfl
      · intro hother
        apply Cmd.wlp_mono ih
        rintro r m' log' ⟨hm, seg, rfl, hscan⟩
        exact ⟨hm, _, by simp, hscan.other hother⟩

end Reads

/-! One call -/

/-- What the context remembers is what was read: that the plane has no rotation, or the property
that is its rotation. -/
structure Remembers (d : PlaneProps) (c : Ctx) (log : List Reply) : Prop where
  absent : c.rotPropState < 0 → ScannedWithout d c.rotPropPlaneId log
  found : 0 < c.rotPropState →
    c.rotPropId ∈ d.ids c.rotPropPlaneId ∧ d.name c.rotPropId = "rotation"

theorem Remembers.of_pending {d : PlaneProps} {c : Ctx} {log : List Reply}
    (h : c.rotPropState = 0) : Remembers d c log :=
  ⟨fun hneg => absurd hneg (by omega), fun hpos => absurd hpos (by omega)⟩

theorem Remembers.of_scan {d : PlaneProps} {c : Ctx} {planeId : UInt32} {log : List Reply}
    (hplane : c.rotPropPlaneId = planeId) (hstate : c.rotPropState = -1)
    (hscan : ScannedWithout d planeId log) : Remembers d c log := by
  rw [← hplane] at hscan
  exact ⟨fun _ => hscan, fun hpos => absurd hpos (by omega)⟩

theorem Remembers.of_found {d : PlaneProps} {c : Ctx} {planeId id : UInt32} {log : List Reply}
    (hplane : c.rotPropPlaneId = planeId) (hid : c.rotPropId = id) (hstate : c.rotPropState = 1)
    (hmem : id ∈ d.ids planeId) (hname : d.name id = "rotation") : Remembers d c log := by
  rw [← hplane, ← hid] at hmem
  rw [← hid] at hname
  exact ⟨fun hneg => absurd hneg (by omega), fun _ => ⟨hmem, hname⟩⟩

theorem Remembers.mono {d : PlaneProps} {c c' : Ctx} {log log' : List Reply}
    (h : Remembers d c log) (hplane : c'.rotPropPlaneId = c.rotPropPlaneId)
    (hprop : c'.rotPropId = c.rotPropId) (hstate : c'.rotPropState = c.rotPropState)
    (hlog : log <+: log') : Remembers d c' log' := by
  constructor
  · rw [hstate, hplane]
    exact fun hneg => (h.absent hneg).mono hlog
  · rw [hstate, hplane, hprop]
    exact h.found

theorem Ctx.lookAtPlane_plane (c : Ctx) (planeId : UInt32) :
    (c.lookAtPlane planeId).rotPropPlaneId = planeId := by
  unfold lookAtPlane
  split
  next h => exact h.symm
  next => rfl

theorem Remembers.lookAtPlane {d : PlaneProps} {c : Ctx} {log : List Reply}
    (h : Remembers d c log) (planeId : UInt32) : Remembers d (c.lookAtPlane planeId) log := by
  unfold Ctx.lookAtPlane
  split
  next => exact h
  next => exact .of_pending rfl

/-- What the call answers from the replies `seg` about the plane, after those in `before`. -/
structure Answers (d : PlaneProps) (planeId : UInt32) (before seg : List Reply)
    (r : Except ℤ UInt32) (m' : Machine) : Prop where
  unsupported : r = .error (- ENOTSUP) →
    ScannedWithout d planeId (before ++ seg) ∨ FailedWith ENOTSUP.toNat seg
  rotation : ∀ v, r = .ok v → ReadRotation d planeId seg v
  pending : (∃ reply ∈ seg, reply.Failed) → 0 ≤ m'.ctx.rotPropState
  remembers : Remembers d m'.ctx (before ++ seg)

section Calls
variable {d : PlaneProps} {m : Machine} {log : List Reply} {planeId : UInt32}
  {props : List (UInt32 × UInt64)}

/-- The negated reason is `-ENOTSUP` for that reason only. -/
theorem errno_of_notsup {e : ℕ} (h : - (if e ≠ 0 then (e : ℤ) else EIO) = - ENOTSUP) :
    e = ENOTSUP.toNat := by
  have hio : EIO ≠ ENOTSUP := by decide
  have h' : (if e ≠ 0 then (e : ℤ) else EIO) = ENOTSUP := by omega
  split_ifs at h' with he
  · rw [← h']
    simp
  · exact absurd h' hio

theorem lookUpRotation_answers (hids : props.map Prod.fst = d.ids planeId)
    (hplane : m.ctx.rotPropPlaneId = planeId) (hstate : m.ctx.rotPropState = 0) :
    Cmd.wlp (propsEnv d) (lookUpRotation props) (fun r m' log' => ∃ seg, log' = log ++ seg ∧
      Answers d planeId log seg r m') m
      (log ++ [⟨.objectGetProperties planeId .plane, some props⟩]) := by
  unfold lookUpRotation
  rw [Cmd.wlp_bind]
  apply Cmd.wlp_mono (findRotation_scan props)
  rintro ⟨found, failed⟩ m' log' ⟨hm, seg, rfl, hscan⟩
  rw [← hm] at hplane hstate
  rw [List.append_assoc]
  cases found with
  | some p =>
    obtain ⟨id, value⟩ := p
    obtain ⟨hmem, hname⟩ := hscan.found _ rfl
    refine ⟨_, rfl, ?_⟩
    constructor
    · rintro ⟨⟩
    · rintro v ⟨⟩
      exact ⟨props, id, value, List.mem_cons_self, hmem, hname, rfl⟩
    · exact fun _ => zero_le_one
    · refine .of_found hplane rfl rfl ?_ hname
      rw [← hids]
      exact List.mem_map_of_mem hmem
  | none =>
    simp only [Cmd.wlp_ite, Cmd.wlp_bind, Cmd.wlp_pure, wlp_modifyCtx]
    refine ⟨fun hfailed => ⟨_, rfl, ?_⟩, fun hfailed => ⟨_, rfl, ?_⟩⟩
    · obtain ⟨-, rfl, hnone⟩ := hscan.absent rfl hfailed
      have hscanned : ScannedWithout d planeId
          (log ++ ([⟨.objectGetProperties planeId .plane, some props⟩] ++ namesRead d props)) :=
        ⟨props, hids, (List.suffix_append _ _).isInfix, hnone⟩
      constructor
      · exact fun _ => .inl hscanned
      · rintro v ⟨⟩
      · rintro ⟨reply, hmem, hf⟩
        rcases List.mem_cons.mp hmem with rfl | hmem
        · exact hf.elim
        · exact absurd hf (namesRead_read hmem)
      · exact .of_scan hplane rfl hscanned
    · constructor
      · intro h
        right
        rcases hscan.reason with hr | ⟨e, hf, hr⟩
        · exact absurd hr hfailed
        · have he : e = ENOTSUP.toNat := by
            apply errno_of_notsup
            rw [← hr]
            exact Except.error.inj h
          rw [← he]
          exact hf.append [_]
      · rintro v ⟨⟩
      · exact fun _ => by rw [hstate]
      · exact .of_pending hstate

theorem rereadRotation_answers (hids : props.map Prod.fst = d.ids planeId)
    (hplane : m.ctx.rotPropPlaneId = planeId) (hstate : 0 < m.ctx.rotPropState)
    (hm : Remembers d m.ctx log) :
    Cmd.wlp (propsEnv d) (rereadRotation m.ctx.rotPropId props) (fun r m' log' =>
      ∃ seg, log' = log ++ seg ∧ Answers d planeId log seg r m') m
      (log ++ [⟨.objectGetProperties planeId .plane, some props⟩]) := by
  obtain ⟨hmem, hname⟩ := hm.found hstate
  rw [hplane, ← hids] at hmem
  unfold rereadRotation
  cases hfind : props.find? fun p => p.1 = m.ctx.rotPropId with
  | none =>
    obtain ⟨p, hp, heq⟩ := List.mem_map.mp hmem
    have hne := List.find?_eq_none.mp hfind p hp
    exact absurd heq (by simpa using hne)
  | some p =>
    obtain ⟨id, value⟩ := p
    have hid : id = m.ctx.rotPropId := by simpa using List.find?_some hfind
    refine ⟨_, rfl, ?_⟩
    constructor
    · rintro ⟨⟩
    · rintro v ⟨⟩
      exact ⟨props, id, value, List.mem_cons_self, List.mem_of_find?_eq_some hfind,
        by rw [hid, hname], rfl⟩
    · exact fun _ => hstate.le
    · exact hm.mono rfl rfl rfl (List.prefix_append _ _)

theorem readRotation_answers (hm : Remembers d m.ctx log) :
    Cmd.wlp (propsEnv d) (readRotation planeId) (fun r m' log' => ∃ seg, log' = log ++ seg ∧
      Answers d planeId log seg r m') m log := by
  unfold readRotation
  simp only [Cmd.wlp_bind, wlp_modifyCtx, wlp_getCtx, Cmd.wlp_ite, Cmd.wlp_pure, Cmd.wlp_call]
  have hm₁ := hm.lookAtPlane planeId
  have hplane := m.ctx.lookAtPlane_plane planeId
  generalize m.ctx.lookAtPlane planeId = c at hm₁ hplane
  refine ⟨fun hneg => ⟨[], (List.append_nil log).symm, ?_⟩, fun hneg => ⟨trivial, ?_⟩⟩
  · constructor
    · rw [List.append_nil, ← hplane]
      exact fun _ => .inl (hm₁.absent hneg)
    · rintro v ⟨⟩
    · rintro ⟨_, ⟨⟩, _⟩
    · rw [List.append_nil]
      exact hm₁
  · rintro (_ | props) log₁ ⟨rfl, hids⟩
    · unfold errnoOrEIO
      simp only [Cmd.wlp_bind, Cmd.wlp_call, Cmd.wlp_pure]
      refine ⟨trivial, ?_⟩
      rintro e log₂ ⟨rfl, -⟩
      rw [List.append_assoc]
      refine ⟨_, rfl, ?_⟩
      constructor
      · intro h
        right
        rw [← errno_of_notsup (Except.error.inj h)]
        exact ⟨⟨.objectGetProperties planeId .plane, none⟩, trivial, List.infix_refl _⟩
      · rintro v ⟨⟩
      · exact fun _ => not_lt.mp hneg
      · exact hm₁.mono rfl rfl rfl (List.prefix_append _ _)
    · rw [Cmd.wlp_ite]
      refine ⟨fun h0 => lookUpRotation_answers hids hplane h0, fun h0 => ?_⟩
      have hpos : 0 < c.rotPropState := by omega
      exact rereadRotation_answers (m := ⟨c, m.heap⟩) hids hplane hpos hm₁

end Calls

/-! The other calls -/

/-- What is remembered stays, and the notes grow. -/
structure KeepsRotation (x y : Machine × List Reply) : Prop where
  plane : y.1.ctx.rotPropPlaneId = x.1.ctx.rotPropPlaneId
  prop : y.1.ctx.rotPropId = x.1.ctx.rotPropId
  state : y.1.ctx.rotPropState = x.1.ctx.rotPropState
  log : x.2 <+: y.2

instance : IsPreorder (Machine × List Reply) KeepsRotation where
  refl x := ⟨rfl, rfl, rfl, List.prefix_refl x.2⟩
  trans _ _ _ h₁ h₂ := ⟨h₂.plane.trans h₁.plane, h₂.prop.trans h₁.prop, h₂.state.trans h₁.state,
    h₁.log.trans h₂.log⟩

theorem Remembers.keeps {d : PlaneProps} {x y : Machine × List Reply}
    (h : Remembers d x.1.ctx x.2) (hk : KeepsRotation x y) : Remembers d y.1.ctx y.2 :=
  h.mono hk.plane hk.prop hk.state hk.log

section Keeps
variable (d : PlaneProps)

theorem keepsRotation_tracks : Tracks Unprobing (propsEnv d) KeepsRotation where
  beside _ h := h.unprobing
  legal _ _ _ := trivial
  call _ log o r _ _ hs := ⟨rfl, rfl, rfl, by rw [hs.1]; exact List.prefix_append log _⟩
  untouched _ _ log h := ⟨h.rotPropPlane, h.rotProp, h.rotPropState, List.prefix_refl log⟩

theorem keepsRotation_of {m : Machine} {c : Ctx} {log : List Reply}
    (hplane : c.rotPropPlaneId = m.ctx.rotPropPlaneId) (hprop : c.rotPropId = m.ctx.rotPropId)
    (hstate : c.rotPropState = m.ctx.rotPropState) : KeepsRotation (m, log) (⟨c, m.heap⟩, log) :=
  ⟨hplane, hprop, hstate, List.prefix_refl log⟩

theorem keepsRotation_select : Cmd.Follows (propsEnv d) KeepsRotation selectFirstActiveCrtc :=
  follows_select (keepsRotation_tracks d) fun _ _ _ => keepsRotation_of rfl rfl rfl

theorem follows_rotationPlane (ctx : Ctx) :
    Cmd.Follows (propsEnv d) KeepsRotation (rotationPlane ctx) :=
  .ite (.pure _) (follows_findPrimaryPlane (keepsRotation_tracks d) (keepsRotation_select d))

end Keeps

section Runs
variable {d : PlaneProps} {m m' : Machine} {log log' : List Reply} {r : Except ℤ UInt32}

/-- A call answers for the plane of the last grab, or before any for the one a grab would use. -/
theorem drmtapPlaneRotation_answers (hm : Remembers d m.ctx log)
    (hr : Cmd.Runs (propsEnv d) drmtapPlaneRotation m log r m' log') :
    (m.ctx.isRenderOnly = true ∧ r = .error (- ENOTSUP) ∧ m' = m ∧ log' = log) ∨
      ∃ planeId m₁ before seg,
        Cmd.Runs (propsEnv d) (rotationPlane m.ctx) m log planeId m₁ before ∧
        log' = before ++ seg ∧ Answers d planeId before seg r m' := by
  have hrun : Cmd.Runs (propsEnv d) (if m.ctx.isRenderOnly = true then pure (.error (- ENOTSUP))
      else rotationPlane m.ctx >>= fun planeId =>
        if planeId = 0 then pure (.error (- ENOENT)) else readRotation planeId) m log r m' log' := hr
  have hpure : ∀ {ret : ℤ} {m₁ : Machine} {before : List Reply},
      Cmd.Runs (propsEnv d) (pure (.error ret)) m₁ before r m' log' →
        r = .error ret ∧ m' = m₁ ∧ log' = before := by
    intro ret m₁ before h
    have hw : Cmd.wlp (propsEnv d) (pure (.error ret) : M (Except ℤ UInt32))
        (fun r m' log' => r = .error ret ∧ m' = m₁ ∧ log' = before) m₁ before := ⟨rfl, rfl, rfl⟩
    exact Cmd.wlp_runs hw h
  split_ifs at hrun with hrender
  · exact .inl ⟨hrender, hpure hrun⟩
  · obtain ⟨planeId, m₁, before, hplane, hread⟩ := Cmd.runs_bind hrun
    have hm₁ : Remembers d m₁.ctx before :=
      hm.keeps (Cmd.wlp_runs (follows_rotationPlane d m.ctx m log) hplane)
    right
    split_ifs at hread with h0
    · obtain ⟨rfl, rfl, rfl⟩ := hpure hread
      have hne : (- ENOENT : ℤ) ≠ - ENOTSUP := by decide
      refine ⟨planeId, m', log', [], hplane, (List.append_nil log').symm, ?_⟩
      constructor
      · exact fun h => absurd (Except.error.inj h) hne
      · rintro v ⟨⟩
      · rintro ⟨_, ⟨⟩, _⟩
      · rw [List.append_nil]
        exact hm₁
    · obtain ⟨seg, hlog, hanswers⟩ := Cmd.wlp_runs (readRotation_answers hm₁) hread
      exact ⟨planeId, m₁, before, seg, hplane, hlog, hanswers⟩

theorem drmtapPlaneRotation_remembers (hm : Remembers d m.ctx log)
    (hr : Cmd.Runs (propsEnv d) drmtapPlaneRotation m log r m' log') :
    Remembers d m'.ctx log' := by
  rcases drmtapPlaneRotation_answers hm hr with ⟨-, -, rfl, rfl⟩ | ⟨_, _, _, _, -, rfl, ha⟩
  · exact hm
  · exact ha.remembers

end Runs

/-! Whole runs -/

/-- One call on a context, with all the answers so far. -/
inductive RotationStep (d : PlaneProps) : Machine × List Reply → Machine × List Reply → Prop where
  | call {m m' : Machine} {log log' : List Reply} {call : PlaneCall} {returned : Bool}
      (h : Cmd.Runs (propsEnv d) call.run m log returned m' log') :
      RotationStep d (m, log) (m', log')

theorem PlaneCall.keepsRotation (d : PlaneProps) {call : PlaneCall} (hcall : call ≠ .rotation) :
    Cmd.Follows (propsEnv d) KeepsRotation call.run := by
  have ht := keepsRotation_tracks d
  have hsel := keepsRotation_select d
  cases call with
  | grab entry frame =>
    refine .bind (follows_grabEntry ht hsel ?_ ?_ entry frame) fun _ => .pure _
    · exact fun _ _ _ => keepsRotation_of rfl rfl rfl
    · exact fun _ _ _ => keepsRotation_of rfl rfl rfl
  | fast frame =>
    refine .bind (follows_grabMappedFast ht hsel ?_ frame) fun _ => .pure _
    exact fun _ _ _ h => keepsRotation_of h.rotPropPlane h.rotProp h.rotPropState
  | convert desc frame => exact .bind (follows_convertDmabuf ht desc frame) fun _ => .pure _
  | rotation => exact absurd rfl hcall
  | refresh => exact .bind (follows_crtcRefresh ht hsel) fun _ => .pure _
  | release frame => exact .bind (follows_frameRelease ht frame) fun _ => .pure _

theorem RotationStep.remembers {d : PlaneProps} {x y : Machine × List Reply}
    (h : RotationStep d x y) (hx : Remembers d x.1.ctx x.2) : Remembers d y.1.ctx y.2 := by
  cases h with
  | @call m m' log log' call returned h =>
    by_cases hcall : call = .rotation
    · subst hcall
      obtain ⟨r, m₁, log₁, hr, hpure⟩ := Cmd.runs_bind h
      cases hpure
      exact drmtapPlaneRotation_remembers hx hr
    · exact hx.keeps (Cmd.wlp_runs (PlaneCall.keepsRotation d hcall m log) h)

theorem remembers_of_run {d : PlaneProps} {m m' : Machine} {log : List Reply}
    (h0 : m.ctx.rotPropState = 0)
    (hrun : Relation.ReflTransGen (RotationStep d) (m, []) (m', log)) :
    Remembers d m'.ctx log := by
  have hall : ∀ y, Relation.ReflTransGen (RotationStep d) (m, []) y → Remembers d y.1.ctx y.2 := by
    intro y hy
    induction hy with
    | refl => exact .of_pending h0
    | tail _ hstep ih => exact hstep.remembers ih
  exact hall _ hrun

/-- After every run, whatever read failed in it, a plane is said to have no rotation once a scan
of it read all of its properties, or if the read itself fails with that error; a rotation is the
value that was read for the plane; and a failed read leaves the question open. -/
theorem plane_rotation_of_plane {d : PlaneProps} {m m₁ m' : Machine} {log log' : List Reply}
    {r : Except ℤ UInt32} (h0 : m.ctx.rotPropState = 0)
    (hrun : Relation.ReflTransGen (RotationStep d) (m, []) (m₁, log))
    (hr : Cmd.Runs (propsEnv d) drmtapPlaneRotation m₁ log r m' log') :
    (m₁.ctx.isRenderOnly = true ∧ r = .error (- ENOTSUP) ∧ m' = m₁ ∧ log' = log) ∨
      ∃ planeId m₂ before seg,
        Cmd.Runs (propsEnv d) (rotationPlane m₁.ctx) m₁ log planeId m₂ before ∧
        log' = before ++ seg ∧ Answers d planeId before seg r m' :=
  drmtapPlaneRotation_answers (remembers_of_run h0 hrun) hr

/-! Runs on a device that stands still -/

/-- A plane on CRTC 2 with a type and a rotation. -/
def turnedProps : PlaneProps where
  ids _ := [7, 9]
  name id := if id = 9 then "rotation" else "type"

/-- Its answers, where the property lists may be unreadable. -/
def turnedPlane (readable : Bool) : Device
  | .getPlaneResources => .ok [1]
  | .getPlane _ => some ⟨1, 2, 3⟩
  | .objectGetProperties _ _ => if readable then some [(7, drmPlaneTypePrimary), (9, 4)] else none
  | .getProperty id => some (turnedProps.name id)
  | .errno => 95
  | o => Device.blank o

theorem turnedPlane_allows (readable : Bool) (o : Op) :
    turnedProps.Allows o (turnedPlane readable o) := by
  cases o with
  | objectGetProperties id type =>
    cases type <;> cases readable <;> trivial
  | getProperty id => rfl
  | _ => trivial

def turnedRun (readable : Bool) (log : List Reply) (o : Op) : Option (Ans o × List Reply) :=
  some (turnedPlane readable o, log ++ [⟨o, turnedPlane readable o⟩])

theorem turnedRun_step {readable : Bool} {log log' : List Reply} {o : Op} {r : Ans o}
    (h : turnedRun readable log o = some (r, log')) : (propsEnv turnedProps).step log o r log' := by
  obtain ⟨rfl, rfl⟩ := Prod.mk.inj (Option.some.inj h)
  exact ⟨rfl, turnedPlane_allows readable o⟩

theorem turnedPlane_rotation :
    ((PlaneCall.rotation.run >>= fun _ => drmtapPlaneRotation).exec 100 (turnedRun true)
      ⟨.opened "i915" 2, .empty⟩ []).map (fun x => x.1.1) = some (.ok 4) := by
  decide +kernel

theorem plane_rotation_of_plane_turned : ∃ r m₁ m' log log',
    Relation.ReflTransGen (RotationStep turnedProps) (⟨.opened "i915" 2, .empty⟩, []) (m₁, log) ∧
    r = .ok 4 ∧
    ((m₁.ctx.isRenderOnly = true ∧ r = .error (- ENOTSUP) ∧ m' = m₁ ∧ log' = log) ∨
      ∃ planeId m₂ before seg,
        Cmd.Runs (propsEnv turnedProps) (rotationPlane m₁.ctx) m₁ log planeId m₂ before ∧
        log' = before ++ seg ∧ Answers turnedProps planeId before seg r m') := by
  obtain ⟨⟨⟨r, m'⟩, log'⟩, he, hr⟩ := Option.map_eq_some_iff.mp turnedPlane_rotation
  have hruns := Cmd.exec_runs (E := propsEnv turnedProps) (fun _ _ _ _ => turnedRun_step) he
  obtain ⟨returned, m₁, log, hfirst, hsecond⟩ := Cmd.runs_bind hruns
  have hrun := Relation.ReflTransGen.single (@RotationStep.call _ _ _ _ _ .rotation _ hfirst)
  exact ⟨r, m₁, m', log, log', hrun, hr, plane_rotation_of_plane rfl hrun hsecond⟩

/-- Only a plane that was scanned is said to have no rotation. -/
def UnsupportedIsScanned (renderOnly : Bool) : Prop :=
  ∀ (d : PlaneProps) (m m₁ m' : Machine) (log log' : List Reply),
    m.ctx.isRenderOnly = renderOnly → m.ctx.rotPropState = 0 →
    Relation.ReflTransGen (RotationStep d) (m, []) (m₁, log) →
    Cmd.Runs (propsEnv d) drmtapPlaneRotation m₁ log (.error (- ENOTSUP)) m' log' →
      ∃ planeId, ScannedWithout d planeId log'

theorem turnedProps_not_scanned (log : List Reply) :
    ¬ ∃ planeId, ScannedWithout turnedProps planeId log := by
  rintro ⟨planeId, props, hids, -, hnone⟩
  have hmem : (9 : UInt32) ∈ props.map Prod.fst := by
    rw [hids]
    exact List.mem_cons_of_mem _ List.mem_cons_self
  obtain ⟨p, hp, h9⟩ := List.mem_map.mp hmem
  apply hnone p hp
  rw [h9]
  rfl

theorem turnedPlane_unreadable : (drmtapPlaneRotation.exec 100 (turnedRun false)
    ⟨.opened "i915" 2, .empty⟩ []).map (fun x => x.1.1) = some (.error (- ENOTSUP)) := by
  decide +kernel

def renderOnlyStart : Machine := ⟨{ Ctx.opened "i915" 2 with isRenderOnly := true }, .empty⟩

/-- A context without a display answers the same, and so does a read that fails with that error. -/
theorem rotation_unsupported_unscanned :
    ¬ UnsupportedIsScanned true ∧ ¬ UnsupportedIsScanned false := by
  constructor
  · intro h
    have hr : Cmd.Runs (propsEnv turnedProps) drmtapPlaneRotation renderOnlyStart []
        (.error (- ENOTSUP)) renderOnlyStart [] :=
      Cmd.exec_runs (E := propsEnv turnedProps) (n := 0) (h := turnedRun false)
        (fun _ _ _ _ => turnedRun_step) rfl
    exact turnedProps_not_scanned _ (h _ _ _ _ _ _ rfl rfl .refl hr)
  · intro h
    obtain ⟨⟨⟨r, m'⟩, log'⟩, he, hr⟩ := Option.map_eq_some_iff.mp turnedPlane_unreadable
    have hruns := Cmd.exec_runs (E := propsEnv turnedProps) (fun _ _ _ _ => turnedRun_step) he
    rw [show r = .error (- ENOTSUP) from hr] at hruns
    exact turnedProps_not_scanned _ (h _ _ _ _ _ _ rfl rfl .refl hruns)

end Drmtap
