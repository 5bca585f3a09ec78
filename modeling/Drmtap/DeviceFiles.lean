import Drmtap.DeviceOpen

/-! What `drmtap_open` leaves of the files it opens. -/
namespace Drmtap

open Effect

/-! What the files come to -/

/-- All is as before. -/
structure Files.Same (s t : Files) : Prop where
  next : s.next ≤ t.next
  file : t.file = s.file
  master : t.master = s.master

/-- There is a descriptor more, of a new file that was opened by this path. Its mastership it may
have been left. -/
structure Files.Adds (s : Files) (fd : ℤ) (path : String) (left : Prop) (f : ℕ) (t : Files) :
    Prop where
  new : s.next ≤ f
  lt : f < t.next
  nonneg : 0 ≤ fd
  free : s.file fd = none
  file : t.file = Function.update s.file fd (some f)
  path : t.path f = path
  master : t.master = s.master ∪ {g | g = f ∧ left ∧ f ∈ t.granted}

/-- The files after calls that close only what was opened since. -/
structure Files.Since (s t : Files) : Prop where
  next : s.next ≤ t.next
  old : ∀ n f, f < s.next → (t.file n = some f ↔ s.file n = some f)
  master : ∀ f, f < s.next → (f ∈ t.master ↔ f ∈ s.master)
  kept : ∀ n f, t.file n = some f → s.next ≤ f → f ∈ t.granted → f ∈ t.master
  only : ∀ f ∈ t.master, s.next ≤ f → f ∈ t.granted ∧ ∃ n, t.file n = some f

/-- The descriptors that were opened since, with their paths. -/
def Files.since (s t : Files) : FdTable := fun n =>
  (t.file n).bind fun f => if s.next ≤ f then some (t.path f) else none

namespace Files
variable {s t u : Files} {fd n : ℤ} {path : String} {left : Prop} {f : ℕ}

theorem Same.refl (s : Files) : s.Same s := ⟨le_rfl, rfl, rfl⟩

theorem Same.trans (h : s.Same t) (h' : t.Same u) : s.Same u :=
  ⟨h.next.trans h'.next, h'.file.trans h.file, h'.master.trans h.master⟩

theorem since_eq_some : s.since t n = some path ↔
    ∃ f, t.file n = some f ∧ s.next ≤ f ∧ t.path f = path := by
  unfold since
  cases hf : t.file n with
  | none => simp
  | some f =>
    simp only [Option.bind_some, Option.some.injEq, exists_eq_left']
    split_ifs with hle <;> simp [hle]

theorem since_self (s : Files) : s.since s = fun _ => none := by
  funext n
  cases h : s.since s n with
  | none => rfl
  | some path =>
    obtain ⟨f, hf, hle, -⟩ := since_eq_some.mp h
    exact absurd (s.file_lt n f hf) (not_lt.mpr hle)

theorem Since.refl (s : Files) : s.Since s where
  next := le_rfl
  old _ _ _ := Iff.rfl
  master _ _ := Iff.rfl
  kept n f hf hle _ := absurd (s.file_lt n f hf) (not_lt.mpr hle)
  only f hf hle := absurd (s.master_lt f hf) (not_lt.mpr hle)

theorem since_opened (hnext : s.next ≤ t.next) (grant : Prop) :
    s.since (t.opened fd path grant) = Function.update (s.since t) fd (some path) := by
  funext n
  by_cases hn : n = fd
  · subst hn
    rw [Function.update_self, since_eq_some]
    exact ⟨t.next, Function.update_self .., hnext, Function.update_self ..⟩
  · rw [Function.update_of_ne hn]
    show ((Function.update t.file fd (some t.next) n).bind fun f =>
      if s.next ≤ f then some (Function.update t.path t.next path f) else none) = s.since t n
    rw [Function.update_of_ne hn]
    unfold since
    cases hf : t.file n with
    | none => rfl
    | some f =>
      have hne : f ≠ t.next := (t.file_lt n f hf).ne
      simp [Function.update_of_ne hne]

theorem since_closed : s.since (t.closed fd) = Function.update (s.since t) fd none := by
  funext n
  by_cases hn : n = fd
  · subst hn
    simp [since, closed]
  · simp [since, closed, Function.update_of_ne hn]

theorem Since.opened (h : s.Since t) (hfree : t.file fd = none) (grant : Prop) :
    s.Since (t.opened fd path grant) where
  next := h.next.trans (Nat.le_succ _)
  old n f hf := by
    rw [← h.old n f hf]
    by_cases hn : n = fd
    · subst hn
      have hne : t.next ≠ f := by
        have := h.next
        omega
      simp [Files.opened, hfree, hne]
    · simp [Files.opened, Function.update_of_ne hn]
  master f hf := by
    rw [← h.master f hf]
    have hne : f ≠ t.next := by
      have := h.next
      omega
    simp [Files.opened, hne]
  kept n f hn hle hg := by
    rcases hg with hg | hg
    · refine .inl (h.kept n f ?_ hle hg)
      have hne : f ≠ t.next := (t.granted_lt f hg).ne
      by_cases hfd : n = fd
      · subst hfd
        have heq : some t.next = some f := by simpa [Files.opened] using hn
        exact absurd (Option.some.inj heq).symm hne
      · simpa [Files.opened, Function.update_of_ne hfd] using hn
    · exact .inr hg
  only f hf hle := by
    rcases hf with hf | hf
    · obtain ⟨hg, n, hn⟩ := h.only f hf hle
      refine ⟨.inl hg, n, ?_⟩
      have hne : n ≠ fd := by
        intro heq
        rw [heq, hfree] at hn
        cases hn
      simpa [Files.opened, Function.update_of_ne hne] using hn
    · refine ⟨.inr hf, fd, ?_⟩
      simp [Files.opened, hf.1]

theorem Since.closed (h : s.Since t) (hnew : ∃ f, t.file fd = some f ∧ s.next ≤ f) :
    s.Since (t.closed fd) where
  next := h.next
  old n f hf := by
    rw [← h.old n f hf]
    obtain ⟨g, hg, hle⟩ := hnew
    by_cases hn : n = fd
    · subst hn
      have hne : g ≠ f := by omega
      simp [Files.closed, hg, hne]
    · simp [Files.closed, Function.update_of_ne hn]
  master f hf := by
    rw [← h.master f hf]
    obtain ⟨g, hg, hle⟩ := hnew
    have hne : g ≠ f := by omega
    simp [Files.closed, hg, hne]
  kept n f hn hle hg := by
    have hne : n ≠ fd := by
      intro heq
      simp [Files.closed, heq] at hn
    have hn : t.file n = some f := by simpa [Files.closed, Function.update_of_ne hne] using hn
    exact ⟨h.kept n f hn hle hg, fun _ => ⟨n, hne, hn⟩⟩
  only f hf hle := by
    obtain ⟨hg, n, hn⟩ := h.only f hf.1 hle
    refine ⟨hg, ?_⟩
    by_cases hne : n = fd
    · subst hne
      obtain ⟨m, hm, hmf⟩ := hf.2 hn
      exact ⟨m, by simpa [Files.closed, Function.update_of_ne hm] using hmf⟩
    · exact ⟨n, by simpa [Files.closed, Function.update_of_ne hne] using hn⟩

/-- A descriptor that is not new is as before. -/
theorem Since.file_eq (h : s.Since t) (hn : s.since t n = none) : t.file n = s.file n := by
  cases hs : s.file n with
  | some f => exact (h.old n f (s.file_lt n f hs)).mpr hs
  | none =>
    cases ht : t.file n with
    | none => rfl
    | some f =>
      by_cases hle : s.next ≤ f
      · have hsome : s.since t n = some (t.path f) := since_eq_some.mpr ⟨f, ht, hle, rfl⟩
        rw [hn] at hsome
        cases hsome
      · have hsome := (h.old n f (not_le.mp hle)).mp ht
        rw [hs] at hsome
        cases hsome

theorem Since.same (h : s.Since t) (hnone : s.since t = fun _ => none) : s.Same t where
  next := h.next
  file := funext fun n => h.file_eq (congrFun hnone n)
  master := by
    ext f
    by_cases hle : s.next ≤ f
    · constructor
      · intro hf
        obtain ⟨-, n, hn⟩ := h.only f hf hle
        have hsome : s.since t n = some (t.path f) := since_eq_some.mpr ⟨f, hn, hle, rfl⟩
        rw [hnone] at hsome
        cases hsome
      · exact fun hf => absurd (s.master_lt f hf) (not_lt.mpr hle)
    · exact h.master f (not_le.mp hle)

theorem Since.adds (h : s.Since t) (hfd : 0 ≤ fd)
    (hone : s.since t = Function.update (fun _ => none) fd (some path)) :
    ∃ f, s.Adds fd path True f t := by
  have hsome : s.since t fd = some path := by rw [hone, Function.update_self]
  obtain ⟨f, hf, hle, hpath⟩ := since_eq_some.mp hsome
  have hother : ∀ n, n ≠ fd → s.since t n = none := fun n hn => by
    rw [hone, Function.update_of_ne hn]
  refine ⟨f, hle, t.file_lt fd f hf, hfd, ?_, ?_, hpath, ?_⟩
  · cases hs : s.file fd with
    | none => rfl
    | some g =>
      have hg := s.file_lt fd g hs
      have hgf := (h.old fd g hg).mpr hs
      rw [hf] at hgf
      cases hgf
      omega
  · funext n
    by_cases hn : n = fd
    · subst hn
      rw [Function.update_self, hf]
    · rw [Function.update_of_ne hn]
      exact h.file_eq (hother n hn)
  · ext g
    by_cases hg : s.next ≤ g
    · constructor
      · intro hm
        obtain ⟨hgranted, n, hn⟩ := h.only g hm hg
        have hnfd : n = fd := by
          by_contra hne
          have hsome : s.since t n = some (t.path g) := since_eq_some.mpr ⟨g, hn, hg, rfl⟩
          rw [hother n hne] at hsome
          cases hsome
        subst hnfd
        have hgf : f = g := Option.some.inj (hf.symm.trans hn)
        exact .inr ⟨hgf.symm, trivial, hgf ▸ hgranted⟩
      · rintro (hm | ⟨rfl, -, hgranted⟩)
        · exact absurd (s.master_lt g hm) (not_lt.mpr hg)
        · exact h.kept fd g hf hle hgranted
    · rw [h.master g (not_le.mp hg)]
      have hne : g ≠ f := by omega
      simp [hne]

theorem adds_opened (hfd : 0 ≤ fd) (hfree : s.file fd = none) (grant : Prop) :
    s.Adds fd path True s.next (s.opened fd path grant) where
  new := le_rfl
  lt := Nat.lt_succ_self _
  nonneg := hfd
  free := hfree
  file := rfl
  path := Function.update_self ..
  master := by
    have hnot : s.next ∉ s.granted := fun h => absurd (s.granted_lt _ h) (lt_irrefl _)
    simp [Files.opened, hnot]

theorem Adds.at (h : s.Adds fd path left f t) : t.file fd = some f := by
  rw [h.file, Function.update_self]

theorem Adds.closed (h : s.Adds fd path left f t) : s.Same (t.closed fd) where
  next := (h.new.trans h.lt.le)
  file := by
    show Function.update t.file fd none = s.file
    rw [h.file, Function.update_idem, ← h.free, Function.update_eq_self]
  master := by
    ext g
    have hold : g ∈ s.master → g ≠ f := fun hg => by
      have := s.master_lt g hg
      have := h.new
      omega
    have hgone : ∀ n, n ≠ fd → s.file n ≠ some f := fun n _ hs => by
      have := s.file_lt n f hs
      have := h.new
      omega
    show g ∈ t.master ∧ (t.file fd = some g → _) ↔ g ∈ s.master
    rw [h.at, h.master]
    constructor
    · rintro ⟨hg | ⟨rfl, -, -⟩, himp⟩
      · exact hg
      · obtain ⟨n, hn, hnf⟩ := himp rfl
        rw [h.file, Function.update_of_ne hn] at hnf
        exact absurd hnf (hgone n hn)
    · exact fun hg => ⟨.inl hg, fun heq => absurd (Option.some.inj heq).symm (hold hg)⟩

/-- A file moves to another descriptor. -/
theorem Adds.raised {high : ℤ} (h : s.Adds fd path left f t) (hhigh : 0 ≤ high)
    (hfree : t.file high = none) : s.Adds high path left f ((t.duped fd high).closed fd) := by
  have hne : high ≠ fd := by
    intro heq
    rw [heq, h.at] at hfree
    cases hfree
  have hs : s.file high = none := by
    rw [h.file, Function.update_of_ne hne] at hfree
    exact hfree
  refine ⟨h.new, h.lt, hhigh, hs, ?_, h.path, ?_⟩
  · show Function.update (Function.update t.file high (t.file fd)) fd none = _
    rw [Function.update_comm hne, h.at, h.file, Function.update_idem, ← h.free,
      Function.update_eq_self]
  · show _ = s.master ∪ {g | g = f ∧ left ∧ f ∈ t.granted}
    rw [← h.master]
    ext g
    refine ⟨fun hg => hg.1, fun hg => ⟨hg, fun heq => ⟨high, hne, ?_⟩⟩⟩
    have hat : (t.duped fd high).file fd = t.file fd := Function.update_of_ne hne.symm ..
    rw [hat] at heq
    show Function.update t.file high (t.file fd) high = some g
    rw [Function.update_self, heq]

theorem Adds.dropped (h : s.Adds fd path left f t) : s.Adds fd path False f (t.dropped fd) := by
  refine ⟨h.new, h.lt, h.nonneg, h.free, h.file, h.path, ?_⟩
  ext g
  show g ∈ t.master ∧ t.file fd ≠ some g ↔ _
  rw [h.at, h.master]
  have hold : g ∈ s.master → f ≠ g := fun hg => by
    have := s.master_lt g hg
    have := h.new
    omega
  simp only [Set.mem_union, Set.mem_ofPred_eq, ne_eq, Option.some.injEq, false_and, and_false,
    or_false]
  constructor
  · rintro ⟨hg | ⟨rfl, -⟩, hne⟩
    · exact hg
    · exact absurd rfl hne
  · exact fun hg => ⟨.inl hg, hold hg⟩

end Files

/-! The choice of the device -/

/-- A device by its path, and the path that the context keeps. -/
inductive DeviceHost.Chosen (host : DeviceHost) (named : String) : String → String → Prop
  | named (h : named ≠ "") : host.Chosen named named named
  | told (h : named = "") (huid : host.uid ≠ 0) (heuid : host.euid ≠ 0) {path : String}
      (hpath : host.drmDevice = some path) (hnode : (host.node path).isSome) :
      host.Chosen named path (snprintf 256 path)
  | picked (h : named = "") {i : ℕ} (hi : host.Picked i) :
      host.Chosen named (cardPath i) (cardPath i)

/-- There is no device to be had. -/
def DeviceHost.Barren (host : DeviceHost) (named : String) : Prop :=
  named ≠ "" ∧ host.node named = none ∨ named = "" ∧ ∀ i < 16, ¬ host.Kms i

section Calls
variable {host : DeviceHost} {s t : Files} {u : FdTable} {c : OpenCtx} {fd : ℤ} {path : String}
  {left : Prop} {f : ℕ}

theorem wp_onCard {o : CardOp} {Q : CardAns o → OpenCtx → Files → Prop} :
    Cmd.wp host.files (onCard o) Q c t ↔
      t.Knows o ∧ ∀ r t', host.cardStep t o r t' → Q r c t' := Iff.rfl

theorem wp_onDevice {o : DeviceOp} {Q : DeviceAns o → OpenCtx → Files → Prop} :
    Cmd.wp host.files (onDevice o) Q c t ↔
      host.deviceLegal t o ∧ ∀ r t', host.deviceStep t o r t' → Q r c t' := Iff.rfl

/-- The scan of the cards comes to what the environment named, or to what it picks. -/
theorem openDrmAuto_spec (u : FdTable) :
    Cmd.wp host.toCardHost.env openDrmAuto (fun fd c' u' =>
      Selected host.toCardHost c u fd c' u' ∨
        ∃ path, host.uid ≠ 0 ∧ host.euid ≠ 0 ∧ host.drmDevice = some path ∧
          (host.node path).isSome ∧ 0 ≤ fd ∧ c'.devicePath = snprintf 256 path ∧
          u' = Function.update u fd (some path)) c u := by
  rw [openDrmAuto, Cmd.wp_bind]
  apply Cmd.wp_mono (drmDeviceEnv_spec u)
  intro r c' u' h
  obtain ⟨hc, hu, hr⟩ := h
  subst hc hu
  cases r with
  | none => exact Cmd.wp_mono (autoScan_spec u') fun _ _ _ h => .inl h
  | some path =>
    obtain ⟨huid, heuid, hdevice⟩ := hr path rfl
    dsimp only
    rw [Cmd.wp_bind, os, Cmd.wp_call]
    refine ⟨trivial, fun fd u'' hs => ?_⟩
    cases hnode : host.node path with
    | none =>
      simp only [hnode] at hs
      obtain ⟨hneg, rfl⟩ := hs
      rw [if_neg (not_le.mpr hneg)]
      exact Cmd.wp_mono (autoScan_spec u'') fun _ _ _ h => .inl h
    | some card =>
      simp only [hnode] at hs
      obtain ⟨hfd, -, rfl⟩ := hs
      rw [if_pos hfd, Cmd.wp_bind]
      exact .inr ⟨path, huid, heuid, hdevice, by simp [hnode], hfd, rfl, rfl⟩

/-- What the scan does to the files, it does to the table of what it opened. -/
theorem scan_sim (s t : Files) (u : FdTable) (o : CardOp) (h : s.Since t ∧ s.since t = u)
    (hlegal : host.toCardHost.env.legal u o) : host.files.left.legal t o ∧
      ∀ r t', host.files.left.step t o r t' →
        ∃ u', host.toCardHost.env.step u o r u' ∧ s.Since t' ∧ s.since t' = u' := by
  obtain ⟨hs, rfl⟩ := h
  cases o with
  | getuid | geteuid | secureGetenv =>
    refine ⟨trivial, ?_⟩
    rintro r t' ⟨hr, rfl⟩
    exact ⟨_, ⟨hr, rfl⟩, hs, rfl⟩
  | openNode path =>
    refine ⟨trivial, fun fd t' hstep => ?_⟩
    have hstep : host.cardStep t (.openNode path) fd t' := hstep
    unfold DeviceHost.cardStep at hstep
    cases hnode : host.node path with
    | none =>
      simp only [hnode] at hstep
      obtain ⟨hneg, rfl⟩ := hstep
      refine ⟨_, ?_, hs, rfl⟩
      simp [hnode, hneg]
    | some card =>
      simp only [hnode] at hstep
      obtain ⟨hfd, hfree, grant, rfl⟩ := hstep
      refine ⟨_, ?_, hs.opened hfree grant, rfl⟩
      have hnone : s.since t fd = none := by simp [Files.since, hfree]
      simp [hnode, hfd, hnone, Files.since_opened hs.next]
  | close fd =>
    obtain ⟨path, hpath⟩ := Option.isSome_iff_exists.mp hlegal
    obtain ⟨f, hf, hle, -⟩ := Files.since_eq_some.mp hpath
    have hopen : (t.file fd).isSome := by simp [hf]
    refine ⟨hopen, ?_⟩
    rintro r t' rfl
    exact ⟨_, Files.since_closed, hs.closed ⟨f, hf, hle⟩, rfl⟩
  | getResources fd | getCrtc fd id =>
    obtain ⟨path, hpath⟩ := Option.isSome_iff_exists.mp hlegal
    obtain ⟨f, hf, -, hfp⟩ := Files.since_eq_some.mp hpath
    have hopen : (t.file fd).isSome := by simp [hf]
    have hbehind : host.toCardHost.behind (s.since t) fd = t.behind fd host.node := by
      simp [CardHost.behind, Files.behind, hpath, hf, hfp]
    refine ⟨hopen, ?_⟩
    rintro r t' ⟨hr, rfl⟩
    refine ⟨_, ⟨?_, rfl⟩, hs, rfl⟩
    rw [hbehind]
    exact hr

theorem wp_scan {α : Type} {m : CardM α} {Q : α → OpenCtx → FdTable → Prop} (hs : s.Since t)
    (h : Cmd.wp host.toCardHost.env m Q c (s.since t)) :
    Cmd.wp host.files (Cmd.zoom id (fun _ c => c) m)
      (fun a c' t' => s.Since t' ∧ Q a c' (s.since t')) c t := by
  rw [Cmd.wp_zoom]
  apply Cmd.wp_sim (E := host.files.left) (F := host.toCardHost.env)
    (fun (t : Files) (u : FdTable) => s.Since t ∧ s.since t = u) (scan_sim s) ⟨hs, rfl⟩
  apply Cmd.wp_mono h
  intro a c' u' hQ t' h
  obtain ⟨ht', hu'⟩ := h
  subst hu'
  exact ⟨ht', hQ⟩

theorem openChosen_spec (s : Files) : Cmd.wp host.files openChosen (fun fd c' t =>
    (fd < 0 ∧ s.Same t ∧ host.Barren c.devicePath) ∨
      ∃ path f, host.Chosen c.devicePath path c'.devicePath ∧ s.Adds fd path True f t) c s := by
  unfold openChosen
  rw [Cmd.wp_bind, Cmd.wp_get, Cmd.wp_ite]
  constructor
  · intro hnamed
    refine ⟨trivial, fun fd t hstep => ?_⟩
    have hstep : host.cardStep s (.openNode c.devicePath) fd t := hstep
    unfold DeviceHost.cardStep at hstep
    cases hnode : host.node c.devicePath with
    | none =>
      simp only [hnode] at hstep
      obtain ⟨hneg, rfl⟩ := hstep
      exact .inl ⟨hneg, .refl t, .inl ⟨hnamed, hnode⟩⟩
    | some card =>
      simp only [hnode] at hstep
      obtain ⟨hfd, hfree, grant, rfl⟩ := hstep
      exact .inr ⟨_, _, .named hnamed, Files.adds_opened hfd hfree grant⟩
  · intro hempty
    have hempty : c.devicePath = "" := not_not.mp hempty
    apply Cmd.wp_mono (wp_scan (Files.Since.refl s) (openDrmAuto_spec (s.since s)))
    intro fd c' t h
    obtain ⟨hs, h⟩ := h
    rw [Files.since_self] at h
    rcases h with (⟨i, hi, hfd, -, hpath, ht⟩ | ⟨hnone, hfd, -, ht⟩) |
      ⟨path, huid, heuid, hdevice, hnode, hfd, hpath, ht⟩
    · obtain ⟨f, hadds⟩ := hs.adds hfd ht
      refine .inr ⟨_, f, ?_, hadds⟩
      rw [hpath]
      exact .picked hempty hi
    · exact .inl ⟨by omega, hs.same ht, .inr ⟨hempty, hnone⟩⟩
    · obtain ⟨f, hadds⟩ := hs.adds hfd ht
      refine .inr ⟨_, f, ?_, hadds⟩
      rw [hpath]
      exact .told hempty huid heuid hdevice hnode

theorem haveCapSysAdmin_spec : Cmd.wp host.files haveCapSysAdmin
    (fun able c' t' => c' = c ∧ t' = t ∧ (able = true ↔ host.SysAdmin)) c t := by
  unfold haveCapSysAdmin
  rw [Cmd.wp_bind, wp_onDevice]
  refine ⟨trivial, ?_⟩
  intro r t' h
  obtain ⟨hr, ht⟩ := h
  subst hr ht
  unfold DeviceHost.SysAdmin
  cases heffective : host.effective with
  | some effective => exact ⟨rfl, rfl, Iff.rfl⟩
  | none =>
    dsimp only
    rw [Cmd.wp_bind, wp_onCard]
    refine ⟨trivial, ?_⟩
    intro euid t' h
    obtain ⟨heuid, ht⟩ := h
    subst heuid ht
    rw [Cmd.wp_ite]
    constructor
    · intro hroot
      exact ⟨rfl, rfl, by simp [hroot]⟩
    · intro hnot
      rw [Cmd.wp_bind, wp_onCard]
      refine ⟨trivial, ?_⟩
      intro uid t' h
      obtain ⟨huid, ht⟩ := h
      subst huid ht
      exact ⟨rfl, rfl, by simp [hnot]⟩

/-- Mastership is left to a caller that needs it, and to no other. -/
theorem giveUpMaster_spec (h : s.Adds fd path True f t) : Cmd.wp host.files (giveUpMaster fd)
    (fun _ c' t' => c' = c ∧ s.Adds fd path (¬ host.SysAdmin) f t') c t := by
  unfold giveUpMaster
  rw [Cmd.wp_bind]
  apply Cmd.wp_mono haveCapSysAdmin_spec
  intro able c' t' h
  obtain ⟨hc, ht, hable⟩ := h
  subst hc ht
  rw [Cmd.wp_ite]
  constructor
  · intro hyes
    have hadmin := hable.mp hyes
    rw [Cmd.wp_bind, wp_onDevice]
    have hopen : (t'.file fd).isSome := by simp [h.at]
    refine ⟨⟨hopen, hadmin⟩, fun r t'' ht => ?_⟩
    have ht : t'' = t'.dropped fd := ht
    subst ht
    have hfalse : (¬ host.SysAdmin) = False := by simp [hadmin]
    rw [hfalse]
    exact ⟨rfl, h.dropped⟩
  · intro hno
    have htrue : (¬ host.SysAdmin) = True := by simp [← hable, hno]
    rw [htrue]
    exact ⟨rfl, h⟩

theorem raiseFd_spec (h : s.Adds fd path left f t) : Cmd.wp host.files (raiseFd fd)
    (fun fd' c' t' => c' = c ∧ s.Adds fd' path left f t' ∧ (host.room = true → 100 ≤ fd')) c t := by
  have hopen : (t.file fd).isSome := by simp [h.at]
  unfold raiseFd
  rw [Cmd.wp_bind, wp_onDevice]
  refine ⟨hopen, fun high t' hstep => ?_⟩
  unfold DeviceHost.deviceStep at hstep
  rw [Cmd.wp_ite]
  split_ifs at hstep with hroom
  · obtain ⟨hhigh, hfree, rfl⟩ := hstep
    constructor
    · intro hpos
      rw [Cmd.wp_bind, wp_onCard]
      have hne : fd ≠ high := by
        intro heq
        rw [← heq, h.at] at hfree
        cases hfree
      refine ⟨?_, fun r t'' ht => ?_⟩
      · show (Function.update t.file high (t.file fd) fd).isSome
        rw [Function.update_of_ne hne]
        exact hopen
      · have ht : t'' = (t.duped fd high).closed fd := ht
        subst ht
        exact ⟨rfl, h.raised hpos hfree, fun _ => hhigh⟩
    · intro hneg
      have : (0 : ℤ) ≤ high := by
        have hhigh : (100 : ℤ) ≤ high := hhigh
        omega
      exact absurd this hneg
  · obtain ⟨hneg, rfl⟩ := hstep
    constructor
    · intro hpos
      exact absurd hpos (not_le.mpr hneg)
    · intro _
      exact ⟨rfl, h, fun hyes => absurd hyes hroom⟩

/-- A question about an open device. -/
theorem wp_ask {o : DeviceOp} {Q : DeviceAns o → OpenCtx → Files → Prop}
    (hlegal : host.deviceLegal t o) (hstep : ∀ r t', host.deviceStep t o r t' → t' = t)
    (h : ∀ r, host.deviceStep t o r t → Q r c t) : Cmd.wp host.files (onDevice o) Q c t := by
  rw [wp_onDevice]
  refine ⟨hlegal, fun r t' hs => ?_⟩
  obtain rfl := hstep r t' hs
  exact h r hs

theorem setUpDevice_spec (h : s.Adds fd path True f t) : Cmd.wp host.files (setUpDevice fd)
    (fun _ c' t' => c' = c ∧ s.Adds fd path (¬ host.SysAdmin) f t') c t := by
  unfold setUpDevice
  rw [Cmd.wp_bind]
  apply Cmd.wp_mono (giveUpMaster_spec h)
  intro _ c' t' h
  obtain ⟨hc, h'⟩ := h
  subst hc
  have hopen : (t'.file fd).isSome := by simp [h'.at]
  have hcap (cap : DeviceCap) {Q : Bool → OpenCtx → Files → Prop} (hQ : ∀ r, Q r c' t') :
      Cmd.wp host.files (onDevice (.setClientCap fd cap)) Q c' t' :=
    wp_ask hopen (fun _ _ hs => hs) fun r _ => hQ r
  have hdriver {Q : String → OpenCtx → Files → Prop} (hQ : ∀ r, Q r c' t') :
      Cmd.wp host.files (detectDriver fd) Q c' t' := by
    unfold detectDriver
    rw [Cmd.wp_bind]
    apply wp_ask (o := .getVersion fd) hopen (fun _ _ hs => hs.2)
    intro r _
    cases r <;> exact hQ _
  simp only [Cmd.wp_bind]
  exact hdriver fun _ => hcap _ fun _ => hcap _ fun _ => hcap _ fun _ => ⟨rfl, h'⟩

end Calls

/-- `drmtap_open` fails for want of memory or of a device, or it adds the descriptor of one. -/
theorem drmtapOpen_spec {host : DeviceHost} (config : Option DrmtapConfig) (c : OpenCtx)
    (s : Files) : Cmd.wp host.files (drmtapOpen config) (fun r _ t =>
      (r = none → s.Same t ∧ (host.memory = true →
        host.Barren (snprintf 256 ((config.bind (·.devicePath)).getD "")))) ∧
      ∀ o, r = some o → ∃ path f,
        host.Chosen (snprintf 256 ((config.bind (·.devicePath)).getD "")) path o.devicePath ∧
        s.Adds o.drmFd path (¬ host.SysAdmin) f t ∧ (host.room = true → 100 ≤ o.drmFd) ∧
        o.ctx = .opened o.ctx.driverName ((config.map (·.crtcId)).getD 0)) c s := by
  unfold drmtapOpen
  rw [Cmd.wp_bind]
  apply wp_ask (o := .calloc) trivial (fun _ _ hs => hs.2)
  intro memory h
  obtain ⟨hmemory, _⟩ := h
  rw [Cmd.wp_ite]
  constructor
  · intro hno
    rw [Cmd.wp_pure]
    refine ⟨fun _ => ⟨.refl s, fun hyes => absurd (hmemory.trans hyes) hno⟩, ?_⟩
    simp
  intro _
  simp only [Cmd.wp_bind, Cmd.wp_set]
  apply Cmd.wp_mono (openChosen_spec s)
  intro fd c' t h
  rw [Cmd.wp_ite]
  constructor
  · intro hneg
    rw [Cmd.wp_pure]
    rcases h with ⟨-, hsame, hbarren⟩ | ⟨path, f, -, hadds⟩
    · exact ⟨fun _ => ⟨hsame, fun _ => hbarren⟩, by simp⟩
    · exact absurd hadds.nonneg (not_le.mpr hneg)
  · intro hfd
    rcases h with ⟨hneg, -⟩ | ⟨path, f, hchosen, hadds⟩
    · exact absurd hneg hfd
    rw [Cmd.wp_bind]
    apply Cmd.wp_mono (raiseFd_spec hadds)
    intro fd' c'' t' h
    obtain ⟨hc, hadds, hroom⟩ := h
    subst hc
    rw [Cmd.wp_bind]
    apply Cmd.wp_mono (setUpDevice_spec hadds)
    intro driver c₃ t'' h
    obtain ⟨hc, hadds⟩ := h
    subst hc
    rw [Cmd.wp_bind, Cmd.wp_get, Cmd.wp_pure]
    refine ⟨by simp, fun o ho => ?_⟩
    cases ho
    exact ⟨path, f, hchosen, hadds, hroom, rfl⟩

/-- Whatever the machine is like: `drmtap_open` either leaves the descriptors of the process and
its masterships as they were, or adds one descriptor, of one new file, for the device that was
named or else chosen, at 100 or above if such a number is to be had. It is left a mastership by
that exactly if it has no CAP_SYS_ADMIN and the kernel made it master when it opened the device.
The close of the descriptor takes all of it back. -/
theorem drmtap_open_device {host : DeviceHost} (config : Option DrmtapConfig) (c : OpenCtx)
    (s : Files) : Cmd.wp host.files (drmtapOpen config) (fun r _ t =>
      (r = none → s.Same t) ∧ ∀ o, r = some o → ∃ path f,
        host.Chosen (snprintf 256 ((config.bind (·.devicePath)).getD "")) path o.devicePath ∧
        s.Adds o.drmFd path (¬ host.SysAdmin) f t ∧ (host.room = true → 100 ≤ o.drmFd) ∧
        s.Same (t.closed o.drmFd) ∧
        o.ctx = .opened o.ctx.driverName ((config.map (·.crtcId)).getD 0)) c s := by
  apply Cmd.wp_mono (drmtapOpen_spec config c s)
  intro r c' t h
  obtain ⟨hfail, hopen⟩ := h
  refine ⟨fun hr => (hfail hr).1, fun o ho => ?_⟩
  obtain ⟨path, f, hchosen, hadds, hroom, hctx⟩ := hopen o ho
  exact ⟨path, f, hchosen, hadds, hroom, hadds.closed, hctx⟩

end Drmtap
