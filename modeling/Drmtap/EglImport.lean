import Drmtap.Egl

/-! What `egl_import_dmabuf` tells the driver of a buffer, over every run of its attempts. -/
namespace Drmtap

open Memory Effect

/-- An import that was tried, and the image it made. -/
abbrev Attempt := ImageAttribs × Option ℕ

def noteAttempt (tried : List Attempt) : (o : Op ⊕ GlOp) → EglAns o → List Attempt
  | .inr (.createImage attribs), (image : Option ℕ) => tried ++ [(attribs, image)]
  | _, _ => tried

/-- A driver that may take or refuse every attribute list, and what it was given so far. -/
abbrev importEnv : Effect.Env (Op ⊕ GlOp) EglAns := Effect.Env.noting noteAttempt

/-- Two formats of one bit depth and one channel order: equal, or the 8-bit RGB formats with and
without alpha. -/
def SameChannels (fourcc fourcc' : UInt32) : Prop :=
  fourcc = fourcc' ∨
    (fourcc = fmtXR24 ∨ fourcc = fmtAR24) ∧ (fourcc' = fmtXR24 ∨ fourcc' = fmtAR24)

/-- Lists were tried in a row: an image comes of the one that made it, and none comes of lists
that made none. -/
def Tried (lists : List ImageAttribs) (tried : List Attempt) (image : Option ℕ)
    (tried' : List Attempt) : Prop :=
  ∃ more, tried' = tried ++ more ∧ (∀ a ∈ more, a.1 ∈ lists) ∧
    ∀ i, image = some i → ∃ a ∈ more, a.2 = some i

theorem Tried.cons {attribs : ImageAttribs} {lists : List ImageAttribs} {tried tried' : List Attempt}
    {image : Option ℕ} (h : Tried lists (tried ++ [(attribs, none)]) image tried') :
    Tried (attribs :: lists) tried image tried' := by
  obtain ⟨more, rfl, hlists, hsome⟩ := h
  refine ⟨(attribs, none) :: more, by simp, ?_, ?_⟩
  · intro a ha
    rcases List.mem_cons.mp ha with rfl | ha
    · exact List.mem_cons_self
    · exact List.mem_cons_of_mem _ (hlists a ha)
  · intro i he
    obtain ⟨a, ha, hai⟩ := hsome i he
    exact ⟨a, List.mem_cons_of_mem _ ha, hai⟩

section Attempts
variable {K : Type} {t : EglThread K} {tried : List Attempt}

theorem tryImport_tried {lists : List ImageAttribs} :
    Cmd.wp importEnv (tryImport lists : EglM K (Option ℕ))
      (fun image _ tried' => Tried lists tried image tried') t tried := by
  induction lists generalizing tried with
  | nil => exact ⟨[], (List.append_nil _).symm, by simp, by simp⟩
  | cons attribs rest ih =>
    unfold tryImport
    rw [Cmd.wp_bind]
    refine ⟨trivial, ?_⟩
    rintro (_ | i) _ rfl
    · have hrest : Cmd.wp importEnv (tryImport rest : EglM K (Option ℕ))
          (fun image _ tried' => Tried (attribs :: rest) tried image tried') t
          (tried ++ [(attribs, none)]) := Cmd.wp_mono ih fun _ _ _ h => h.cons
      exact hrest
    · refine ⟨[(attribs, some i)], rfl, by simp, ?_⟩
      rintro _ ⟨⟩
      exact ⟨_, List.mem_singleton_self _, rfl⟩

/-- A driver may take the first list. -/
theorem tryImport_first (attribs : ImageAttribs) (rest : List ImageAttribs) :
    Cmd.Runs importEnv (tryImport (attribs :: rest) : EglM K (Option ℕ)) t tried (some 0) t
      (tried ++ [(attribs, some 0)]) :=
  .call (r := (some 0 : Option ℕ)) rfl .ret

end Attempts

namespace Geometry
variable (g : Geometry) (fd : ℤ)

/-- Plane `p` as an attribute list is to give it, with a modifier. -/
def plane (modifier : Option UInt64) (p : Fin 4) : PlaneAttribs :=
  ⟨fd, g.offsets p, if p = 0 then g.stride else g.pitches p, modifier⟩

/-- An attribute list names the buffer: its size, its format or one that is read alike, and its
planes, each with the modifier if there is one. A linear buffer's may be left out. -/
structure Names (a : ImageAttribs) : Prop where
  size : a.width = g.width ∧ a.height = g.height
  channels : SameChannels g.fourcc a.fourcc
  planes : ∃ modifier, a.planes = ((List.finRange 4).take g.numPlanes).map (g.plane fd modifier) ∧
    (modifier = g.modifierAttrib ∨ modifier = none ∧ g.modifier = drmFormatModLinear)
  positive : ∀ p ∈ a.planes, p.offset ≤ int32Max ∧ p.pitch ≤ int32Max

/-- A thread that has converted nothing. -/
def freshThread : EglThread Unit := ⟨.zero, fun _ => "", fun _ => .opened "i915" 0, .empty, []⟩

/-- The import describes the buffer faithfully: whatever the driver answers, every list it gets
names the buffer, and an image comes only of a list that made one. -/
def Faithful : Prop :=
  ∀ (t t' : EglThread Unit) (image : Option ℕ) (tried : List Attempt),
    Cmd.Runs importEnv (eglImportDmabuf g fd) t [] image t' tried →
      (∀ a ∈ tried, g.Names fd a.1) ∧ ((∀ a ∈ tried, a.2 = none) → image = none) ∧
        ∀ i, image = some i → ∃ a ∈ tried, a.2 = some i

variable {g} {fd}

/-! The lists -/

theorem planes_length {a : ImageAttribs} (hn : g.numPlanes ≤ 4) (h : g.Names fd a) :
    a.planes.length = g.numPlanes := by
  obtain ⟨modifier, hp, -⟩ := h.planes
  rw [hp, List.length_map, List.length_take, List.length_finRange]
  omega

theorem attribs_length : (g.attribs fd).planes.length ≤ 3 := by
  unfold attribs auxPlane
  split_ifs
  all_goals simp

/-- Without a modifier the first list names one plane. -/
theorem attribs_length_invalid (hm : g.modifier = drmFormatModInvalid) :
    (g.attribs fd).planes.length = 1 := by
  simp [attribs, auxPlane, hm]

/-- What the range check lets through. -/
theorem positive_of_not_narrows (hn : ¬ g.narrows) :
    g.stride ≤ int32Max ∧ g.offsets 0 ≤ int32Max ∧ ∀ p : Fin 4, p.val < g.numPlanes →
      g.offsets p ≤ int32Max ∧ g.pitches p ≤ int32Max := by
  simp only [narrows, not_or, not_exists, not_and, UInt32.not_lt] at hn
  obtain ⟨hs, hp⟩ := hn
  have hpos : 0 < if 0 < g.numPlanes then g.numPlanes else 1 := by
    split
    next h => exact h
    next => exact Nat.one_pos
  refine ⟨hs, (hp 0 hpos).1, fun p hlt => hp p ?_⟩
  rw [if_pos (by omega)]
  exact hlt

/-- A list of the main plane alone names a buffer of one plane. -/
theorem names_main {a : ImageAttribs} {modifier : Option UInt64} (hn : ¬ g.narrows)
    (h1 : g.numPlanes = 1) (hsize : a.width = g.width ∧ a.height = g.height)
    (hf : SameChannels g.fourcc a.fourcc) (hp : a.planes = [g.mainPlane fd modifier])
    (hm : modifier = g.modifierAttrib ∨ modifier = none ∧ g.modifier = drmFormatModLinear) :
    g.Names fd a where
  size := hsize
  channels := hf
  planes := ⟨modifier, by rw [hp, h1]; rfl, hm⟩
  positive := by
    obtain ⟨hs, ho, -⟩ := positive_of_not_narrows hn
    rw [hp]
    simp only [List.mem_singleton, forall_eq]
    exact ⟨ho, hs⟩

/-- The first list names a buffer of up to three planes with a modifier. -/
theorem names_attribs (hn : ¬ g.narrows) (hlow : 1 ≤ g.numPlanes) (hhigh : g.numPlanes ≤ 3)
    (hm : g.modifier ≠ drmFormatModInvalid) : g.Names fd (g.attribs fd) where
  size := ⟨rfl, rfl⟩
  channels := .inl rfl
  planes := by
    refine ⟨some g.modifier, ?_, .inl (if_neg hm).symm⟩
    have hmain : g.modifierAttrib = some g.modifier := if_neg hm
    obtain h1 | h2 | h3 : g.numPlanes = 1 ∨ g.numPlanes = 2 ∨ g.numPlanes = 3 := by omega
    · simp [attribs, auxPlane, hmain, h1, mainPlane, plane, List.finRange_succ]
    · simp [attribs, auxPlane, hmain, h2, hm, mainPlane, plane, List.finRange_succ]
    · simp [attribs, auxPlane, hmain, h3, hm, mainPlane, plane, List.finRange_succ]
  positive := by
    obtain ⟨hs, ho, hp⟩ := positive_of_not_narrows hn
    have haux : ∀ p : Fin 4, ∀ q ∈ g.auxPlane fd p, q.offset ≤ int32Max ∧ q.pitch ≤ int32Max := by
      intro p q hq
      unfold auxPlane at hq
      split at hq
      next hlt =>
        obtain rfl := List.mem_singleton.mp hq
        exact hp p hlt.1
      next => cases hq
    intro p hmem
    rcases List.mem_cons.mp hmem with rfl | hmem
    · exact ⟨ho, hs⟩
    · rcases List.mem_append.mp hmem with hmem | hmem
      · exact haux 1 p hmem
      · exact haux 2 p hmem

/-- Every list that is tried names the buffer. -/
theorem names_attempts (hn : ¬ g.narrows) (hlow : 1 ≤ g.numPlanes)
    (hc : g.numPlanes ≤ 1 ∨ g.numPlanes ≤ 3 ∧ g.modifier ≠ drmFormatModInvalid) :
    ∀ a ∈ g.attempts fd, g.Names fd a := by
  intro a ha
  unfold attempts at ha
  rcases List.mem_cons.mp ha with rfl | ha
  · rcases hc with h1 | ⟨h3, hm⟩
    · have hone : g.numPlanes = 1 := by omega
      exact names_main hn hone ⟨rfl, rfl⟩ (.inl rfl) (by simp [attribs, auxPlane, hone]) (.inl rfl)
    · exact names_attribs hn hlow h3 hm
  · split at ha
    next hsafe =>
      have hone : g.numPlanes = 1 := by
        have hle := hsafe.1
        omega
      have hf : SameChannels g.fourcc fmtXR24 := .inr ⟨hsafe.2, .inl rfl⟩
      rcases List.mem_cons.mp ha with rfl | ha
      · exact names_main hn hone ⟨rfl, rfl⟩ hf rfl (.inl rfl)
      · split at ha
        next hlinear =>
          obtain rfl := List.mem_singleton.mp ha
          exact names_main hn hone ⟨rfl, rfl⟩ hf rfl (.inr ⟨rfl, hlinear⟩)
        next => cases ha
    next => cases ha

/-- The first list of a faithful import has all the planes. -/
theorem Faithful.planes (hf : g.Faithful fd) (hn : ¬ g.narrows) (hhigh : g.numPlanes ≤ 4) :
    (g.attribs fd).planes.length = g.numPlanes := by
  have hrun : Cmd.Runs importEnv (eglImportDmabuf g fd) freshThread [] (some 0) freshThread
      [(g.attribs fd, some 0)] := by
    unfold eglImportDmabuf
    rw [if_neg hn]
    exact tryImport_first _ _
  exact planes_length hhigh ((hf _ _ _ _ hrun).1 _ (List.mem_singleton_self _))

/-- The import describes the buffer faithfully unless there is a plane that its first list leaves
out: the fourth, or any but the first when there is no modifier. -/
theorem faithful_iff (g : Geometry) (fd : ℤ) (hlow : 1 ≤ g.numPlanes) (hhigh : g.numPlanes ≤ 4) :
    g.Faithful fd ↔ g.narrows ∨ g.numPlanes ≤ 1 ∨
      g.numPlanes ≤ 3 ∧ g.modifier ≠ drmFormatModInvalid := by
  constructor
  · intro hf
    by_cases hn : g.narrows
    · exact .inl hn
    · have hlen := hf.planes hn hhigh
      have hthree : (g.attribs fd).planes.length ≤ 3 := attribs_length
      by_cases hm : g.modifier = drmFormatModInvalid
      · have hone : (g.attribs fd).planes.length = 1 := attribs_length_invalid hm
        exact .inr (.inl (by omega))
      · exact .inr (.inr ⟨by omega, hm⟩)
  · intro hc t t' image tried hrun
    by_cases hn : g.narrows
    · have hnone : Cmd.wp importEnv (eglImportDmabuf g fd) (fun image _ tried => image = none ∧
          tried = []) t [] := by
        unfold eglImportDmabuf
        rw [if_pos hn]
        exact ⟨rfl, rfl⟩
      obtain ⟨rfl, rfl⟩ := Cmd.wp_runs hnone hrun
      exact ⟨by simp, fun _ => rfl, by simp⟩
    · unfold eglImportDmabuf at hrun
      rw [if_neg hn] at hrun
      obtain ⟨more, rfl, hlists, hsome⟩ := Cmd.wp_runs tryImport_tried hrun
      refine ⟨fun a ha => names_attempts hn hlow (hc.resolve_left hn) _ (hlists a ha), ?_, hsome⟩
      intro hall
      cases image with
      | none => rfl
      | some i =>
        obtain ⟨a, ha, hai⟩ := hsome i rfl
        rw [hall a ha] at hai
        cases hai

/-- A frame of `n` planes in one buffer. -/
def planar (n : ℕ) (modifier : UInt64) : Geometry where
  width := 64
  height := 64
  stride := 256
  fourcc := fmtXR24
  modifier := modifier
  numPlanes := n
  offsets p := 16384 * p.val.toUInt32
  pitches _ := 256

theorem faithful_iff_ccs : (planar 2 i915FormatModYTiled).Faithful 5 ↔
    (planar 2 i915FormatModYTiled).narrows ∨ (planar 2 i915FormatModYTiled).numPlanes ≤ 1 ∨
      (planar 2 i915FormatModYTiled).numPlanes ≤ 3 ∧
        (planar 2 i915FormatModYTiled).modifier ≠ drmFormatModInvalid :=
  faithful_iff _ _ (by decide) (by decide)

/-- The fourth plane is left out. -/
theorem import_drops_plane :
    ¬ ∀ (g : Geometry) (fd : ℤ), 1 ≤ g.numPlanes → g.numPlanes ≤ 4 → g.Faithful fd := by
  intro hall
  have hlen := (hall (planar 4 i915FormatModYTiled) 5 (by decide) (by decide)).planes (by decide)
    (by decide)
  exact absurd hlen (by decide)

end Geometry

end Drmtap
