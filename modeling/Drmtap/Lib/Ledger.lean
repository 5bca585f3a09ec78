import Drmtap.Lib.Program

/-! Environments that keep account of what a program holds: an answer may hand things over,
a call may give one back, and it is legal to give back only what is held. -/
namespace Effect

structure Ledger (Op : Type) (Ans : Op → Type) (K : Type) where
  takes : (o : Op) → Ans o → Multiset K
  gives : Op → Option K

namespace Ledger
variable {Op : Type} {Ans : Op → Type} {K : Type} [DecidableEq K] {α S : Type}

/-- What is held once a call has given back its own. -/
def after (L : Ledger Op Ans K) (held : Multiset K) (o : Op) : Multiset K :=
  match L.gives o with
  | some k => held.erase k
  | none => held

/-- The environment that answers as `A` allows. -/
abbrev env (L : Ledger Op Ans K) (A : (o : Op) → Ans o → Prop) : Env Op Ans where
  State := Multiset K
  legal held o := ∀ k, L.gives o = some k → k ∈ held
  step held o r held' := A o r ∧ held' = L.takes o r + L.after held o

/-- The deterministic environment that answers from a table. -/
def device (L : Ledger Op Ans K) (answer : (o : Op) → Ans o) (held : Multiset K) (o : Op) :
    Option (Ans o × Multiset K) :=
  some (answer o, L.takes o (answer o) + L.after held o)

/-- Calls that neither take nor give. -/
def Neutral (L : Ledger Op Ans K) (o : Op) : Prop := L.gives o = none ∧ ∀ r, L.takes o r = 0

variable {L : Ledger Op Ans K} {A : (o : Op) → Ans o → Prop}

theorem quiet (L : Ledger Op Ans K) (A : (o : Op) → Ans o → Prop) :
    (L.env A).Quiet L.Neutral A := by
  intro o ho held
  constructor
  · intro k hk
    simp [ho.1] at hk
  · rintro r held' ⟨hr, rfl⟩
    exact ⟨hr, by simp [after, ho.1, ho.2]⟩

/-- What lies beside all that is held stays there. -/
theorem frame (A : (o : Op) → Ans o → Prop) {held : Multiset K} {o : Op}
    (h : (L.env A).legal held o) (rest : Multiset K) : (L.env A).legal (held + rest) o ∧
      ∀ r s, (L.env A).step (held + rest) o r s →
        ∃ t, (L.env A).step held o r t ∧ s = t + rest := by
  have hafter : L.after (held + rest) o = L.after held o + rest := by
    unfold after
    cases hgives : L.gives o with
    | none => rfl
    | some k => exact Multiset.erase_add_left_pos rest (h k hgives)
  constructor
  · intro k hk
    exact Multiset.mem_add.mpr (.inl (h k hk))
  · intro r s hs
    obtain ⟨hr, hs⟩ := hs
    refine ⟨_, ⟨hr, rfl⟩, ?_⟩
    rw [hs, hafter, add_assoc]

theorem device_runs {answer : (o : Op) → Ans o} (hA : ∀ o, A o (answer o)) {fuel : ℕ}
    {m : Cmd S Op Ans α} {st st' : S} {held held' : Multiset K} {a : α}
    (he : m.exec fuel (L.device answer) st held = some ((a, st'), held')) :
    Cmd.Runs (L.env A) m st held a st' held' := by
  refine Cmd.exec_runs (E := L.env A) ?_ he
  intro s o r s' h
  obtain ⟨rfl, rfl⟩ := Prod.mk.inj (Option.some.inj h)
  exact ⟨hA o, rfl⟩

section Rules
variable {st : S} {held : Multiset K} {o : Op} {Q : Ans o → S → Multiset K → Prop}

/-- A neutral call. -/
theorem wp_neutral (ho : L.Neutral o) (h : ∀ r, A o r → Q r st held) :
    Cmd.wp (L.env A) (Cmd.call o) Q st held := by
  refine ⟨((quiet L A) o ho held).1, fun r s' hs => ?_⟩
  obtain ⟨hr, rfl⟩ := ((quiet L A) o ho held).2 r s' hs
  exact h r hr

/-- A call that only takes. -/
theorem wp_take (ho : L.gives o = none) (h : ∀ r, A o r → Q r st (L.takes o r + held)) :
    Cmd.wp (L.env A) (Cmd.call o) Q st held := by
  rw [Cmd.wp_call]
  constructor
  · intro k hk
    simp [ho] at hk
  · rintro r s' ⟨hr, rfl⟩
    simpa only [after, ho] using h r hr

/-- A call that only gives back what was taken last. -/
theorem wp_give {k : K} (ho : L.gives o = some k) (hz : ∀ r, L.takes o r = 0)
    (h : ∀ r, A o r → Q r st held) : Cmd.wp (L.env A) (Cmd.call o) Q st (k ::ₘ held) := by
  rw [Cmd.wp_call]
  constructor
  · intro k' hk
    obtain rfl : k = k' := Option.some.inj (ho.symm.trans hk)
    exact Multiset.mem_cons_self k held
  · rintro r s' ⟨hr, rfl⟩
    simpa [after, ho, hz] using h r hr

/-- Code that makes neutral calls only. -/
theorem wp_reads {m : Cmd S Op Ans α} (hm : Cmd.Reads L.Neutral m) (st : S)
    (held : Multiset K) :
    Cmd.wp (L.env A) m (fun _ st' held' => st' = st ∧ held' = held) st held :=
  hm.wp (quiet L A) st held

end Rules

end Ledger

end Effect
