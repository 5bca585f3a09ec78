import Drmtap.Lib.Program

/-! Programs that return: with enough fuel every run ends, and ends well. -/
namespace Effect

variable {Op : Type} {Ans : Op → Type} {α β : Type}

namespace Prog

/-- From some number of rounds on, no loop is cut short. -/
def halts (E : Env Op Ans) : Prog Op Ans α → (α → E.State → Prop) → E.State → Prop
  | .ret a, Q, s => Q a s
  | .call o k, Q, s => ∀ r s', E.step s o r s' → (k r).halts E Q s'
  | .any k, Q, s => ∃ N, ∀ n, N ≤ n → (k n).halts E Q s
  | .hang, _, _ | .fail, _, _ => False

variable {E : Env Op Ans} {p : Prog Op Ans α} {Q R : α → E.State → Prop} {s : E.State}

theorem halts_mono (h : p.halts E Q s) (hQ : ∀ a t, Q a t → R a t) : p.halts E R s := by
  induction p generalizing s with
  | ret a => exact hQ a s h
  | call o k ih => exact fun r s' hs => ih r (h r s' hs)
  | any k ih =>
    obtain ⟨N, hN⟩ := h
    exact ⟨N, fun n hn => ih n (hN n hn)⟩
  | hang | fail => exact h.elim

theorem halts_bind {f : α → Prog Op Ans β} {Q : β → E.State → Prop}
    (h : p.halts E (fun a t => (f a).halts E Q t) s) : (p >>= f).halts E Q s := by
  rw [bind_eq]
  induction p generalizing s with
  | ret a => exact h
  | call o k ih => exact fun r s' hs => ih r (h r s' hs)
  | any k ih =>
    obtain ⟨N, hN⟩ := h
    exact ⟨N, fun n hn => ih n (hN n hn)⟩
  | hang | fail => exact h.elim

end Prog

namespace Cmd
variable {S : Type} {E : Env Op Ans} {Q R : α → S → E.State → Prop} {st : S} {s : E.State}

def halts (E : Env Op Ans) (m : Cmd S Op Ans α) (Q : α → S → E.State → Prop) (st : S)
    (s : E.State) : Prop :=
  Prog.halts E (m st) (fun x t => Q x.1 x.2 t) s

theorem halts_call {o : Op} {Q : Ans o → S → E.State → Prop}
    (h : ∀ r s', E.step s o r s' → Q r st s') : halts E (call o) Q st s := h

theorem halts_bind {m : Cmd S Op Ans α} {f : α → Cmd S Op Ans β} {Q : β → S → E.State → Prop}
    (h : halts E m (fun a st' s' => halts E (f a) Q st' s') st s) : halts E (m >>= f) Q st s :=
  Prog.halts_bind h

theorem halts_mono {m : Cmd S Op Ans α} (h : halts E m Q st s)
    (hQ : ∀ a st' s', Q a st' s' → R a st' s') : halts E m R st s :=
  Prog.halts_mono h fun x t => hQ x.1 x.2 t

theorem halts_ite {c : Prop} [Decidable c] {m m' : Cmd S Op Ans α} (hm : c → halts E m Q st s)
    (hm' : ¬ c → halts E m' Q st s) : halts E (if c then m else m') Q st s := by
  split
  next h => exact hm h
  next h => exact hm' h

end Cmd

/-! Programs that are safe as well -/

namespace Cmd
variable {S : Type} {E : Env Op Ans} {Q R : α → S → E.State → Prop} {st : S} {s : E.State}

/-- No run goes wrong, and every run ends. -/
def total (E : Env Op Ans) (m : Cmd S Op Ans α) (Q : α → S → E.State → Prop) (st : S)
    (s : E.State) : Prop := wp E m Q st s ∧ halts E m Q st s

theorem total_pure {a : α} (h : Q a st s) : total E (pure a : Cmd S Op Ans α) Q st s := ⟨h, h⟩

theorem total_call {o : Op} {Q : Ans o → S → E.State → Prop} (ho : E.legal s o)
    (h : ∀ r s', E.step s o r s' → Q r st s') : total E (call o) Q st s :=
  ⟨wp_call.mpr ⟨ho, h⟩, halts_call h⟩

theorem total_mono {m : Cmd S Op Ans α} (h : total E m Q st s)
    (hQ : ∀ a st' s', Q a st' s' → R a st' s') : total E m R st s :=
  ⟨wp_mono h.1 hQ, halts_mono h.2 hQ⟩

theorem total_bind {m : Cmd S Op Ans α} {f : α → Cmd S Op Ans β} {Q : β → S → E.State → Prop}
    (h : total E m (fun a st' s' => total E (f a) Q st' s') st s) : total E (m >>= f) Q st s :=
  ⟨wp_bind.mpr (wp_mono h.1 fun _ _ _ ha => ha.1),
    halts_bind (halts_mono h.2 fun _ _ _ ha => ha.2)⟩

theorem total_ite {c : Prop} [Decidable c] {m m' : Cmd S Op Ans α} (hm : c → total E m Q st s)
    (hm' : ¬ c → total E m' Q st s) : total E (if c then m else m') Q st s := by
  split
  next h => exact hm h
  next h => exact hm' h

/-- An invariant of the rounds, which bring a measure down. -/
theorem total_loop {σ : Type} {body : σ → Cmd S Op Ans (σ ⊕ α)} {x : σ}
    (I : σ → S → E.State → Prop) (size : σ → S → ℕ) (h0 : I x st s)
    (hstep : ∀ x st s, I x st s → total E (body x) (fun r st' s' =>
      r.elim (fun x' => I x' st' s' ∧ size x' st' < size x st) fun a => Q a st' s') st s) :
    total E (loop body x) Q st s := by
  constructor
  · apply wp_loop I h0
    intro x st s hI
    apply wp_mono (hstep x st s hI).1
    intro r st' s' h
    cases r with
    | inl x' => exact h.1
    | inr a => exact h
  · have hn (n : ℕ) : ∀ x st s, I x st s → size x st < n →
        halts E (loopN body n x) Q st s := by
      induction n with
      | zero => exact fun x st s _ h => absurd h (Nat.not_lt_zero _)
      | succ n ih =>
        intro x st s hI hlt
        apply halts_bind
        apply halts_mono (hstep x st s hI).2
        intro r st' s' h
        cases r with
        | inl x' => exact ih x' st' s' h.1 (Nat.lt_of_lt_of_le h.2 (Nat.lt_succ_iff.mp hlt))
        | inr a => exact h
    exact ⟨size x st + 1, fun n hle => hn n x st s h0 hle⟩

end Cmd

end Effect
