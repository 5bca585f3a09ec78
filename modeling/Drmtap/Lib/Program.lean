import Mathlib

/-! Sequential programs that call an environment, and their weakest preconditions.

A program is a tree of calls. An environment says in which of its states a call is
legal, which answers it may give, and what state it moves to. `wp` is the safe partial
correctness reading: every run of the program stays legal, and each one that returns
satisfies the postcondition. -/
namespace Effect

/-- `any` is a natural number picked by the environment: it bounds the iterations of a
loop, and `hang` is the loop that has used them up, so it returns nothing. -/
inductive Prog (Op : Type) (Ans : Op → Type) (α : Type) where
  | ret (a : α)
  | call (o : Op) (k : Ans o → Prog Op Ans α)
  | any (k : ℕ → Prog Op Ans α)
  | hang
  | fail

structure Env (Op : Type) (Ans : Op → Type) where
  State : Type
  legal : State → Op → Prop
  step : State → (o : Op) → Ans o → State → Prop

variable {Op : Type} {Ans : Op → Type} {α β γ : Type}

namespace Prog

def bind : Prog Op Ans α → (α → Prog Op Ans β) → Prog Op Ans β
  | .ret a, f => f a
  | .call o k, f => .call o fun r => (k r).bind f
  | .any k, f => .any fun n => (k n).bind f
  | .hang, _ => .hang
  | .fail, _ => .fail

instance : Monad (Prog Op Ans) where
  pure := .ret
  bind := bind

theorem bind_eq (p : Prog Op Ans α) (f : α → Prog Op Ans β) : p >>= f = p.bind f := rfl

theorem bind_ret (p : Prog Op Ans α) : p.bind .ret = p := by
  induction p with
  | ret | hang | fail => rfl
  | call o k ih => simp only [bind, ih]
  | any k ih => simp only [bind, ih]

theorem bind_assoc (p : Prog Op Ans α) (f : α → Prog Op Ans β) (g : β → Prog Op Ans γ) :
    (p.bind f).bind g = p.bind fun a => (f a).bind g := by
  induction p with
  | ret | hang | fail => rfl
  | call o k ih => simp only [bind, ih]
  | any k ih => simp only [bind, ih]

instance : LawfulMonad (Prog Op Ans) :=
  LawfulMonad.mk' _ bind_ret (fun _ _ => rfl) bind_assoc

/-- A deterministic environment answers the calls; `none` when the program hangs, fails
or is answered nothing. The number picked by `any` is `fuel`. -/
def exec {σ : Type} (fuel : ℕ) (h : σ → (o : Op) → Option (Ans o × σ)) :
    Prog Op Ans α → σ → Option (α × σ)
  | .ret a, s => some (a, s)
  | .call o k, s => match h s o with
    | some (r, s') => (k r).exec fuel h s'
    | none => none
  | .any k, s => (k fuel).exec fuel h s
  | .hang, _ | .fail, _ => none

end Prog

/-- A run that returns. -/
inductive Run (E : Env Op Ans) : E.State → Prog Op Ans α → α → E.State → Prop where
  | ret {s a} : Run E s (.ret a) a s
  | call {s o k r s' a t} (hs : E.step s o r s') (hr : Run E s' (k r) a t) :
      Run E s (.call o k) a t
  | any {s k n a t} (hr : Run E s (k n) a t) : Run E s (.any k) a t

/-- A run that reaches a failure or an illegal call. -/
inductive Fault (E : Env Op Ans) : E.State → Prog Op Ans α → Prop where
  | fail {s} : Fault E s .fail
  | illegal {s o k} (h : ¬ E.legal s o) : Fault E s (.call o k)
  | call {s o k r s'} (hs : E.step s o r s') (hf : Fault E s' (k r)) : Fault E s (.call o k)
  | any {s k n} (hf : Fault E s (k n)) : Fault E s (.any k)

namespace Prog

def wp (E : Env Op Ans) : Prog Op Ans α → (α → E.State → Prop) → E.State → Prop
  | .ret a, Q, s => Q a s
  | .call o k, Q, s => E.legal s o ∧ ∀ r s', E.step s o r s' → (k r).wp E Q s'
  | .any k, Q, s => ∀ n, (k n).wp E Q s
  | .hang, _, _ => True
  | .fail, _, _ => False

variable {E : Env Op Ans} {p : Prog Op Ans α} {Q R : α → E.State → Prop} {s : E.State}

theorem wp_run (h : p.wp E Q s) {a : α} {t : E.State} (hr : Run E s p a t) : Q a t := by
  induction hr with
  | ret => exact h
  | call hs _ ih => exact ih (h.2 _ _ hs)
  | any _ ih => exact ih (h _)

theorem wp_safe (h : p.wp E Q s) : ¬ Fault E s p := by
  intro hf
  induction hf with
  | fail => exact h
  | illegal hl => exact hl h.1
  | call hs _ ih => exact ih (h.2 _ _ hs)
  | any _ ih => exact ih (h _)

theorem wp_of_runs (hf : ¬ Fault E s p) (hr : ∀ a t, Run E s p a t → Q a t) : p.wp E Q s := by
  induction p generalizing s with
  | ret a => exact hr a s .ret
  | call o k ih =>
    refine ⟨not_not.mp fun hl => hf (.illegal hl), fun r s' hs => ih r ?_ fun a t h => ?_⟩
    · exact fun h => hf (.call hs h)
    · exact hr a t (.call hs h)
  | any k ih =>
    intro n
    exact ih n (fun h => hf (.any h)) fun a t h => hr a t (.any h)
  | hang => trivial
  | fail => exact hf .fail

/-- The weakest precondition says exactly that no run faults and every result is good. -/
theorem wp_iff : p.wp E Q s ↔ ¬ Fault E s p ∧ ∀ a t, Run E s p a t → Q a t :=
  ⟨fun h => ⟨wp_safe h, fun _ _ => wp_run h⟩, fun h => wp_of_runs h.1 h.2⟩

theorem wp_mono (h : p.wp E Q s) (hQ : ∀ a t, Q a t → R a t) : p.wp E R s := by
  induction p generalizing s with
  | ret a => exact hQ a s h
  | call o k ih => exact ⟨h.1, fun r s' hs => ih r (h.2 r s' hs)⟩
  | any k ih => exact fun n => ih n (h n)
  | hang => trivial
  | fail => exact h

theorem wp_and (h : p.wp E Q s) (h' : p.wp E R s) : p.wp E (fun a t => Q a t ∧ R a t) s :=
  wp_iff.mpr ⟨wp_safe h, fun _ _ hr => ⟨wp_run h hr, wp_run h' hr⟩⟩

theorem wp_bind {f : α → Prog Op Ans β} {Q : β → E.State → Prop} :
    (p >>= f).wp E Q s ↔ p.wp E (fun a t => (f a).wp E Q t) s := by
  rw [bind_eq]
  induction p generalizing s with
  | ret | hang | fail => exact Iff.rfl
  | call o k ih => simp only [bind, wp, ih]
  | any k ih => simp only [bind, wp, ih]

/-- Every step of `E` is one that `F` allows, through a relation between their states:
what `F` guarantees then holds in `E`. -/
theorem wp_sim {F : Env Op Ans} (rel : E.State → F.State → Prop) {t : F.State}
    (hsim : ∀ s t o, rel s t → F.legal t o → E.legal s o ∧
      ∀ r s', E.step s o r s' → ∃ t', F.step t o r t' ∧ rel s' t')
    (hr : rel s t) (h : p.wp F (fun a t => ∀ s, rel s t → Q a s) t) : p.wp E Q s := by
  induction p generalizing s t with
  | ret a => exact h s hr
  | call o k ih =>
    obtain ⟨hl, hs⟩ := hsim s t o hr h.1
    refine ⟨hl, fun r s' he => ?_⟩
    obtain ⟨t', hf, hr'⟩ := hs r s' he
    exact ih r hr' (h.2 r t' hf)
  | any k ih => exact fun n => ih n hr (h n)
  | hang => trivial
  | fail => exact h

/-- Some run returns a good result. -/
def can (E : Env Op Ans) : Prog Op Ans α → (α → E.State → Prop) → E.State → Prop
  | .ret a, Q, s => Q a s
  | .call o k, Q, s => ∃ r s', E.step s o r s' ∧ (k r).can E Q s'
  | .any k, Q, s => ∃ n, (k n).can E Q s
  | .hang, _, _ | .fail, _, _ => False

theorem can_iff : p.can E Q s ↔ ∃ a t, Run E s p a t ∧ Q a t := by
  constructor
  · intro h
    induction p generalizing s with
    | ret a => exact ⟨a, s, .ret, h⟩
    | call o k ih =>
      obtain ⟨r, s', hs, h⟩ := h
      obtain ⟨a, t, hr, hQ⟩ := ih r h
      exact ⟨a, t, .call hs hr, hQ⟩
    | any k ih =>
      obtain ⟨n, h⟩ := h
      obtain ⟨a, t, hr, hQ⟩ := ih n h
      exact ⟨a, t, .any hr, hQ⟩
    | hang | fail => exact h.elim
  · rintro ⟨a, t, hr, hQ⟩
    induction hr with
    | ret => exact hQ
    | call hs _ ih => exact ⟨_, _, hs, ih hQ⟩
    | any _ ih => exact ⟨_, ih hQ⟩

theorem can_mono (h : p.can E Q s) (hQ : ∀ a t, Q a t → R a t) : p.can E R s := by
  obtain ⟨a, t, hr, h⟩ := can_iff.mp h
  exact can_iff.mpr ⟨a, t, hr, hQ a t h⟩

theorem can_bind {f : α → Prog Op Ans β} {Q : β → E.State → Prop} :
    (p >>= f).can E Q s ↔ p.can E (fun a t => (f a).can E Q t) s := by
  rw [bind_eq]
  induction p generalizing s with
  | ret | hang | fail => exact Iff.rfl
  | call o k ih => simp only [bind, can, ih]
  | any k ih => simp only [bind, can, ih]

/-- What every run guarantees holds of the one that exists. -/
theorem can_and (h : p.wp E Q s) (h' : p.can E R s) : p.can E (fun a t => Q a t ∧ R a t) s := by
  obtain ⟨a, t, hr, hR⟩ := can_iff.mp h'
  exact can_iff.mpr ⟨a, t, hr, wp_run h hr, hR⟩

end Prog

namespace Env

/-- The environment that answers the calls in `P` with what `A` allows; the others are
illegal. -/
abbrev only (P : Op → Prop) (A : (o : Op) → Ans o → Prop) : Env Op Ans where
  State := Unit
  legal _ o := P o
  step _ o r _ := P o ∧ A o r

/-- In `E` the calls in `P` are legal, move nothing, and are answered as `A` says. -/
def Quiet (E : Env Op Ans) (P : Op → Prop) (A : (o : Op) → Ans o → Prop) : Prop :=
  ∀ o, P o → ∀ s, E.legal s o ∧ ∀ r s', E.step s o r s' → A o r ∧ s' = s

/-- `E` may give every answer `A` allows to the calls in `P`. -/
def Serves (E : Env Op Ans) (P : Op → Prop) (A : (o : Op) → Ans o → Prop) : Prop :=
  ∀ o, P o → ∀ r, A o r → ∀ s, E.step s o r s

/-- `E` with its answers narrowed to those that meet `C`. -/
abbrev restrict (E : Env Op Ans) (C : E.State → (o : Op) → Ans o → Prop) : Env Op Ans where
  State := E.State
  legal := E.legal
  step s o r s' := E.step s o r s' ∧ C s o r

/-- `E`, where calls must also meet `G`. -/
abbrev guard (E : Env Op Ans) (G : E.State → Op → Prop) : Env Op Ans where
  State := E.State
  legal s o := E.legal s o ∧ G s o
  step := E.step

theorem Quiet.guard {E : Env Op Ans} {P : Op → Prop} {A : (o : Op) → Ans o → Prop}
    (hq : E.Quiet P A) {G : E.State → Op → Prop} (hG : ∀ o, P o → ∀ s, G s o) :
    (E.guard G).Quiet P A :=
  fun o ho s => ⟨⟨(hq o ho s).1, hG o ho s⟩, (hq o ho s).2⟩

end Env

/-- A program that makes quiet calls only leaves the environment where it was. -/
theorem Prog.wp_quiet {E : Env Op Ans} {P : Op → Prop} {A : (o : Op) → Ans o → Prop}
    {p : Prog Op Ans α} {Q : α → Prop} {s : E.State} (hq : E.Quiet P A)
    (h : p.wp (.only P A) (fun a _ => Q a) ()) : p.wp E (fun a s' => Q a ∧ s' = s) s := by
  refine wp_sim (fun s' _ => s' = s) (F := .only P A) ?_ rfl (wp_mono h ?_)
  · rintro s' _ o rfl ho
    exact ⟨(hq o ho s').1, fun r s'' hs =>
      ⟨(), ⟨ho, ((hq o ho s').2 r s'' hs).1⟩, ((hq o ho s').2 r s'' hs).2⟩⟩
  · rintro a _ ha _ rfl
    exact ⟨ha, rfl⟩

theorem Prog.can_quiet {E : Env Op Ans} {P : Op → Prop} {A : (o : Op) → Ans o → Prop}
    {p : Prog Op Ans α} {Q : α → Prop} {s : E.State} (hs : E.Serves P A)
    (h : p.can (.only P A) (fun a _ => Q a) ()) : p.can E (fun a s' => Q a ∧ s' = s) s := by
  induction p with
  | ret a => exact ⟨h, rfl⟩
  | call o k ih =>
    obtain ⟨r, _, ⟨ho, hr⟩, h⟩ := h
    exact ⟨r, s, hs o ho r hr s, ih r h⟩
  | any k ih =>
    obtain ⟨n, h⟩ := h
    exact ⟨n, ih n h⟩
  | hang | fail => exact h.elim

/-- Programs over a state of their own. -/
abbrev Cmd (S Op : Type) (Ans : Op → Type) (α : Type) := StateT S (Prog Op Ans) α

namespace Cmd
variable {S : Type}

def call (o : Op) : Cmd S Op Ans (Ans o) := fun st => .call o fun r => .ret (r, st)

def fail : Cmd S Op Ans α := fun _ => .fail

def loopN {σ : Type} (body : σ → Cmd S Op Ans (σ ⊕ α)) : ℕ → σ → Cmd S Op Ans α
  | 0, _ => fun _ => .hang
  | n + 1, x => do
    match ← body x with
    | .inl x' => loopN body n x'
    | .inr a => pure a

/-- Repeats `body` until it returns a result, for as many rounds as that takes. -/
def loop {σ : Type} (body : σ → Cmd S Op Ans (σ ⊕ α)) (x : σ) : Cmd S Op Ans α :=
  fun st => .any fun n => loopN body n x st

def wp (E : Env Op Ans) (m : Cmd S Op Ans α) (Q : α → S → E.State → Prop) (st : S)
    (s : E.State) : Prop :=
  Prog.wp E (m st) (fun x t => Q x.1 x.2 t) s

section Rules
variable {E : Env Op Ans} {Q R : α → S → E.State → Prop} {st : S} {s : E.State}

@[simp] theorem wp_pure {a : α} : wp E (pure a : Cmd S Op Ans α) Q st s ↔ Q a st s := Iff.rfl

@[simp] theorem wp_bind {m : Cmd S Op Ans α} {f : α → Cmd S Op Ans β}
    {Q : β → S → E.State → Prop} :
    wp E (m >>= f) Q st s ↔ wp E m (fun a st' s' => wp E (f a) Q st' s') st s :=
  Prog.wp_bind

@[simp] theorem wp_get {Q : S → S → E.State → Prop} :
    wp E (get : Cmd S Op Ans S) Q st s ↔ Q st st s := Iff.rfl

@[simp] theorem wp_set {st' : S} {Q : PUnit → S → E.State → Prop} :
    wp E (set st' : Cmd S Op Ans PUnit) Q st s ↔ Q ⟨⟩ st' s := Iff.rfl

@[simp] theorem wp_modify {f : S → S} {Q : PUnit → S → E.State → Prop} :
    wp E (modify f : Cmd S Op Ans PUnit) Q st s ↔ Q ⟨⟩ (f st) s := Iff.rfl

@[simp] theorem wp_call {o : Op} {Q : Ans o → S → E.State → Prop} :
    wp E (call o) Q st s ↔ E.legal s o ∧ ∀ r s', E.step s o r s' → Q r st s' := Iff.rfl

@[simp] theorem wp_fail : wp E (fail : Cmd S Op Ans α) Q st s ↔ False := Iff.rfl

@[simp] theorem wp_ite {c : Prop} [Decidable c] {m m' : Cmd S Op Ans α} :
    wp E (if c then m else m') Q st s ↔ (c → wp E m Q st s) ∧ (¬ c → wp E m' Q st s) := by
  split <;> simp_all

theorem wp_mono {m : Cmd S Op Ans α} (h : wp E m Q st s)
    (hQ : ∀ a st' s', Q a st' s' → R a st' s') : wp E m R st s :=
  Prog.wp_mono h fun _ _ => hQ _ _ _

theorem wp_and {m : Cmd S Op Ans α} (h : wp E m Q st s) (h' : wp E m R st s) :
    wp E m (fun a st' s' => Q a st' s' ∧ R a st' s') st s :=
  Prog.wp_and h h'

theorem wp_quiet {P : Op → Prop} {A : (o : Op) → Ans o → Prop} {m : Cmd S Op Ans α}
    {Q : α → S → Prop} (hq : E.Quiet P A)
    (h : wp (.only P A) m (fun a st' _ => Q a st') st ()) :
    wp E m (fun a st' s' => Q a st' ∧ s' = s) st s :=
  have h' : (m st).wp (.only P A) (fun x _ => Q x.1 x.2) () := h
  Prog.wp_quiet hq h'

theorem wp_sim {F : Env Op Ans} (rel : E.State → F.State → Prop) {t : F.State}
    {m : Cmd S Op Ans α}
    (hsim : ∀ s t o, rel s t → F.legal t o → E.legal s o ∧
      ∀ r s', E.step s o r s' → ∃ t', F.step t o r t' ∧ rel s' t')
    (hr : rel s t) (h : wp F m (fun a st' t => ∀ s, rel s t → Q a st' s) st t) :
    wp E m Q st s :=
  Prog.wp_sim rel hsim hr h

theorem wp_guard_call {G : E.State → Op → Prop} {o : Op} {Q : Ans o → S → E.State → Prop} :
    wp (E.guard G) (call o) Q st s ↔ G s o ∧ wp E (call o) Q st s := by
  simp only [wp_call]
  tauto

/-- An invariant of the rounds, with the result it must give on the last one. -/
theorem wp_loop {σ : Type} {body : σ → Cmd S Op Ans (σ ⊕ α)} {x : σ}
    (I : σ → S → E.State → Prop) (h0 : I x st s)
    (hstep : ∀ x st s, I x st s → wp E (body x)
      (fun r st' s' => r.elim (fun x' => I x' st' s') fun a => Q a st' s') st s) :
    wp E (loop body x) Q st s := by
  intro n
  induction n generalizing x st s with
  | zero => trivial
  | succ n ih =>
    change wp E (body x >>= _) Q st s
    rw [wp_bind]
    refine wp_mono (hstep x st s h0) fun r st' s' hr => ?_
    cases r with
    | inl x' => exact ih hr
    | inr a => exact hr

end Rules

/-- Some run returns a good result. -/
def can (E : Env Op Ans) (m : Cmd S Op Ans α) (Q : α → S → E.State → Prop) (st : S)
    (s : E.State) : Prop :=
  Prog.can E (m st) (fun x t => Q x.1 x.2 t) s

section Rules
variable {E : Env Op Ans} {Q R : α → S → E.State → Prop} {st : S} {s : E.State}

@[simp] theorem can_pure {a : α} : can E (pure a : Cmd S Op Ans α) Q st s ↔ Q a st s := Iff.rfl

@[simp] theorem can_bind {m : Cmd S Op Ans α} {f : α → Cmd S Op Ans β}
    {Q : β → S → E.State → Prop} :
    can E (m >>= f) Q st s ↔ can E m (fun a st' s' => can E (f a) Q st' s') st s :=
  Prog.can_bind

@[simp] theorem can_get {Q : S → S → E.State → Prop} :
    can E (get : Cmd S Op Ans S) Q st s ↔ Q st st s := Iff.rfl

@[simp] theorem can_modify {f : S → S} {Q : PUnit → S → E.State → Prop} :
    can E (modify f : Cmd S Op Ans PUnit) Q st s ↔ Q ⟨⟩ (f st) s := Iff.rfl

@[simp] theorem can_call {o : Op} {Q : Ans o → S → E.State → Prop} :
    can E (call o) Q st s ↔ ∃ r s', E.step s o r s' ∧ Q r st s' := Iff.rfl

theorem can_quiet {P : Op → Prop} {A : (o : Op) → Ans o → Prop} {m : Cmd S Op Ans α}
    {Q : α → S → Prop} (hs : E.Serves P A)
    (h : can (.only P A) m (fun a st' _ => Q a st') st ()) :
    can E m (fun a st' s' => Q a st' ∧ s' = s) st s :=
  have h' : (m st).can (.only P A) (fun x _ => Q x.1 x.2) () := h
  Prog.can_quiet hs h'

theorem can_mono {m : Cmd S Op Ans α} (h : can E m Q st s)
    (hQ : ∀ a st' s', Q a st' s' → R a st' s') : can E m R st s :=
  Prog.can_mono h fun _ _ => hQ _ _ _

theorem can_and {m : Cmd S Op Ans α} (h : wp E m Q st s) (h' : can E m R st s) :
    can E m (fun a st' s' => Q a st' s' ∧ R a st' s') st s :=
  Prog.can_and h h'

end Rules

/-- Runs of a command. -/
def Runs (E : Env Op Ans) (m : Cmd S Op Ans α) (st : S) (s : E.State) (a : α) (st' : S)
    (s' : E.State) : Prop :=
  Run E s (m st) (a, st') s'

theorem wp_runs {E : Env Op Ans} {m : Cmd S Op Ans α} {Q : α → S → E.State → Prop} {st : S}
    {s : E.State} (h : wp E m Q st s) {a : α} {st' : S} {s' : E.State}
    (hr : Runs E m st s a st' s') : Q a st' s' :=
  Prog.wp_run h hr

theorem runs_bind {E : Env Op Ans} {m : Cmd S Op Ans α} {f : α → Cmd S Op Ans β} {st : S}
    {s : E.State} {b : β} {st' : S} {s' : E.State} (h : Runs E (m >>= f) st s b st' s') :
    ∃ a st₁ s₁, Runs E m st s a st₁ s₁ ∧ Runs E (f a) st₁ s₁ b st' s' := by
  unfold Runs at *
  change Run E s ((m st).bind fun x => f x.1 x.2) (b, st') s' at h
  generalize m st = p at *
  induction p generalizing s with
  | ret x => exact ⟨x.1, x.2, s, .ret, h⟩
  | call o k ih =>
    cases h with
    | call hs hr =>
      obtain ⟨a, st₁, s₁, h₁, h₂⟩ := ih _ hr
      exact ⟨a, st₁, s₁, .call hs h₁, h₂⟩
  | any k ih =>
    cases h with
    | any hr =>
      obtain ⟨a, st₁, s₁, h₁, h₂⟩ := ih _ hr
      exact ⟨a, st₁, s₁, .any h₁, h₂⟩
  | hang => cases h
  | fail => cases h

theorem can_iff {E : Env Op Ans} {m : Cmd S Op Ans α} {Q : α → S → E.State → Prop} {st : S}
    {s : E.State} : can E m Q st s ↔ ∃ a st' s', Runs E m st s a st' s' ∧ Q a st' s' :=
  Prog.can_iff.trans ⟨fun ⟨x, t, h⟩ => ⟨x.1, x.2, t, h⟩, fun ⟨a, st', s', h⟩ => ⟨(a, st'), s', h⟩⟩

/-- Programs that make calls in `P` only, and leave their own state as it is. -/
def Reads (P : Op → Prop) (m : Cmd S Op Ans α) : Prop :=
  ∀ st, wp (.only P fun _ _ => True) m (fun _ st' _ => st' = st) st ()

namespace Reads
variable {P : Op → Prop}

theorem pure (a : α) : Reads P (Pure.pure a : Cmd S Op Ans α) := fun _ => rfl

theorem call {o : Op} (ho : P o) : Reads P (Cmd.call o : Cmd S Op Ans (Ans o)) :=
  fun _ => ⟨ho, fun _ _ _ => rfl⟩

theorem bind {m : Cmd S Op Ans α} {f : α → Cmd S Op Ans β} (hm : Reads P m)
    (hf : ∀ a, Reads P (f a)) : Reads P (m >>= f) := by
  intro st
  rw [wp_bind]
  refine wp_mono (hm st) ?_
  rintro a _ _ rfl
  exact hf a _

theorem ite {c : Prop} [Decidable c] {m m' : Cmd S Op Ans α} (hm : Reads P m)
    (hm' : Reads P m') : Reads P (if c then m else m') := by
  split
  · exact hm
  · exact hm'

theorem loop {σ : Type} {body : σ → Cmd S Op Ans (σ ⊕ α)} (hb : ∀ x, Reads P (body x)) (x : σ) :
    Reads P (Cmd.loop body x) := by
  intro st
  refine wp_loop (fun _ st' _ => st' = st) rfl ?_
  rintro y _ _ rfl
  refine wp_mono (hb y _) ?_
  rintro (_ | _) _ _ rfl <;> rfl

theorem mono {P' : Op → Prop} {m : Cmd S Op Ans α} (h : Reads P m) (hP : ∀ o, P o → P' o) :
    Reads P' m := by
  intro st
  refine wp_sim (fun _ _ => True) (fun _ _ o _ ho => ?_) trivial (wp_mono (h st) ?_)
  · exact ⟨hP o ho, fun r _ hs => ⟨(), ⟨ho, trivial⟩, trivial⟩⟩
  · intro _ _ _ h _ _
    exact h

theorem wp {m : Cmd S Op Ans α} (h : Reads P m) {E : Env Op Ans} {A : (o : Op) → Ans o → Prop}
    (hq : E.Quiet P A) (st : S) (s : E.State) :
    Cmd.wp E m (fun _ st' s' => st' = st ∧ s' = s) st s :=
  wp_quiet (fun o ho t => ⟨(hq o ho t).1, fun r t' hs => ⟨trivial, ((hq o ho t).2 r t' hs).2⟩⟩)
    (h st)

/-- Where the calls in `P` are legal and keep an invariant of the environment. -/
theorem wp_inv {m : Cmd S Op Ans α} (h : Reads P m) {E : Env Op Ans} {I : E.State → Prop}
    (hE : ∀ s o, P o → I s → E.legal s o ∧ ∀ r s', E.step s o r s' → I s') (st : S)
    {s : E.State} (hs : I s) : Cmd.wp E m (fun _ st' s' => st' = st ∧ I s') st s := by
  apply wp_sim (fun s' _ => I s') (F := .only P fun _ _ => True) _ hs (wp_mono (h st) _)
  · intro s' _ o hI ho
    refine ⟨(hE s' o ho hI).1, ?_⟩
    intro r s'' hstep
    exact ⟨(), ⟨ho, trivial⟩, (hE s' o ho hI).2 r s'' hstep⟩
  · intro _ _ _ hst s' hI
    exact ⟨hst, hI⟩

end Reads

/-- Programs that make calls in `P` only, and move their own state along `R`. -/
def Steps (P : Op → Prop) (R : S → S → Prop) (m : Cmd S Op Ans α) : Prop :=
  ∀ st, wp (.only P fun _ _ => True) m (fun _ st' _ => R st st') st ()

namespace Steps
variable {P : Op → Prop} {R : S → S → Prop} [IsPreorder S R]

theorem of_reads {m : Cmd S Op Ans α} (h : Reads P m) : Steps P R m := by
  intro st
  refine wp_mono (h st) ?_
  rintro _ _ _ rfl
  exact refl_of R _

theorem pure (a : α) : Steps P R (Pure.pure a : Cmd S Op Ans α) := of_reads (.pure a)

theorem call {o : Op} (ho : P o) : Steps P R (Cmd.call o : Cmd S Op Ans (Ans o)) :=
  of_reads (.call ho)

theorem get : Steps P R (MonadState.get : Cmd S Op Ans S) := fun st => refl_of R st

omit [IsPreorder S R] in
theorem modify {f : S → S} (hf : ∀ st, R st (f st)) :
    Steps P R (modifyGet fun st => (⟨⟩, f st) : Cmd S Op Ans PUnit) := hf

theorem bind {m : Cmd S Op Ans α} {f : α → Cmd S Op Ans β} (hm : Steps P R m)
    (hf : ∀ a, Steps P R (f a)) : Steps P R (m >>= f) := by
  intro st
  rw [wp_bind]
  refine wp_mono (hm st) fun a st' _ h => ?_
  exact wp_mono (hf a st') fun _ _ _ h' => trans_of R h h'

omit [IsPreorder S R] in
theorem ite {c : Prop} [Decidable c] {m m' : Cmd S Op Ans α} (hm : Steps P R m)
    (hm' : Steps P R m') : Steps P R (if c then m else m') := by
  split
  · exact hm
  · exact hm'

omit [IsPreorder S R] in
theorem mono {P' : Op → Prop} {R' : S → S → Prop} {m : Cmd S Op Ans α} (h : Steps P R m)
    (hP : ∀ o, P o → P' o) (hR : ∀ st st', R st st' → R' st st') : Steps P' R' m := by
  intro st
  refine wp_sim (fun _ _ => True) (fun _ _ o _ ho => ?_) trivial (wp_mono (h st) ?_)
  · exact ⟨hP o ho, fun r _ hs => ⟨(), ⟨ho, trivial⟩, trivial⟩⟩
  · intro _ _ _ h _ _
    exact hR _ _ h

omit [IsPreorder S R] in
theorem wp {m : Cmd S Op Ans α} (h : Steps P R m) {E : Env Op Ans}
    {A : (o : Op) → Ans o → Prop} (hq : E.Quiet P A) (st : S) (s : E.State) :
    Cmd.wp E m (fun _ st' s' => R st st' ∧ s' = s) st s :=
  wp_quiet (fun o ho t => ⟨(hq o ho t).1, fun r t' hs => ⟨trivial, ((hq o ho t).2 r t' hs).2⟩⟩)
    (h st)

end Steps

/-- Every result meets `Q`, whatever the calls answer. -/
def Yields (m : Cmd S Op Ans α) (Q : α → Prop) : Prop :=
  ∀ (E : Env Op Ans) (st : S) (s : E.State) (a : α) (st' : S) (s' : E.State),
    Runs E m st s a st' s' → Q a

namespace Yields
variable {Q : α → Prop}

theorem pure {a : α} (h : Q a) : Yields (Pure.pure a : Cmd S Op Ans α) Q := by
  intro E st s b st' s' hr
  cases hr
  exact h

theorem bind {m : Cmd S Op Ans α} {f : α → Cmd S Op Ans β} {Q : β → Prop} {P : α → Prop}
    (hm : Yields m P) (hf : ∀ a, P a → Yields (f a) Q) : Yields (m >>= f) Q := by
  intro E st s b st' s' hr
  obtain ⟨a, st₁, s₁, hr₁, hr₂⟩ := runs_bind hr
  exact hf a (hm E st s a st₁ s₁ hr₁) E st₁ s₁ b st' s' hr₂

theorem call_bind {m : Cmd S Op Ans α} {f : α → Cmd S Op Ans β} {Q : β → Prop}
    (hf : ∀ a, Yields (f a) Q) : Yields (m >>= f) Q :=
  bind (P := fun _ => True) (fun _ _ _ _ _ _ _ => trivial) fun a _ => hf a

theorem ite {c : Prop} [Decidable c] {m m' : Cmd S Op Ans α} (hm : Yields m Q)
    (hm' : Yields m' Q) : Yields (if c then m else m') Q := by
  split
  · exact hm
  · exact hm'

/-- What the results always meet may be added to what a run guarantees. -/
theorem wp {m : Cmd S Op Ans α} (h : Yields m Q) {E : Env Op Ans}
    {R : α → S → E.State → Prop} {st : S} {s : E.State} (hw : Cmd.wp E m R st s) :
    Cmd.wp E m (fun a st' s' => Q a ∧ R a st' s') st s := by
  refine Prog.wp_iff.mpr ⟨Prog.wp_safe hw, fun x t hr => ⟨?_, Prog.wp_run hw hr⟩⟩
  exact h E st s x.1 x.2 t hr

end Yields

/-- What the command computes in a deterministic environment. -/
def exec {σ : Type} (fuel : ℕ) (h : σ → (o : Op) → Option (Ans o × σ)) (m : Cmd S Op Ans α)
    (st : S) (s : σ) : Option ((α × S) × σ) :=
  (m st).exec fuel h s

section Exec
variable {σ : Type} {fuel : ℕ} {h : σ → (o : Op) → Option (Ans o × σ)} {st : S} {s : σ}

@[simp] theorem exec_pure {a : α} :
    exec fuel h (Pure.pure a : Cmd S Op Ans α) st s = some ((a, st), s) := rfl

@[simp] theorem exec_call {o : Op} :
    exec fuel h (call o) st s = (h s o).map fun x => ((x.1, st), x.2) := by
  unfold exec call Prog.exec
  split <;> simp_all [Prog.exec]

theorem exec_bind {m : Cmd S Op Ans α} {f : α → Cmd S Op Ans β} :
    exec fuel h (m >>= f) st s =
      (exec fuel h m st s).bind fun x => exec fuel h (f x.1.1) x.1.2 x.2 := by
  change Prog.exec fuel h ((m st).bind fun x => f x.1 x.2) s = _
  unfold exec
  induction m st generalizing s with
  | ret a => rfl
  | call o k ih =>
    simp only [Prog.bind, Prog.exec]
    split
    · exact ih _
    · rfl
  | any k ih => exact ih fuel
  | hang | fail => rfl

/-- A command that computes a result goes on with the rest. -/
theorem exec_bind_of {m : Cmd S Op Ans α} {f : α → Cmd S Op Ans β} {a : α} {t : S} {u : σ}
    (hm : exec fuel h m st s = some ((a, t), u)) :
    exec fuel h (m >>= f) st s = exec fuel h (f a) t u := by
  rw [exec_bind, hm]
  rfl

/-- The run of a deterministic environment is one of `E`, if `E` allows its answers. -/
theorem exec_runs {E : Env Op Ans} {n : ℕ} {h : E.State → (o : Op) → Option (Ans o × E.State)} {s : E.State}
    {m : Cmd S Op Ans α} {a : α} {st' : S} {s' : E.State}
    (hE : ∀ s o r s', h s o = some (r, s') → E.step s o r s')
    (he : exec n h m st s = some ((a, st'), s')) : Runs E m st s a st' s' := by
  unfold exec at he
  unfold Runs
  generalize m st = p at he
  induction p generalizing s with
  | ret x =>
    obtain ⟨rfl, rfl⟩ := Prod.mk.inj (Option.some.inj he)
    exact .ret
  | call o k ih =>
    rw [Prog.exec] at he
    split at he
    next r s₁ hs => exact .call (hE s o r s₁ hs) (ih r he)
    next => cases he
  | any k ih => exact .any (ih n he)
  | hang | fail => cases he

end Exec

/-- The answers of a device that stands still. -/
def still (dev : (o : Op) → Ans o) : Unit → (o : Op) → Option (Ans o × Unit) :=
  fun _ o => some (dev o, ())

/-- Programs without loops: every device that stands still takes them to a result. -/
def Returns (m : Cmd S Op Ans α) : Prop :=
  ∀ (dev : (o : Op) → Ans o) (st : S), ∃ a st', exec 0 (still dev) m st () = some ((a, st'), ())

namespace Returns

theorem pure (a : α) : Returns (Pure.pure a : Cmd S Op Ans α) := fun _ st => ⟨a, st, rfl⟩

theorem call (o : Op) : Returns (Cmd.call o : Cmd S Op Ans (Ans o)) :=
  fun dev st => ⟨dev o, st, rfl⟩

theorem get : Returns (MonadState.get : Cmd S Op Ans S) := fun _ st => ⟨st, st, rfl⟩

theorem modify (f : S → S) : Returns (modifyGet fun st => (⟨⟩, f st) : Cmd S Op Ans PUnit) :=
  fun _ st => ⟨⟨⟩, f st, rfl⟩

theorem bind {m : Cmd S Op Ans α} {f : α → Cmd S Op Ans β} (hm : Returns m)
    (hf : ∀ a, Returns (f a)) : Returns (m >>= f) := by
  intro dev st
  obtain ⟨a, st', h⟩ := hm dev st
  rw [exec_bind_of h]
  exact hf a dev st'

theorem ite {c : Prop} [Decidable c] {m m' : Cmd S Op Ans α} (hm : Returns m)
    (hm' : Returns m') : Returns (if c then m else m') := by
  split
  · exact hm
  · exact hm'

end Returns

end Cmd

end Effect
