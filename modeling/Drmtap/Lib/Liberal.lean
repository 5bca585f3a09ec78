import Drmtap.Lib.Program

/-! Preconditions that let a program fail: what holds of the runs that do not, and that no call is
illegal before. Programs over one part of a state, and one part of the calls. -/
namespace Effect

variable {Op Op' : Type} {Ans : Op → Type} {Ans' : Op' → Type} {α β : Type}

namespace Prog

/-- The program that stops where `p` fails. -/
def relax : Prog Op Ans α → Prog Op Ans α
  | .ret a => .ret a
  | .call o k => .call o fun r => (k r).relax
  | .any k => .any fun n => (k n).relax
  | .hang => .hang
  | .fail => .hang

theorem relax_bind (p : Prog Op Ans α) (f : α → Prog Op Ans β) :
    (p.bind f).relax = p.relax.bind fun a => (f a).relax := by
  induction p with
  | ret | hang | fail => rfl
  | call o k ih => simp only [bind, relax, ih]
  | any k ih => simp only [bind, relax, ih]

theorem run_relax {E : Env Op Ans} {p : Prog Op Ans α} {s t : E.State} {a : α}
    (h : Run E s p a t) : Run E s p.relax a t := by
  induction h with
  | ret => exact .ret
  | call hs _ ih => exact .call hs ih
  | any _ ih => exact .any ih

theorem wp_relax {E : Env Op Ans} {p : Prog Op Ans α} {Q : α → E.State → Prop} {s : E.State}
    (h : p.wp E Q s) : p.relax.wp E Q s := by
  induction p generalizing s with
  | ret a => exact h
  | call o k ih => exact ⟨h.1, fun r s' hs => ih r (h.2 r s' hs)⟩
  | any k ih => exact fun n => ih n (h n)
  | hang => trivial
  | fail => exact h.elim

/-- What holds of every run may be added. -/
theorem relax_wp_runs {E : Env Op Ans} {p : Prog Op Ans α} {Q R : α → E.State → Prop} {s : E.State}
    (h : p.relax.wp E R s) (hr : ∀ a t, Run E s p a t → Q a t) :
    p.relax.wp E (fun a t => Q a t ∧ R a t) s := by
  induction p generalizing s with
  | ret a => exact ⟨hr a s .ret, h⟩
  | call o k ih => exact ⟨h.1, fun r s' hs => ih r (h.2 r s' hs) fun a t ht => hr a t (.call hs ht)⟩
  | any k ih => exact fun n => ih n (h n) fun a t ht => hr a t (.any ht)
  | hang | fail => trivial

/-- A program whose calls are the left ones of two kinds. -/
def inl : Prog Op Ans α → Prog (Op ⊕ Op') (Sum.elim Ans Ans') α
  | .ret a => .ret a
  | .call o k => .call (.inl o) fun r => (k r).inl
  | .any k => .any fun n => (k n).inl
  | .hang => .hang
  | .fail => .fail

end Prog

/-- What an environment is to the calls of the left kind. -/
abbrev Env.left (E : Env (Op ⊕ Op') (Sum.elim Ans Ans')) : Env Op Ans where
  State := E.State
  legal s o := E.legal s (.inl o)
  step s o r s' := E.step s (.inl o) r s'

theorem Prog.wp_inl {E : Env (Op ⊕ Op') (Sum.elim Ans Ans')} {p : Prog Op Ans α}
    {Q : α → E.State → Prop} {s : E.State} :
    (p.inl : Prog (Op ⊕ Op') (Sum.elim Ans Ans') α).relax.wp E Q s ↔ p.relax.wp E.left Q s := by
  induction p generalizing s with
  | ret | hang | fail => exact Iff.rfl
  | call o k ih => exact and_congr_right fun _ => forall₃_congr fun r s' _ => ih r
  | any k ih => exact forall_congr' fun n => ih n

theorem Prog.wp_left {E : Env (Op ⊕ Op') (Sum.elim Ans Ans')} {p : Prog Op Ans α}
    {Q : α → E.State → Prop} {s : E.State} :
    (p.inl : Prog (Op ⊕ Op') (Sum.elim Ans Ans') α).wp E Q s ↔ p.wp E.left Q s := by
  induction p generalizing s with
  | ret | hang | fail => exact Iff.rfl
  | call o k ih => exact and_congr_right fun _ => forall₃_congr fun r s' _ => ih r
  | any k ih => exact forall_congr' fun n => ih n

namespace Cmd
variable {S T : Type}

def wlp (E : Env Op Ans) (m : Cmd S Op Ans α) (Q : α → S → E.State → Prop) (st : S)
    (s : E.State) : Prop :=
  Prog.wp E (m st).relax (fun x t => Q x.1 x.2 t) s

section Rules
variable {E : Env Op Ans} {Q R : α → S → E.State → Prop} {st : S} {s : E.State}

@[simp] theorem wlp_pure {a : α} : wlp E (pure a : Cmd S Op Ans α) Q st s ↔ Q a st s := Iff.rfl

@[simp] theorem wlp_bind {m : Cmd S Op Ans α} {f : α → Cmd S Op Ans β}
    {Q : β → S → E.State → Prop} :
    wlp E (m >>= f) Q st s ↔ wlp E m (fun a st' s' => wlp E (f a) Q st' s') st s := by
  change Prog.wp E ((m st).bind fun x => f x.1 x.2).relax _ s ↔ _
  rw [Prog.relax_bind]
  exact Prog.wp_bind

@[simp] theorem wlp_get {Q : S → S → E.State → Prop} :
    wlp E (get : Cmd S Op Ans S) Q st s ↔ Q st st s := Iff.rfl

@[simp] theorem wlp_modify {f : S → S} {Q : PUnit → S → E.State → Prop} :
    wlp E (modify f : Cmd S Op Ans PUnit) Q st s ↔ Q ⟨⟩ (f st) s := Iff.rfl

@[simp] theorem wlp_call {o : Op} {Q : Ans o → S → E.State → Prop} :
    wlp E (call o) Q st s ↔ E.legal s o ∧ ∀ r s', E.step s o r s' → Q r st s' := Iff.rfl

@[simp] theorem wlp_fail : wlp E (fail : Cmd S Op Ans α) Q st s := trivial

@[simp] theorem wlp_ite {c : Prop} [Decidable c] {m m' : Cmd S Op Ans α} :
    wlp E (if c then m else m') Q st s ↔ (c → wlp E m Q st s) ∧ (¬ c → wlp E m' Q st s) := by
  split <;> simp_all

theorem wlp_mono {m : Cmd S Op Ans α} (h : wlp E m Q st s)
    (hQ : ∀ a st' s', Q a st' s' → R a st' s') : wlp E m R st s :=
  Prog.wp_mono h fun _ _ => hQ _ _ _

theorem wlp_and {m : Cmd S Op Ans α} (h : wlp E m Q st s) (h' : wlp E m R st s) :
    wlp E m (fun a st' s' => Q a st' s' ∧ R a st' s') st s :=
  Prog.wp_and h h'

theorem wlp_loop {σ : Type} {body : σ → Cmd S Op Ans (σ ⊕ α)} {x : σ}
    (I : σ → S → E.State → Prop) (h0 : I x st s)
    (hstep : ∀ x st s, I x st s → wlp E (body x)
      (fun r st' s' => r.elim (fun x' => I x' st' s') fun a => Q a st' s') st s) :
    wlp E (loop body x) Q st s := by
  have hn (n : ℕ) : ∀ x st s, I x st s → wlp E (loopN body n x) Q st s := by
    induction n with
    | zero => exact fun _ _ _ _ => trivial
    | succ n ih =>
      intro x st s h
      change wlp E (body x >>= _) Q st s
      rw [wlp_bind]
      apply wlp_mono (hstep x st s h)
      intro r st' s' hr
      cases r with
      | inl x' => exact ih x' st' s' hr
      | inr a => exact hr
  exact fun n => hn n x st s h0

theorem wlp_of_wp {m : Cmd S Op Ans α} (h : wp E m Q st s) : wlp E m Q st s :=
  Prog.wp_relax h

theorem wlp_runs {m : Cmd S Op Ans α} (h : wlp E m Q st s) {a : α} {st' : S} {s' : E.State}
    (hr : Runs E m st s a st' s') : Q a st' s' :=
  Prog.wp_run h (Prog.run_relax hr)

end Rules

/-- Where every call is legal, programs are safe. -/
theorem wlp_true {E : Env Op Ans} (hE : ∀ s o, E.legal s o) (m : Cmd S Op Ans α) (st : S)
    (s : E.State) : wlp E m (fun _ _ _ => True) st s := by
  unfold wlp
  generalize m st = p
  induction p generalizing s with
  | ret | hang | fail => trivial
  | call o k ih => exact ⟨hE s o, fun r s' _ => ih r s'⟩
  | any k ih => exact fun n => ih n s

/-- A program on a part of the state, which makes calls of the left kind only. -/
def zoom (get : S → T) (put : S → T → S) (m : Cmd T Op Ans α) :
    Cmd S (Op ⊕ Op') (Sum.elim Ans Ans') α :=
  fun st => (m (get st)).inl.bind fun x => .ret (x.1, put st x.2)

theorem wlp_zoom {E : Env (Op ⊕ Op') (Sum.elim Ans Ans')} {get : S → T} {put : S → T → S}
    {m : Cmd T Op Ans α} {Q : α → S → E.State → Prop} {st : S} {s : E.State} :
    wlp E (zoom get put m) Q st s ↔
      wlp E.left m (fun a t' s' => Q a (put st t') s') (get st) s := by
  change Prog.wp E (Prog.bind _ _).relax _ s ↔ _
  rw [Prog.relax_bind]
  exact Prog.wp_bind.trans Prog.wp_inl

theorem wp_zoom {E : Env (Op ⊕ Op') (Sum.elim Ans Ans')} {get : S → T} {put : S → T → S}
    {m : Cmd T Op Ans α} {Q : α → S → E.State → Prop} {st : S} {s : E.State} :
    wp E (zoom get put m) Q st s ↔
      wp E.left m (fun a t' s' => Q a (put st t') s') (get st) s :=
  Prog.wp_bind.trans Prog.wp_left

/-- What holds of every run may be added to what makes it safe. -/
theorem wp_of_runs {E : Env Op Ans} {m : Cmd S Op Ans α} {Q R : α → S → E.State → Prop} {st : S}
    {s : E.State} (h : wp E m Q st s)
    (hr : ∀ a st' s', Runs E m st s a st' s' → Q a st' s' → R a st' s') : wp E m R st s :=
  Prog.wp_iff.mpr ⟨Prog.wp_safe h, fun x t hx => hr x.1 x.2 t hx (Prog.wp_run h hx)⟩

/-- Programs that make calls in `P` only and, unless they fail, move their own state along `R`. -/
def Moves (P : Op → Prop) (R : S → S → Prop) (m : Cmd S Op Ans α) : Prop :=
  ∀ st, wlp (.only P fun _ _ => True) m (fun _ st' _ => R st st') st ()

namespace Moves
variable {P : Op → Prop} {R : S → S → Prop} [IsPreorder S R]

theorem pure (a : α) : Moves P R (Pure.pure a : Cmd S Op Ans α) := fun st => refl_of R st

theorem call {o : Op} (ho : P o) : Moves P R (Cmd.call o : Cmd S Op Ans (Ans o)) :=
  fun st => ⟨ho, fun _ _ _ => refl_of R st⟩

theorem get : Moves P R (MonadState.get : Cmd S Op Ans S) := fun st => refl_of R st

omit [IsPreorder S R] in
theorem modify {f : S → S} (hf : ∀ st, R st (f st)) :
    Moves P R (modifyGet fun st => (⟨⟩, f st) : Cmd S Op Ans PUnit) := hf

theorem bind {m : Cmd S Op Ans α} {f : α → Cmd S Op Ans β} (hm : Moves P R m)
    (hf : ∀ a, Moves P R (f a)) : Moves P R (m >>= f) := by
  intro st
  rw [wlp_bind]
  refine wlp_mono (hm st) fun a st' _ h => ?_
  exact wlp_mono (hf a st') fun _ _ _ h' => trans_of R h h'

omit [IsPreorder S R] in
theorem ite {c : Prop} [Decidable c] {m m' : Cmd S Op Ans α} (hm : Moves P R m)
    (hm' : Moves P R m') : Moves P R (if c then m else m') := by
  split
  · exact hm
  · exact hm'

omit [IsPreorder S R] in
theorem zoom {P : Op ⊕ Op' → Prop} (hP : ∀ o, P (.inl o)) {get : S → T} {put : S → T → S}
    {m : Cmd T Op Ans α} (hR : ∀ st t, R st (put st t)) :
    Moves P R (zoom get put m : Cmd S (Op ⊕ Op') (Sum.elim Ans Ans') α) := by
  intro st
  rw [wlp_zoom]
  exact wlp_mono (wlp_true (fun _ o => hP o) m _ _) fun _ t _ _ => hR st t

omit [IsPreorder S R] in
theorem wlp {m : Cmd S Op Ans α} (h : Moves P R m) {E : Env Op Ans}
    {A : (o : Op) → Ans o → Prop} (hq : E.Quiet P A) (st : S) (s : E.State) :
    Cmd.wlp E m (fun _ st' s' => R st st' ∧ s' = s) st s :=
  Prog.wp_quiet (fun o ho t => ⟨(hq o ho t).1, fun r t' hs =>
    ⟨trivial, ((hq o ho t).2 r t' hs).2⟩⟩) (h st)

omit [IsPreorder S R] in
/-- Where the calls in `P` are legal and keep an invariant of the environment. -/
theorem wlp_inv {m : Cmd S Op Ans α} (h : Moves P R m) {E : Env Op Ans} {I : E.State → Prop}
    (hE : ∀ s o, P o → I s → E.legal s o ∧ ∀ r s', E.step s o r s' → I s') (st : S)
    {s : E.State} (hs : I s) : Cmd.wlp E m (fun _ st' s' => R st st' ∧ I s') st s := by
  have hst := h st
  unfold Cmd.wlp at hst ⊢
  generalize (m st).relax = p at hst
  induction p generalizing s with
  | ret x => exact ⟨hst, hs⟩
  | call o k ih =>
    obtain ⟨hlegal, hkeeps⟩ := hE s o hst.1 hs
    exact ⟨hlegal, fun r s' hstep => ih r (hkeeps r s' hstep) (hst.2 r () ⟨hst.1, trivial⟩)⟩
  | any k ih => exact fun n => ih n hs (hst n)
  | hang => trivial
  | fail => exact hst.elim

theorem of_reads {m : Cmd S Op Ans α} {P' : Op → Prop} (h : Reads P' m)
    (hP : ∀ o, P' o → P o) : Moves P R m := by
  have hmoves : Moves P' R m := fun st => wlp_of_wp (wp_mono (h st) fun _ st' _ he => by
    subst he
    exact refl_of R _)
  intro st
  apply wlp_mono (hmoves.wlp_inv (I := fun _ => True) ?_ st trivial) fun _ _ _ hst => hst.1
  exact fun _ o ho _ => ⟨hP o ho, fun _ _ _ => trivial⟩

theorem loop {σ : Type} {body : σ → Cmd S Op Ans (σ ⊕ α)} (hb : ∀ x, Moves P R (body x)) (x : σ) :
    Moves P R (Cmd.loop body x) := by
  intro st
  apply wlp_loop fun _ st' _ => R st st'
  · exact refl_of R st
  · intro y st' _ hst
    apply wlp_mono (hb y st')
    intro r st'' _ hst'
    cases r <;> exact trans_of R hst hst'

end Moves

instance everywhere {σ : Type} : IsPreorder σ fun _ _ => True where
  refl _ := trivial
  trans _ _ _ _ _ := trivial

/-- Programs that make calls in `P` only, unless they fail. -/
abbrev Uses (P : Op → Prop) (m : Cmd S Op Ans α) : Prop := Moves P (fun _ _ => True) m

/-- Programs that make calls in `P` only and, unless they fail, take a state in `I` along `R` to a
state in `I`, with a result in `Q`. -/
def Stays (P : Op → Prop) (I : S → Prop) (R : S → S → Prop) (m : Cmd S Op Ans α) (Q : α → Prop) :
    Prop :=
  ∀ st, I st → wlp (.only P fun _ _ => True) m (fun a st' _ => I st' ∧ R st st' ∧ Q a) st ()

namespace Stays
variable {P : Op → Prop} {I : S → Prop} {R : S → S → Prop} [IsPreorder S R] {Q : α → Prop}

theorem pure {a : α} (h : Q a) : Stays P I R (Pure.pure a : Cmd S Op Ans α) Q :=
  fun st hI => ⟨hI, refl_of R st, h⟩

theorem call {o : Op} (ho : P o) : Stays P I R (Cmd.call o : Cmd S Op Ans (Ans o)) fun _ => True :=
  fun st hI => ⟨ho, fun _ _ _ => ⟨hI, refl_of R st, trivial⟩⟩

theorem get : Stays P I R (MonadState.get : Cmd S Op Ans S) I := fun st hI => ⟨hI, refl_of R st, hI⟩

omit [IsPreorder S R] in
theorem modify {f : S → S} (hI : ∀ st, I st → I (f st)) (hR : ∀ st, R st (f st)) :
    Stays P I R (modifyGet fun st => (⟨⟩, f st) : Cmd S Op Ans PUnit) fun _ => True :=
  fun st h => ⟨hI st h, hR st, trivial⟩

theorem bind {m : Cmd S Op Ans α} {f : α → Cmd S Op Ans β} {Q' : β → Prop}
    (hm : Stays P I R m Q) (hf : ∀ a, Q a → Stays P I R (f a) Q') : Stays P I R (m >>= f) Q' := by
  intro st hI
  rw [wlp_bind]
  refine wlp_mono (hm st hI) ?_
  rintro a st' _ ⟨hI', hR, hQ⟩
  refine wlp_mono (hf a hQ st' hI') ?_
  rintro b st'' _ ⟨hI'', hR', hQ'⟩
  exact ⟨hI'', trans_of R hR hR', hQ'⟩

omit [IsPreorder S R] in
theorem by_cases {c : Prop} [Decidable c] {m m' : Cmd S Op Ans α} (hm : c → Stays P I R m Q)
    (hm' : ¬ c → Stays P I R m' Q) : Stays P I R (if c then m else m') Q := by
  split
  next h => exact hm h
  next h => exact hm' h

omit [IsPreorder S R] in
theorem ite {c : Prop} [Decidable c] {m m' : Cmd S Op Ans α} (hm : Stays P I R m Q)
    (hm' : Stays P I R m' Q) : Stays P I R (if c then m else m') Q :=
  by_cases (fun _ => hm) fun _ => hm'

omit [IsPreorder S R] in
/-- More calls and a narrower start, from which less is kept. -/
theorem weaken {P' : Op → Prop} {I' : S → Prop} {R' : S → S → Prop} {m : Cmd S Op Ans α}
    (h : Stays P I R m Q) (hP : ∀ o, P o → P' o) (hI : ∀ st, I' st → I st)
    (hR : ∀ st st', I' st → I st' → R st st' → I' st' ∧ R' st st') : Stays P' I' R' m Q := by
  intro st hst
  refine Prog.wp_sim (fun _ _ => True) (F := .only P fun _ _ => True) ?_ trivial
    (Prog.wp_mono (h st (hI st hst)) ?_)
  · rintro _ _ o - ho
    exact ⟨hP o ho, fun r _ _ => ⟨(), ⟨ho, trivial⟩, trivial⟩⟩
  · rintro x _ ⟨hI', hR', hQ⟩ _ -
    exact ⟨(hR st x.2 hst hI' hR').1, (hR st x.2 hst hI' hR').2, hQ⟩

omit [IsPreorder S R] in
theorem mono {m : Cmd S Op Ans α} {Q' : α → Prop} (h : Stays P I R m Q)
    (hQ : ∀ a, Q a → Q' a) : Stays P I R m Q' :=
  fun st hI => wlp_mono (h st hI) fun a _ _ h => ⟨h.1, h.2.1, hQ a h.2.2⟩

theorem loop {σ : Type} {body : σ → Cmd S Op Ans (σ ⊕ α)}
    (hb : ∀ x, Stays P I R (body x) fun r => ∀ a, r = .inr a → Q a) (x : σ) :
    Stays P I R (Cmd.loop body x) Q := by
  have hn (n : ℕ) (x : σ) : Stays P I R (Cmd.loopN body n x) Q := by
    induction n generalizing x with
    | zero => exact fun _ _ => trivial
    | succ n ih =>
      apply bind (hb x)
      rintro (x' | a) hr
      · exact ih x'
      · exact pure (hr a rfl)
  exact fun st hI n => hn n x st hI

omit [IsPreorder S R] in
theorem of_steps {R' : S → S → Prop} {P' : Op → Prop} {m : Cmd S Op Ans α} (h : Steps P' R' m)
    (hP : ∀ o, P' o → P o) (hR : ∀ st st', I st → R' st st' → I st' ∧ R st st') :
    Stays P I R m fun _ => True := by
  intro st hI
  refine wlp_mono (wlp_of_wp (h.mono hP (fun _ _ h => h) st)) fun _ st' _ hs => ?_
  exact ⟨(hR st st' hI hs).1, (hR st st' hI hs).2, trivial⟩

end Stays

/-- Every run in `E` moves the state, and that of the environment, along `R`. -/
def Follows (E : Env Op Ans) (R : S × E.State → S × E.State → Prop) (m : Cmd S Op Ans α) : Prop :=
  ∀ st s, wlp E m (fun _ st' s' => R (st, s) (st', s')) st s

namespace Follows
variable {E : Env Op Ans} {R : S × E.State → S × E.State → Prop}

theorem modify {f : S → S} (hR : ∀ st s, R (st, s) (f st, s)) :
    Follows E R (modifyGet fun st => (⟨⟩, f st) : Cmd S Op Ans PUnit) := fun st s => hR st s

theorem mono {R' : S × E.State → S × E.State → Prop} {m : Cmd S Op Ans α} (h : Follows E R m)
    (hR : ∀ x y, R x y → R' x y) : Follows E R' m :=
  fun st s => wlp_mono (h st s) fun _ _ _ => hR _ _

theorem by_cases {c : Prop} [Decidable c] {m m' : Cmd S Op Ans α} (hm : c → Follows E R m)
    (hm' : ¬ c → Follows E R m') : Follows E R (if c then m else m') := by
  split
  next h => exact hm h
  next h => exact hm' h

theorem ite {c : Prop} [Decidable c] {m m' : Cmd S Op Ans α} (hm : Follows E R m)
    (hm' : Follows E R m') : Follows E R (if c then m else m') :=
  by_cases (fun _ => hm) fun _ => hm'

section Preorder
variable [IsPreorder (S × E.State) R]

theorem pure (a : α) : Follows E R (Pure.pure a : Cmd S Op Ans α) := fun st s => refl_of R (st, s)

theorem get : Follows E R (MonadState.get : Cmd S Op Ans S) := fun st s => refl_of R (st, s)

theorem bind {m : Cmd S Op Ans α} {f : α → Cmd S Op Ans β} (hm : Follows E R m)
    (hf : ∀ a, Follows E R (f a)) : Follows E R (m >>= f) := by
  intro st s
  rw [wlp_bind]
  refine wlp_mono (hm st s) fun a st' s' hR => ?_
  exact wlp_mono (hf a st' s') fun b st'' s'' hR' => trans_of R hR hR'

theorem loop {σ : Type} {body : σ → Cmd S Op Ans (σ ⊕ α)} (hb : ∀ x, Follows E R (body x))
    (x : σ) : Follows E R (Cmd.loop body x) := by
  have hn (n : ℕ) (x : σ) : Follows E R (Cmd.loopN body n x) := by
    induction n generalizing x with
    | zero => exact fun _ _ => trivial
    | succ n ih =>
      apply bind (hb x)
      rintro (x' | a)
      · exact ih x'
      · exact pure a
  exact fun st s n => hn n x st s

theorem of_reads {P : Op → Prop} {m : Cmd S Op Ans α} (h : Reads P m)
    (hcall : ∀ st s o, P o → E.legal s o ∧ ∀ r s', E.step s o r s' → R (st, s) (st, s')) :
    Follows E R m := by
  intro st s
  refine Prog.wp_sim (fun s' _ => R (st, s) (st, s')) (F := .only P fun _ _ => True) ?_
    (refl_of R (st, s)) (Prog.wp_mono (wlp_of_wp (h st)) ?_)
  · rintro s' _ o hR ho
    refine ⟨(hcall st s' o ho).1, fun r s'' hs => ⟨(), ⟨ho, trivial⟩, ?_⟩⟩
    exact trans_of R hR ((hcall st s' o ho).2 r s'' hs)
  · rintro x _ hx s' hR
    obtain ⟨a, st'⟩ := x
    obtain rfl : st' = st := hx
    exact hR

end Preorder

theorem call {o : Op} (ho : ∀ st s, E.legal s o ∧ ∀ r s', E.step s o r s' → R (st, s) (st, s')) :
    Follows E R (Cmd.call o : Cmd S Op Ans (Ans o)) := fun st s => ho st s

/-- A run that ends somewhere has moved along `R` as well. -/
theorem wlp_and {m : Cmd S Op Ans α} (h : Follows E R m) {Q : α → S → E.State → Prop} {st : S}
    {s : E.State} (hw : wlp E m Q st s) :
    wlp E m (fun a st' s' => R (st, s) (st', s') ∧ Q a st' s') st s :=
  Cmd.wlp_and (h st s) hw

end Follows

/-- What the results always meet may be added. -/
theorem Yields.wlp {m : Cmd S Op Ans α} {P : α → Prop} (h : Yields m P) {E : Env Op Ans}
    {Q : α → S → E.State → Prop} {st : S} {s : E.State} (hw : Cmd.wlp E m Q st s) :
    Cmd.wlp E m (fun a st' s' => P a ∧ Q a st' s') st s :=
  Prog.relax_wp_runs hw fun x t hr => h E st s x.1 x.2 t hr

theorem Stays.yields {P : Op → Prop} {I : S → Prop} {R : S → S → Prop} {m : Cmd S Op Ans α}
    {Q Q' : α → Prop} (h : Stays P I R m Q) (hy : Yields m Q') :
    Stays P I R m fun a => Q' a ∧ Q a := by
  intro st hI
  refine wlp_mono (hy.wlp (h st hI)) ?_
  rintro a st' _ ⟨hQ', hI', hR, hQ⟩
  exact ⟨hI', hR, hQ', hQ⟩

/-- What the calls of a program keep, it keeps. -/
theorem Steps.follows {P : Op → Prop} {R : S → S → Prop} {m : Cmd S Op Ans α} (h : Steps P R m)
    {E : Env Op Ans} {T : E.State → E.State → Prop} [IsPreorder E.State T]
    (hT : ∀ s o, P o → E.legal s o ∧ ∀ r s', E.step s o r s' → T s s') :
    Follows E (fun x y => R x.1 y.1 ∧ T x.2 y.2) m := by
  intro st s
  refine Prog.wp_sim (fun s' _ => T s s') (F := .only P fun _ _ => True) ?_ (refl_of T s)
    (Prog.wp_mono (wlp_of_wp (h st)) fun x _ hx s' hs => ⟨hx, hs⟩)
  rintro s' _ o hs ho
  exact ⟨(hT s' o ho).1, fun r s'' hr => ⟨(), ⟨ho, trivial⟩, trans_of T hs ((hT s' o ho).2 r s'' hr)⟩⟩

/-- What every call keeps, every program keeps. -/
theorem Follows.of_env {E : Env Op Ans} (hE : ∀ s o, E.legal s o) {T : E.State → E.State → Prop}
    [IsPreorder E.State T] (hT : ∀ s o r s', E.step s o r s' → T s s') (m : Cmd S Op Ans α) :
    Follows E (fun x y => T x.2 y.2) m := by
  intro st s
  have hp (p : Prog Op Ans (α × S)) (s' : E.State) (h : T s s') :
      p.relax.wp E (fun _ s'' => T s s'') s' := by
    induction p generalizing s' with
    | ret => exact h
    | hang | fail => trivial
    | call o k ih => exact ⟨hE s' o, fun r s'' hs => ih r s'' (trans_of T h (hT s' o r s'' hs))⟩
    | any k ih => exact fun n => ih n s' h
  exact hp (m st) s (refl_of T s)

/-- What a program does to its own state holds wherever it runs. -/
theorem Steps.wlp_and {P : Op → Prop} {R : S → S → Prop} {m : Cmd S Op Ans α} (h : Steps P R m)
    {E : Env Op Ans} {Q : α → S → E.State → Prop} {st : S} {s : E.State}
    (hw : Cmd.wlp E m Q st s) : Cmd.wlp E m (fun a st' s' => R st st' ∧ Q a st' s') st s := by
  have hp : (m st).wp (.only P fun _ _ => True) (fun x _ => R st x.2) () := h st
  unfold Cmd.wlp at *
  generalize m st = p at hp hw
  induction p generalizing s with
  | ret x => exact ⟨hp, hw⟩
  | call o k ih => exact ⟨hw.1, fun r s' hs => ih r (hp.2 r () ⟨hp.1, trivial⟩) (hw.2 r s' hs)⟩
  | any k ih => exact fun n => ih n (hp n) (hw n)
  | hang => trivial
  | fail => exact hp.elim

end Cmd

/-- An environment that may answer anything, of which something is noted. -/
abbrev Env.noting {σ : Type} (note : σ → (o : Op) → Ans o → σ) : Env Op Ans where
  State := σ
  legal _ _ := True
  step s o r s' := s' = note s o r

/-- An environment of whose answers something is noted. -/
abbrev Env.noted {σ : Type} (E : Env Op Ans) (note : σ → (o : Op) → Ans o → σ) : Env Op Ans where
  State := E.State × σ
  legal s o := E.legal s.1 o
  step s o r s' := E.step s.1 o r s'.1 ∧ s'.2 = note s.2 o r

/-- A run is one wherever the same answers are possible. -/
theorem Run.map {E F : Env Op Ans} {p : Prog Op Ans α} {a : α} {s t : E.State}
    (h : Run E s p a t) (f : E.State → F.State)
    (hf : ∀ s o r s', E.step s o r s' → F.step (f s) o r (f s')) : Run F (f s) p a (f t) := by
  induction h with
  | ret => exact .ret
  | call hs _ ih => exact .call (hf _ _ _ _ hs) ih
  | any _ ih => exact .any ih

section Noted
variable {S σ : Type} {E : Env Op Ans} {note : σ → (o : Op) → Ans o → σ} {m : Cmd S Op Ans α}
  {a : α} {st st' : S} {x x' : E.State × σ}

/-- A run may be noted. -/
theorem Cmd.Runs.noted {s s' : E.State} (h : Runs E m st s a st' s')
    (note : σ → (o : Op) → Ans o → σ) (n : σ) :
    ∃ n', Runs (E.noted note) m st (s, n) a st' (s', n') := by
  have hp : ∀ {p : Prog Op Ans (α × S)} {y : α × S} {s s' : E.State}, Run E s p y s' → ∀ n : σ,
      ∃ n', Run (E.noted note) (s, n) p y (s', n') := by
    intro p y s s' hr
    induction hr with
    | ret => exact fun n => ⟨n, .ret⟩
    | call hs _ ih =>
      intro n
      obtain ⟨n', hn'⟩ := ih (note n _ _)
      exact ⟨n', .call (show (E.noted note).step (_, n) _ _ (_, note n _ _) from ⟨hs, rfl⟩) hn'⟩
    | any _ ih =>
      intro n
      obtain ⟨n', hn'⟩ := ih n
      exact ⟨n', .any hn'⟩
  exact hp h n

/-- What is guaranteed does not depend on what is noted. -/
theorem Cmd.wp_noted {Q : α → S → E.State → Prop} {s : E.State} (h : Cmd.wp E m Q st s) (n : σ) :
    Cmd.wp (E.noted note) m (fun a st' x => Q a st' x.1) st (s, n) := by
  apply Cmd.wp_sim (fun (x : E.State × σ) t => x.1 = t) (F := E) _ rfl (Cmd.wp_mono h _)
  · intro x t o hx ho
    subst hx
    exact ⟨ho, fun r x' hs => ⟨x'.1, hs.1, rfl⟩⟩
  · intro a st' t hq x hx
    subst hx
    exact hq

theorem Cmd.can_noted {Q : α → S → E.State → Prop} {s : E.State} (h : Cmd.can E m Q st s) (n : σ) :
    Cmd.can (E.noted note) m (fun a st' x => Q a st' x.1) st (s, n) := by
  obtain ⟨a, st', s', hr, hq⟩ := Cmd.can_iff.mp h
  obtain ⟨n', hr'⟩ := hr.noted note n
  exact Cmd.can_iff.mpr ⟨a, st', (s', n'), hr', hq⟩

/-- The notes alone, of answers that meet `A`. -/
theorem Cmd.Runs.notes {A : (o : Op) → Ans o → Prop} (hA : ∀ s o r s', E.step s o r s' → A o r)
    (h : Runs (E.noted note) m st x a st' x') :
    Runs ((Env.noting note).restrict fun _ => A) m st x.2 a st' x'.2 :=
  Run.map (F := (Env.noting note).restrict fun _ => A) h Prod.snd fun s o r s' hs =>
    ⟨hs.2, hA s.1 o r s'.1 hs.1⟩

end Noted

/-- The environment in which every call is legal, and answered in any way. -/
abbrev Env.any : Env Op Ans := .only (fun _ => True) fun _ _ => True

section Any
variable {S : Type} {m : Cmd S Op Ans α} {E : Env Op Ans} {st st' : S} {s s' : E.State} {a : α}

theorem Cmd.Runs.any (h : Runs E m st s a st' s') : Runs Env.any m st () a st' () :=
  Run.map (E := E) (F := Env.any) h (fun _ => ()) fun _ _ _ _ _ => ⟨trivial, trivial⟩

/-- A program that stays does so wherever it runs. -/
theorem Cmd.Stays.runs {I : S → Prop} {R : S → S → Prop} {Q : α → Prop}
    (h : Stays (fun _ => True) I R m Q) (hr : Runs E m st s a st' s') (hI : I st) :
    I st' ∧ R st st' ∧ Q a := wlp_runs (h st hI) hr.any

/-- And may be said so beside what else holds there. -/
theorem Cmd.Stays.wlp_and {I : S → Prop} {R : S → S → Prop} {Q : α → Prop}
    (h : Stays (fun _ => True) I R m Q) (hI : I st) {Q' : α → S → E.State → Prop}
    (hw : Cmd.wlp E m Q' st s) :
    Cmd.wlp E m (fun a st' s' => (I st' ∧ R st st' ∧ Q a) ∧ Q' a st' s') st s :=
  Prog.relax_wp_runs hw fun _ _ hr => h.runs hr hI

end Any

end Effect
