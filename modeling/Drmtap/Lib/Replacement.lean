import Mathlib

/-! Caches of a fixed number of slots that give up the first slot when all are taken, and the
order in which their entries were stored. The key 0 marks a free slot. -/
namespace Replacement

variable {n : ℕ} {κ : Type} [Zero κ] [DecidableEq κ]

/-- One step of such a cache. -/
inductive Step (a : Fin (n + 2) → κ) : (Fin (n + 2) → κ) → Prop where
  | kept : Step a a
  | emptied : Step a 0
  | filled {i : Fin (n + 2)} {k : κ} (hk : k ≠ 0) (hnew : ∀ j, a j ≠ k) (hfree : a i = 0)
      (hfirst : ∀ j < i, a j ≠ 0) : Step a (Function.update a i k)
  | evicted {k : κ} (hk : k ≠ 0) (hnew : ∀ j, a j ≠ k) (hfull : ∀ j, a j ≠ 0) :
      Step a (Function.update a 0 k)

/-- The entry of a slot gives way to another. -/
def Evicts (a b : Fin (n + 2) → κ) (i : Fin (n + 2)) : Prop := a i ≠ 0 ∧ b i ≠ 0 ∧ b i ≠ a i

/-- The slots whose entry is new. -/
def fresh (a b : Fin (n + 2) → κ) : List (Fin (n + 2)) :=
  (List.finRange (n + 2)).filter fun i => b i ≠ a i ∧ b i ≠ 0

/-- The taken slots, that of the oldest entry first, and how many entries were stored since the
cache was empty. -/
structure History (n : ℕ) where
  order : List (Fin (n + 2))
  stores : ℕ
  deriving DecidableEq

def History.start : History n := ⟨[], 0⟩

/-- The history after a step from `a` to `b`. -/
def History.after (h : History n) (a b : Fin (n + 2) → κ) : History n where
  order := (h.order.filter fun i => b i = a i) ++ fresh a b
  stores := if b = 0 then 0 else h.stores + (fresh a b).length

theorem fresh_self (a : Fin (n + 2) → κ) : fresh a a = [] := by
  apply List.filter_eq_nil_iff.mpr
  simp

theorem fresh_zero (a : Fin (n + 2) → κ) : fresh a 0 = [] := by
  apply List.filter_eq_nil_iff.mpr
  simp

theorem fresh_update {a : Fin (n + 2) → κ} {i : Fin (n + 2)} {k : κ} (hk : k ≠ 0)
    (hne : a i ≠ k) : fresh a (Function.update a i k) = [i] := by
  have hiff : ∀ j : Fin (n + 2), decide (Function.update a i k j ≠ a j ∧
      Function.update a i k j ≠ 0) = (j == i) := by
    intro j
    by_cases hj : j = i
    · subst hj
      simp [hk, hne.symm]
    · simp [hj]
  unfold fresh
  simp only [hiff]
  rw [List.filter_beq, List.count_eq_one_of_mem (List.nodup_finRange _) (List.mem_finRange i)]
  rfl

/-- How the history and the slots go together: the slots are taken in turn until all are, and from
then on the first one holds the newest entry. -/
inductive Aged (a : Fin (n + 2) → κ) (h : History n) : Prop where
  | filling (hstores : h.stores ≤ n + 2) (htaken : ∀ i, a i ≠ 0 ↔ i.val < h.stores)
      (horder : h.order = (List.finRange (n + 2)).take h.stores)
  | turned (hstores : n + 2 < h.stores) (hfull : ∀ i, a i ≠ 0)
      (horder : h.order = (List.finRange (n + 2)).tail ++ [0])

theorem mem_take_finRange {m s : ℕ} {i : Fin m} (h : i ∈ (List.finRange m).take s) : i.val < s := by
  obtain ⟨j, hj, rfl⟩ := List.mem_take_iff_getElem.mp h
  rw [List.getElem_finRange]
  exact lt_of_lt_of_le hj (min_le_left _ _)

theorem finRange_tail (n : ℕ) : (List.finRange (n + 2)).tail = (List.finRange (n + 1)).map Fin.succ := by
  rw [List.finRange_succ, List.tail_cons]

omit [Zero κ] in
/-- Replacing the first entry takes its slot out of the order. -/
theorem filter_tail {a : Fin (n + 2) → κ} {k : κ} (hne : a 0 ≠ k) :
    (List.finRange (n + 2)).tail.filter (fun i => Function.update a 0 k i = a i) =
      (List.finRange (n + 2)).tail ∧
    ([0] : List (Fin (n + 2))).filter (fun i => Function.update a 0 k i = a i) = [] := by
  constructor
  · apply List.filter_eq_self.mpr
    intro i hi
    rw [finRange_tail] at hi
    obtain ⟨j, -, rfl⟩ := List.mem_map.mp hi
    simp
  · apply List.filter_eq_nil_iff.mpr
    intro i hi
    rw [List.mem_singleton.mp hi]
    simp [hne.symm]

section Step
variable {a b : Fin (n + 2) → κ} {h : History n}

omit [DecidableEq κ] in
theorem Aged.start {a : Fin (n + 2) → κ} (ha : ∀ i, a i = 0) : Aged a .start :=
  .filling (Nat.zero_le _) (fun i => by simp [ha i, History.start]) rfl

theorem Aged.kept (ha : Aged a h) : Aged a (h.after a a) := by
  have hstores : (h.after a a).stores = h.stores := by
    change (if a = 0 then 0 else h.stores + (fresh a a).length) = h.stores
    split_ifs with h0
    · cases ha with
      | filling _ htaken _ =>
        have hnot := (htaken 0).not.mp (by simp [h0])
        simp only [Fin.val_zero] at hnot
        omega
      | turned _ hfull _ => exact absurd (congrFun h0 0) (hfull 0)
    · simp [fresh_self]
  have horder : (h.after a a).order = h.order := by simp [History.after, fresh_self]
  cases ha with
  | filling hs htaken ho => exact .filling (hstores ▸ hs) (hstores ▸ htaken) (by rw [horder, hstores, ho])
  | turned hs hfull ho => exact .turned (hstores ▸ hs) hfull (by rw [horder, ho])

theorem Aged.emptied (ha : Aged a h) : Aged (0 : Fin (n + 2) → κ) (h.after a 0) := by
  have hstores : (h.after a 0).stores = 0 := if_pos rfl
  have horder : (h.after a 0).order = [] := by
    unfold History.after
    simp only [fresh_zero, List.append_nil]
    apply List.filter_eq_nil_iff.mpr
    intro i hi
    have hne : a i ≠ 0 := by
      cases ha with
      | filling _ htaken ho =>
        rw [ho] at hi
        exact (htaken i).mpr (mem_take_finRange hi)
      | turned _ hfull _ => exact hfull i
    simp [hne.symm]
  refine .filling (by omega) (fun i => ?_) ?_
  · simp [hstores]
  · rw [horder, hstores, List.take_zero]

theorem Aged.filled (ha : Aged a h) {i : Fin (n + 2)} {k : κ} (hk : k ≠ 0) (hnew : ∀ j, a j ≠ k)
    (hfree : a i = 0) (hfirst : ∀ j < i, a j ≠ 0) :
    Aged (Function.update a i k) (h.after a (Function.update a i k)) := by
  cases ha with
  | turned _ hfull _ => exact absurd hfree (hfull i)
  | filling hs htaken ho =>
    -- the first free slot is the next in turn
    have hi : i.val = h.stores := by
      have hle : h.stores ≤ i.val := not_lt.mp ((htaken i).not.mp (not_not.mpr hfree))
      by_contra hne
      have hlt : (⟨h.stores, by omega⟩ : Fin (n + 2)) < i := by
        apply Fin.lt_def.mpr
        show h.stores < i.val
        omega
      have := (htaken _).mp (hfirst _ hlt)
      simp at this
    have hne0 : Function.update a i k ≠ 0 := fun h0 => hk (by simpa using congrFun h0 i)
    have hfresh := fresh_update hk (hnew i)
    have hstores : (h.after a (Function.update a i k)).stores = h.stores + 1 := by
      simp [History.after, hne0, hfresh]
    refine .filling (by omega) (fun j => ?_) ?_
    · rw [hstores]
      by_cases hj : j = i
      · subst hj
        simp [hk, hi]
      · have hval : j.val ≠ i.val := fun he => hj (Fin.ext he)
        rw [Function.update_of_ne hj, htaken j]
        omega
    · have hkeep : h.order.filter (fun j => Function.update a i k j = a j) = h.order := by
        apply List.filter_eq_self.mpr
        intro j hj
        rw [ho] at hj
        have hlt := mem_take_finRange hj
        have hne : j ≠ i := by
          rintro rfl
          omega
        simp [hne]
      have hlen : h.stores < (List.finRange (n + 2)).length := by
        rw [List.length_finRange]
        omega
      have hget : (List.finRange (n + 2))[h.stores] = i := by
        rw [List.getElem_finRange]
        exact Fin.ext hi.symm
      rw [hstores, ← List.take_append_getElem hlen, hget, ← ho]
      unfold History.after
      rw [hkeep, hfresh]

theorem Aged.evicted (ha : Aged a h) {k : κ} (hk : k ≠ 0) (hnew : ∀ j, a j ≠ k)
    (hfull : ∀ j, a j ≠ 0) :
    Aged (Function.update a 0 k) (h.after a (Function.update a 0 k)) := by
  have hne0 : Function.update a 0 k ≠ 0 := fun h0 => hk (by simpa using congrFun h0 0)
  have hfresh := fresh_update hk (hnew 0)
  have hstores : (h.after a (Function.update a 0 k)).stores = h.stores + 1 := by
    simp [History.after, hne0, hfresh]
  obtain ⟨htail, hhead⟩ := filter_tail (hnew 0)
  have hall : ∀ i, Function.update a 0 k i ≠ 0 := by
    intro i
    by_cases hi : i = 0
    · subst hi
      simpa using hk
    · rw [Function.update_of_ne hi]
      exact hfull i
  cases ha with
  | filling hs htaken ho =>
    have hlast : n + 1 < h.stores := (htaken (Fin.last (n + 1))).mp (hfull _)
    refine .turned (by omega) hall ?_
    have hrange : List.finRange (n + 2) = [0] ++ (List.finRange (n + 2)).tail := by
      rw [finRange_tail, List.finRange_succ]
      rfl
    have htake : h.order = [0] ++ (List.finRange (n + 2)).tail := by
      rw [ho, ← hrange]
      exact List.take_of_length_le (by rw [List.length_finRange]; omega)
    unfold History.after
    rw [htake, List.filter_append, htail, hhead, hfresh]
    rfl
  | turned hs _ ho =>
    refine .turned (by omega) hall ?_
    unfold History.after
    rw [ho, List.filter_append, htail, hhead, hfresh, List.append_nil]

theorem Step.aged (hab : Step a b) (ha : Aged a h) : Aged b (h.after a b) := by
  cases hab with
  | kept => exact ha.kept
  | emptied => exact ha.emptied
  | filled hk hnew hfree hfirst => exact ha.filled hk hnew hfree hfirst
  | evicted hk hnew hfull => exact ha.evicted hk hnew hfull

omit [DecidableEq κ] in
/-- An entry gives way to another in the first slot only, when all are taken. -/
theorem Step.evicts (hab : Step a b) {i : Fin (n + 2)} (hi : Evicts a b i) :
    i = 0 ∧ ∀ j, a j ≠ 0 := by
  obtain ⟨hai, hbi, hne⟩ := hi
  cases hab with
  | kept => exact absurd rfl hne
  | emptied => exact absurd rfl hbi
  | @filled i' k hk hnew hfree hfirst =>
    have heq : i ≠ i' := by
      rintro rfl
      exact hai hfree
    exact absurd (Function.update_of_ne heq k a) hne
  | @evicted k hk hnew hfull =>
    refine ⟨?_, hfull⟩
    by_contra h0
    exact hne (Function.update_of_ne h0 k a)

omit [DecidableEq κ] in
/-- The entry that gives way is the oldest one the first time after the cache was empty, and never
again. -/
theorem Aged.evicts_oldest_iff (ha : Aged a h) (hab : Step a b) {i : Fin (n + 2)}
    (hi : Evicts a b i) : h.order.head? = some i ↔ h.stores = n + 2 := by
  obtain ⟨rfl, hfull⟩ := hab.evicts hi
  cases ha with
  | filling hs htaken ho =>
    have hlast : n + 1 < h.stores := (htaken (Fin.last (n + 1))).mp (hfull _)
    have hstores : h.stores = n + 2 := by omega
    rw [ho, hstores, List.finRange_succ]
    simp
  | turned hs _ ho =>
    rw [ho, finRange_tail, List.finRange_succ]
    have hne : h.stores ≠ n + 2 := by omega
    simp [hne]

end Step

end Replacement
