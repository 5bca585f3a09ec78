import Mathlib

/-! Hashes that fold words into a state by steps that lose nothing: a step that is injective in the
state and in the word lets every change of a single word through to the end. -/
namespace Mixing

section Folds
variable {σ α β : Type} {step : σ → α → σ}

/-- A fold keeps different states different. -/
theorem foldl_injective (hs : ∀ a, Function.Injective (step · a)) (l : List α) :
    Function.Injective (l.foldl step) := by
  induction l with
  | nil => exact Function.injective_id
  | cons a l ih => exact ih.comp (hs a)

/-- A fold over words tells two readings apart that differ at one place. -/
theorem foldl_ne {f g : β → α} (hs : ∀ a, Function.Injective (step · a))
    (ha : ∀ s, Function.Injective (step s)) {l : List β} {p : β} (hp : p ∈ l) (hl : l.Nodup)
    (hne : f p ≠ g p) (hsame : ∀ q ∈ l, q ≠ p → f q = g q) (s : σ) :
    l.foldl (fun s q => step s (f q)) s ≠ l.foldl (fun s q => step s (g q)) s := by
  obtain ⟨before, after, rfl⟩ := List.append_of_mem hp
  obtain ⟨-, hafter, hdisj⟩ := List.nodup_append.mp hl
  have hnot : p ∉ after := (List.nodup_cons.mp hafter).1
  have hbefore : ∀ s, before.foldl (fun s q => step s (f q)) s =
      before.foldl (fun s q => step s (g q)) s := fun s =>
    List.foldl_ext _ _ _ fun s q hq => by
      rw [hsame q (List.mem_append_left _ hq) (hdisj q hq p List.mem_cons_self)]
  have htail : ∀ s, after.foldl (fun s q => step s (f q)) s =
      after.foldl (fun s q => step s (g q)) s := fun s =>
    List.foldl_ext _ _ _ fun s q hq => by
      rw [hsame q (List.mem_append_right _ (List.mem_cons_of_mem _ hq)) fun he => hnot (he ▸ hq)]
  rw [List.foldl_append, List.foldl_append, List.foldl_cons, List.foldl_cons, hbefore, htail]
  exact fun he => hne (ha _ (foldl_injective (fun a => hs (g a)) after he))

end Folds

section Words
variable {w : ℕ}

theorem xor_injective (c : BitVec w) : Function.Injective (· ^^^ c) :=
  fun x y h => by simpa [BitVec.xor_assoc] using congrArg (· ^^^ c) h

theorem mul_injective {c d : BitVec w} (h : c * d = 1#w) : Function.Injective (· * c) := by
  intro x y he
  have hmul : x * c * d = y * c * d := congrArg (· * d) he
  rwa [BitVec.mul_assoc, BitVec.mul_assoc, h, BitVec.mul_one, BitVec.mul_one] at hmul

/-- A rotation moves bit `i` up by `r` places, around the end. -/
theorem getLsbD_rotateLeft_add (x : BitVec w) (r : ℕ) {i : ℕ} (hi : i < w) :
    (x.rotateLeft r).getLsbD ((i + r % w) % w) = x.getLsbD i := by
  have hr : r % w < w := Nat.mod_lt r (by omega)
  rw [BitVec.getLsbD_rotateLeft]
  by_cases hfits : i + r % w < w
  · have hplace : (i + r % w) % w = i + r % w := Nat.mod_eq_of_lt hfits
    have hup : ¬ i + r % w < r % w := by omega
    simp [hplace, hup, hfits]
  · have hplace : (i + r % w) % w = i + r % w - w := by
      rw [Nat.mod_eq_sub_mod (by omega), Nat.mod_eq_of_lt (by omega)]
    have hdown : i + r % w - w < r % w := by omega
    have hback : w - r % w + (i + r % w - w) = i := by omega
    simp [hplace, hdown, hback]

theorem rotateLeft_injective (r : ℕ) : Function.Injective (BitVec.rotateLeft (w := w) · r) := by
  intro x y he
  refine BitVec.eq_of_getLsbD_eq fun i hi => ?_
  rw [← getLsbD_rotateLeft_add x r hi, ← getLsbD_rotateLeft_add y r hi]
  exact congrArg (BitVec.getLsbD · ((i + r % w) % w)) he

/-- Only zero stays itself when it is shifted down. -/
theorem eq_zero_of_shift {r : ℕ} (hr : 0 < r) {d : BitVec w} (hd : d = d >>> r) : d = 0#w := by
  have hnat : d.toNat = d.toNat / 2 ^ r := by
    have h := congrArg BitVec.toNat hd
    rwa [BitVec.toNat_ushiftRight, Nat.shiftRight_eq_div_pow] at h
  have htwo : 1 < 2 ^ r := Nat.one_lt_two_pow hr.ne'
  by_contra hne
  have hpos : 0 < d.toNat := Nat.pos_of_ne_zero fun h0 => hne (BitVec.eq_of_toNat_eq (by simpa))
  have hlt := Nat.div_lt_self hpos htwo
  omega

/-- A word xored with itself shifted down: where two results agree, the words differ by a word
that the shift leaves alone. -/
theorem xorShift_injective {r : ℕ} (hr : 0 < r) :
    Function.Injective fun x : BitVec w => x ^^^ x >>> r := by
  have hswap : ∀ a b c d : Bool, (a ^^ c) = (b ^^ d) → (a ^^ b) = (c ^^ d) := by decide
  intro x y he
  have hd : x ^^^ y = (x ^^^ y) >>> r := by
    refine BitVec.eq_of_getLsbD_eq fun i hi => ?_
    have hbit := congrArg (BitVec.getLsbD · i) he
    simp only [BitVec.getLsbD_xor, BitVec.getLsbD_ushiftRight] at hbit ⊢
    exact hswap _ _ _ _ hbit
  have hzero := eq_zero_of_shift hr hd
  have hback : x ^^^ y ^^^ y = 0#w ^^^ y := congrArg (· ^^^ y) hzero
  rwa [BitVec.xor_assoc, BitVec.xor_self, BitVec.xor_zero, BitVec.zero_xor] at hback

end Words

end Mixing
