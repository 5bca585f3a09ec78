import Drmtap.Lib.Mixing
import Drmtap.Egl

/-! The hash shader of gpu_egl.c, one fragment for each block of 32 by 32 texels, and that no
change of a single texel escapes it. Positions are below the size of an image, which is an `int`,
so no `int` of the shader overflows. -/
namespace Drmtap

/-- An 8-bit texel, as `texelFetch` times 255 gives it back. -/
structure Texel where
  x : UInt8
  y : UInt8
  z : UInt8
  w : UInt8
deriving DecidableEq

def Texel.word (c : Texel) : UInt32 :=
  c.x.toUInt32 ||| c.y.toUInt32 <<< 8 ||| c.z.toUInt32 <<< 16 ||| c.w.toUInt32 <<< 24

/-- An image, by column and row. -/
abbrev Texels := ℕ × ℕ → Texel

namespace HashShader

def rotl (x r : UInt32) : UInt32 := x <<< r ||| x >>> (32 - r)

structure State where
  h1 : UInt32
  h2 : UInt32
  cnt : UInt32

/-- The `k` of a texel. -/
def mixed (u : UInt32) : UInt32 := rotl (u * 0xcc9e2d51) 15 * 0x1b873593

def h1Step (h1 u : UInt32) : UInt32 := rotl (h1 ^^^ mixed u) 13 * 5 + 0xe6546b64

def h2Step (h2 u : UInt32) (p : ℕ × ℕ) : UInt32 :=
  let h2 := (h2 ^^^ u ^^^ p.1.toUInt32 * 0x9E3779B1 ^^^ p.2.toUInt32 * 0x85EBCA6B) * 0x01000193
  h2 ^^^ h2 >>> 15

def foldTexel (img : Texels) (s : State) (p : ℕ × ℕ) : State where
  h1 := h1Step s.h1 (img p).word
  h2 := h2Step s.h2 (img p).word p
  cnt := s.cnt + 1

/-- The loop `for (int i = 0; i < 32; i++) { if (!go(i)) break; .. }`. -/
def forWhile {σ : Type} (go : ℕ → Bool) (body : σ → ℕ → σ) (s : σ) : σ :=
  ((List.range 32).takeWhile go).foldl body s

/-- The two loops of `main` over the block at `b`. -/
def blockLoop {σ : Type} (size b : ℕ × ℕ) (body : σ → ℕ × ℕ → σ) : σ → σ :=
  forWhile (fun y => b.2 + y < size.2) fun s y =>
    forWhile (fun x => b.1 + x < size.1) (fun s x => body s (b.1 + x, b.2 + y)) s

def finish (h1 cnt : UInt32) : UInt32 :=
  let h1 := h1 ^^^ cnt
  let h1 := (h1 ^^^ h1 >>> 16) * 0x85ebca6b
  h1 ^^^ h1 >>> 13

/-- What `main` writes for the fragment at column and row `f` of the grid. -/
def fragment (img : Texels) (size f : ℕ × ℕ) : List UInt32 :=
  let b := (f.1 * 32, f.2 * 32)
  let s := blockLoop size b (foldTexel img) ⟨0x9747b28c, 0x2545F491, 0⟩
  [finish s.h1 s.cnt, s.h2, b.1.toUInt32, b.2.toUInt32]

/-- The blocks that cover a length. -/
def blocks (n : ℕ) : ℕ := (n + 31) / 32

/-- The grid as it is read back, four words for each block, row by row. -/
def grid (img : Texels) (size : ℕ × ℕ) (i : ℕ) : UInt32 :=
  (fragment img size (i / 4 % blocks size.1, i / 4 / blocks size.1)).getD (i % 4) 0

/-- The texels that the loops visit, in order. -/
def visits (size f : ℕ × ℕ) : List (ℕ × ℕ) :=
  blockLoop size (f.1 * 32, f.2 * 32) (fun seen p => seen ++ [p]) []

/-- The block that holds a texel. -/
def blockOf (p : ℕ × ℕ) : ℕ × ℕ := (p.1 / 32, p.2 / 32)

/-- The place in the grid of the `h1` of a block. -/
def h1Word (size f : ℕ × ℕ) : ℕ := 4 * (f.2 * blocks size.1 + f.1)

/-! The steps -/

theorem word_injective : Function.Injective Texel.word := by
  have hx : ∀ c : Texel, c.word.toUInt8 = c.x := by
    intro c
    apply UInt8.eq_of_toBitVec_eq
    apply BitVec.eq_of_getLsbD_eq
    intro i hi
    simp [Texel.word]
  have hy : ∀ c : Texel, (c.word >>> 8).toUInt8 = c.y := by
    intro c
    apply UInt8.eq_of_toBitVec_eq
    apply BitVec.eq_of_getLsbD_eq
    intro i hi
    have h32 : 8 + i < 32 ∧ i < 32 ∧ 8 + i < 16 ∧ 8 + i < 24 := by omega
    simp [Texel.word, hi, h32]
  have hz : ∀ c : Texel, (c.word >>> 16).toUInt8 = c.z := by
    intro c
    apply UInt8.eq_of_toBitVec_eq
    apply BitVec.eq_of_getLsbD_eq
    intro i hi
    have h32 : 16 + i < 32 ∧ i < 32 ∧ 16 + i < 24 ∧ 8 ≤ 16 + i - 8 := by omega
    have hpast : c.x.toBitVec.getLsbD (16 + i) = false := BitVec.getLsbD_of_ge _ _ (by omega)
    simp [Texel.word, hi, h32, hpast]
  have hw : ∀ c : Texel, (c.word >>> 24).toUInt8 = c.w := by
    intro c
    apply UInt8.eq_of_toBitVec_eq
    apply BitVec.eq_of_getLsbD_eq
    intro i hi
    have h32 : 24 + i < 32 ∧ i < 32 ∧ 8 ≤ 24 + i - 8 ∧ 8 ≤ 24 + i - 16 := by omega
    have hpast : c.x.toBitVec.getLsbD (24 + i) = false := BitVec.getLsbD_of_ge _ _ (by omega)
    simp [Texel.word, hi, h32, hpast]
  intro c d he
  have hxe := hx c
  have hye := hy c
  have hze := hz c
  have hwe := hw c
  rw [he, hx] at hxe
  rw [he, hy] at hye
  rw [he, hz] at hze
  rw [he, hw] at hwe
  cases c
  cases d
  simp_all

/-- A step on words is injective where it is on their bits. -/
theorem injective_of_bits {f : UInt32 → UInt32} {g : BitVec 32 → BitVec 32}
    (hf : ∀ x, (f x).toBitVec = g x.toBitVec) (hg : Function.Injective g) :
    Function.Injective f := by
  intro x y he
  have hbits : g x.toBitVec = g y.toBitVec := by rw [← hf, ← hf, he]
  exact UInt32.eq_of_toBitVec_eq (hg hbits)

theorem mul_injective {c d : UInt32} (h : c * d = 1) : Function.Injective (· * c) :=
  injective_of_bits (fun _ => rfl)
    (Mixing.mul_injective (congrArg UInt32.toBitVec h))

theorem xor_injective (c : UInt32) : Function.Injective (· ^^^ c) :=
  injective_of_bits (fun _ => rfl) (Mixing.xor_injective c.toBitVec)

theorem rotl_15_injective : Function.Injective (rotl · 15) :=
  injective_of_bits (fun x => by simp [rotl, BitVec.rotateLeft_def]) (Mixing.rotateLeft_injective 15)

theorem rotl_13_injective : Function.Injective (rotl · 13) :=
  injective_of_bits (fun x => by simp [rotl, BitVec.rotateLeft_def]) (Mixing.rotateLeft_injective 13)

theorem mixed_injective : Function.Injective mixed :=
  (mul_injective (d := 0x56ed309b) (by decide)).comp
    (rotl_15_injective.comp (mul_injective (d := 0xdee13bb1) (by decide)))

theorem h1Step_injective_state (u : UInt32) : Function.Injective (h1Step · u) := by
  have hmul : Function.Injective fun h : UInt32 => h * 5 + 0xe6546b64 :=
    (add_left_injective 0xe6546b64).comp (mul_injective (d := 0xcccccccd) (by decide))
  exact hmul.comp (rotl_13_injective.comp (xor_injective _))

theorem h1Step_injective_word (h1 : UInt32) : Function.Injective (h1Step h1) := by
  have hxor : Function.Injective (h1 ^^^ · : UInt32 → UInt32) := by
    intro u v he
    refine xor_injective h1 ?_
    show u ^^^ h1 = v ^^^ h1
    rw [UInt32.xor_comm u, UInt32.xor_comm v]
    exact he
  have hmul : Function.Injective fun h : UInt32 => h * 5 + 0xe6546b64 :=
    (add_left_injective 0xe6546b64).comp (mul_injective (d := 0xcccccccd) (by decide))
  exact hmul.comp (rotl_13_injective.comp (hxor.comp mixed_injective))

theorem finish_injective (cnt : UInt32) : Function.Injective (finish · cnt) := by
  have h16 : Function.Injective fun h : UInt32 => h ^^^ h >>> 16 :=
    injective_of_bits (fun x => by simp) (Mixing.xorShift_injective (r := 16) (by decide))
  have h13 : Function.Injective fun h : UInt32 => h ^^^ h >>> 13 :=
    injective_of_bits (fun x => by simp) (Mixing.xorShift_injective (r := 13) (by decide))
  have hmul : Function.Injective (· * (0x85ebca6b : UInt32)) :=
    mul_injective (d := 0xa5cb9243) (by decide)
  exact h13.comp (hmul.comp (h16.comp (xor_injective cnt)))

/-! The texels of a block -/

theorem takeWhile_range (n m : ℕ) : (List.range n).takeWhile (· < m) = List.range (min n m) := by
  induction n with
  | zero => simp
  | succ n ih =>
    rw [List.range_succ]
    by_cases h : n < m
    · rw [List.takeWhile_append_of_pos fun a ha => decide_eq_true ((List.mem_range.mp ha).trans h)]
      have hmin : min (n + 1) m = n + 1 := by omega
      simp [h, List.range_succ]
    · have hmin : min (n + 1) m = min n m := by omega
      rw [hmin, ← ih, List.takeWhile_append]
      simp only [List.takeWhile_cons, h, decide_false, Bool.false_eq_true, if_false,
        List.append_nil, ite_eq_right_iff]
      intro hlen
      rw [ih, List.length_range, List.length_range] at hlen
      rw [ih, hlen]

theorem forWhile_lt {σ : Type} (b n : ℕ) (body : σ → ℕ → σ) (s : σ) :
    forWhile (fun i => b + i < n) body s = (List.range (min 32 (n - b))).foldl body s := by
  have hgo : (fun i => decide (b + i < n)) = fun i => decide (i < n - b) := by
    funext i
    exact decide_eq_decide.mpr (by omega)
  unfold forWhile
  rw [hgo, takeWhile_range]

/-- The places that the two loops pass, row by row. -/
def places (size b : ℕ × ℕ) : List (ℕ × ℕ) :=
  (List.range (min 32 (size.2 - b.2))).flatMap fun y =>
    (List.range (min 32 (size.1 - b.1))).map fun x => (b.1 + x, b.2 + y)

theorem blockLoop_eq {σ : Type} (size b : ℕ × ℕ) (body : σ → ℕ × ℕ → σ) (s : σ) :
    blockLoop size b body s = (places size b).foldl body s := by
  unfold blockLoop places
  rw [forWhile_lt, List.foldl_flatMap]
  simp only [forWhile_lt, List.foldl_map]

theorem mem_places {size b p : ℕ × ℕ} : p ∈ places size b ↔
    (b.1 ≤ p.1 ∧ p.1 < b.1 + 32 ∧ p.1 < size.1) ∧ b.2 ≤ p.2 ∧ p.2 < b.2 + 32 ∧ p.2 < size.2 := by
  obtain ⟨px, py⟩ := p
  simp only [places, List.mem_flatMap, List.mem_map, List.mem_range, Prod.mk.injEq]
  constructor
  · rintro ⟨y, hy, x, hx, rfl, rfl⟩
    omega
  · rintro ⟨hx, hy⟩
    exact ⟨py - b.2, by omega, px - b.1, by omega, by omega, by omega⟩

theorem places_nodup (size b : ℕ × ℕ) : (places size b).Nodup := by
  refine List.nodup_flatMap.mpr ⟨fun y hy => ?_, ?_⟩
  · refine List.Nodup.map (fun x x' he => ?_) List.nodup_range
    have hx : b.1 + x = b.1 + x' := (Prod.mk.inj he).1
    omega
  · refine List.nodup_range.imp fun {y y'} hne => ?_
    intro p hp hp'
    obtain ⟨x, -, rfl⟩ := List.mem_map.mp hp
    obtain ⟨x', -, he⟩ := List.mem_map.mp hp'
    have hy : b.2 + y' = b.2 + y := (Prod.mk.inj he).2
    omega

theorem visits_eq (size f : ℕ × ℕ) : visits size f = places size (f.1 * 32, f.2 * 32) := by
  unfold visits
  rw [blockLoop_eq]
  have happend : ∀ l seen : List (ℕ × ℕ), l.foldl (fun seen p => seen ++ [p]) seen = seen ++ l := by
    intro l
    induction l with
    | nil => simp
    | cons p l ih => simp [ih]
  exact happend _ []

/-! The grid -/

/-- The `h1` of a block depends on its texels alone. -/
theorem foldTexel_h1 (img : Texels) (l : List (ℕ × ℕ)) (s : State) :
    (l.foldl (foldTexel img) s).h1 = l.foldl (fun h1 p => h1Step h1 (img p).word) s.h1 := by
  induction l generalizing s with
  | nil => rfl
  | cons p l ih => simp only [List.foldl_cons, ih, foldTexel]

/-- The texels are counted, whatever they are. -/
theorem foldTexel_cnt (img : Texels) (l : List (ℕ × ℕ)) (s : State) :
    (l.foldl (foldTexel img) s).cnt = l.foldl (fun cnt _ => cnt + 1) s.cnt := by
  induction l generalizing s with
  | nil => rfl
  | cons p l ih => simp only [List.foldl_cons, ih, foldTexel]

theorem lt_blocks {n p : ℕ} (hp : p < n) : p / 32 < blocks n := by
  unfold blocks
  omega

theorem grid_h1 (img : Texels) {size f : ℕ × ℕ} (hf : f.1 < blocks size.1) :
    grid img size (h1Word size f) = (fragment img size f).getD 0 0 := by
  have hdiv : h1Word size f / 4 = f.2 * blocks size.1 + f.1 := Nat.mul_div_cancel_left _ (by decide)
  have hmod : h1Word size f % 4 = 0 := Nat.mul_mod_right _ _
  have hpos : 0 < blocks size.1 := by omega
  have hcol : (f.2 * blocks size.1 + f.1) % blocks size.1 = f.1 := by
    rw [Nat.mul_comm, Nat.mul_add_mod, Nat.mod_eq_of_lt hf]
  have hrow : (f.2 * blocks size.1 + f.1) / blocks size.1 = f.2 := by
    rw [Nat.mul_comm, Nat.mul_add_div hpos, Nat.div_eq_of_lt hf, Nat.add_zero]
  unfold grid
  rw [hdiv, hmod, hcol, hrow]

/-- A fragment tells two images apart that differ in one texel of its block. -/
theorem fragment_ne {img img' : Texels} {size f p : ℕ × ℕ} (hp : p ∈ visits size f)
    (hne : img p ≠ img' p) (hsame : ∀ q ∈ visits size f, q ≠ p → img q = img' q) :
    (fragment img size f).getD 0 0 ≠ (fragment img' size f).getD 0 0 := by
  rw [visits_eq] at hp hsame
  show finish _ _ ≠ finish _ _
  simp only [blockLoop_eq]
  rw [foldTexel_cnt, foldTexel_cnt, foldTexel_h1, foldTexel_h1]
  refine fun he => Mixing.foldl_ne (f := fun q => (img q).word) (g := fun q => (img' q).word)
    h1Step_injective_state h1Step_injective_word hp (places_nodup _ _)
    (fun hw => hne (word_injective hw)) (fun q hq hqp => ?_) _ (finish_injective _ he)
  rw [hsame q hq hqp]

/-- The block of a texel is the only one that visits it, and it does so once. -/
theorem count_visits {size p : ℕ × ℕ} (hx : p.1 < size.1) (hy : p.2 < size.2) (f : ℕ × ℕ) :
    (visits size f).count p = if f = blockOf p then 1 else 0 := by
  rw [visits_eq, (places_nodup _ _).count]
  refine if_congr ?_ rfl rfl
  rw [mem_places, blockOf, Prod.ext_iff]
  constructor
  · rintro ⟨h1, h2⟩
    exact ⟨by omega, by omega⟩
  · rintro ⟨h1, h2⟩
    omega

theorem grid_ne {size p : ℕ × ℕ} (hx : p.1 < size.1) (hy : p.2 < size.2) {img img' : Texels}
    (hne : img p ≠ img' p)
    (hsame : ∀ q : ℕ × ℕ, q.1 < size.1 → q.2 < size.2 → q ≠ p → img q = img' q) :
    grid img size (h1Word size (blockOf p)) ≠ grid img' size (h1Word size (blockOf p)) := by
  have hcount := count_visits hx hy (blockOf p)
  rw [if_pos rfl] at hcount
  rw [grid_h1 img (lt_blocks hx), grid_h1 img' (lt_blocks hx)]
  refine fragment_ne (List.count_pos_iff.mp (by omega)) hne fun q hq hqp => ?_
  rw [visits_eq, mem_places] at hq
  exact hsame q hq.1.2.2 hq.2.2.2 hqp

/-- The hash sees every texel: each is folded once, into one block of the grid, and a change of
any one of them changes the `h1` of that block. -/
theorem hash_sees_every_texel (size p : ℕ × ℕ) (hx : p.1 < size.1) (hy : p.2 < size.2) :
    (blockOf p).1 < blocks size.1 ∧ (blockOf p).2 < blocks size.2 ∧
    (∀ f, (visits size f).count p = if f = blockOf p then 1 else 0) ∧
    ∀ img img' : Texels, img p ≠ img' p →
      (∀ q : ℕ × ℕ, q.1 < size.1 → q.2 < size.2 → q ≠ p → img q = img' q) →
      grid img size (h1Word size (blockOf p)) ≠ grid img' size (h1Word size (blockOf p)) := by
  exact ⟨lt_blocks hx, lt_blocks hy, count_visits hx hy,
    fun _ _ hne hsame => grid_ne hx hy hne hsame⟩

/-- A texel of the last, partial block. -/
theorem hash_sees_edge :
    (blockOf (32, 39)).1 < blocks 33 ∧ (blockOf (32, 39)).2 < blocks 40 ∧
    (∀ f, (visits (33, 40) f).count (32, 39) = if f = blockOf (32, 39) then 1 else 0) ∧
    ∀ img img' : Texels, img (32, 39) ≠ img' (32, 39) →
      (∀ q : ℕ × ℕ, q.1 < 33 → q.2 < 40 → q ≠ (32, 39) → img q = img' q) →
      grid img (33, 40) (h1Word (33, 40) (blockOf (32, 39))) ≠
        grid img' (33, 40) (h1Word (33, 40) (blockOf (32, 39))) :=
  hash_sees_every_texel (33, 40) (32, 39) (by decide) (by decide)

/-- The grid that `hash_check` makes room for. -/
theorem blocksOf_toNat {n : UInt32} (hn : n.toNat < 2 ^ 31) : (blocksOf n).toNat = blocks n.toNat := by
  have hsum : (n + (hashBs - 1)).toNat = n.toNat + 31 := by
    rw [UInt32.toNat_add]
    exact Nat.mod_eq_of_lt (show n.toNat + 31 < 2 ^ 32 by omega)
  show ((n + (hashBs - 1)) / hashBs).toNat = (n.toNat + 31) / 32
  rw [UInt32.toNat_div, hsum]
  rfl

theorem gridWords_eq {width height : UInt32} (hw : width.toNat < 2 ^ 31)
    (hh : height.toNat < 2 ^ 31) :
    gridWords width height = blocks width.toNat * blocks height.toNat * 4 := by
  unfold gridWords
  rw [blocksOf_toNat hw, blocksOf_toNat hh]

/-- `hash_check` does not take a picture for one that differs from it in one texel. -/
theorem gridOf_ne {width height : UInt32} (hw : width.toNat < 2 ^ 31) (hh : height.toNat < 2 ^ 31)
    {p : ℕ × ℕ} (hx : p.1 < width.toNat) (hy : p.2 < height.toNat) {img img' : Texels}
    (hne : img p ≠ img' p)
    (hsame : ∀ q : ℕ × ℕ, q.1 < width.toNat → q.2 < height.toNat → q ≠ p → img q = img' q) :
    EglHash.gridOf (some (grid img (width.toNat, height.toNat))) (gridWords width height) ≠
      EglHash.gridOf (some (grid img' (width.toNat, height.toNat))) (gridWords width height) := by
  intro heq
  have hcol : (blockOf p).1 < blocks width.toNat := lt_blocks hx
  have hrow : (blockOf p).2 < blocks height.toNat := lt_blocks hy
  have hend : ((blockOf p).2 + 1) * blocks width.toNat ≤ blocks height.toNat * blocks width.toNat :=
    Nat.mul_le_mul_right _ hrow
  have hin : h1Word (width.toNat, height.toNat) (blockOf p) < gridWords width height := by
    rw [gridWords_eq hw hh, Nat.mul_comm (blocks width.toNat)]
    show 4 * ((blockOf p).2 * blocks width.toNat + (blockOf p).1) < _
    rw [Nat.succ_mul] at hend
    omega
  exact grid_ne hx hy hne hsame (List.map_inj_left.mp heq _ (List.mem_range.mpr hin))

end HashShader

end Drmtap
