import Mathlib

/-! Byte memory made of separately allocated blocks, and loops that fill one of them.

A slice is a pointer that carries how far it may be followed. Loads and stores outside the
slice, or outside a live block, have no result. -/
namespace Memory

structure Block where
  size : ℕ
  byte : ℕ → UInt8

/-- Blocks are numbered in the order they were made, and a number is used once. -/
structure Heap where
  next : ℕ
  block : ℕ → Option Block
  fresh : ∀ b, next ≤ b → block b = none

structure Slice where
  base : ℕ
  len : ℕ
deriving DecidableEq, Repr

namespace Heap

def empty : Heap := ⟨0, fun _ => none, fun _ _ => rfl⟩

def alloc (h : Heap) (size : ℕ) (byte : ℕ → UInt8) : Slice × Heap :=
  (⟨h.next, size⟩,
    { next := h.next + 1
      block := fun b => if b = h.next then some ⟨size, byte⟩ else h.block b
      fresh := by
        intro b hb
        rw [if_neg (by omega)]
        exact h.fresh b (by omega) })

def release (h : Heap) (b : ℕ) : Heap where
  next := h.next
  block c := if c = b then none else h.block c
  fresh := by
    intro c hc
    split
    · rfl
    · exact h.fresh c hc

/-- Gives back a whole block. -/
def free (h : Heap) (s : Slice) : Option Heap :=
  match h.block s.base with
  | some B => if B.size = s.len then some (h.release s.base) else none
  | none => none

def Live (h : Heap) (s : Slice) : Prop := ∃ B, h.block s.base = some B ∧ s.len ≤ B.size

def read (h : Heap) (b i : ℕ) : UInt8 :=
  match h.block b with
  | some B => B.byte i
  | none => 0

def load (h : Heap) (s : Slice) (off n : ℕ) : Option (List UInt8) :=
  match h.block s.base with
  | some B =>
    if off + n ≤ s.len ∧ s.len ≤ B.size then
      some ((List.range n).map fun i => B.byte (off + i))
    else none
  | none => none

def store (h : Heap) (s : Slice) (off : ℕ) (l : List UInt8) : Option Heap :=
  match hb : h.block s.base with
  | some B =>
    if off + l.length ≤ s.len ∧ s.len ≤ B.size then
      some
        { next := h.next
          block := fun b =>
            if b = s.base then
              some ⟨B.size, fun i => if off ≤ i then (l[i - off]?).getD (B.byte i) else B.byte i⟩
            else h.block b
          fresh := by
            intro b hn
            rw [if_neg (fun he => by simp [← he, h.fresh b hn] at hb)]
            exact h.fresh b hn }
    else none
  | none => none

/-- Copies `n` bytes between two places that do not overlap, or coincide. -/
def memcpy (h : Heap) (dst : Slice) (dstOff : ℕ) (src : Slice) (srcOff n : ℕ) : Option Heap := do
  h.store dst dstOff (← h.load src srcOff n)

def memset (h : Heap) (dst : Slice) (off : ℕ) (v : UInt8) (n : ℕ) : Option Heap :=
  h.store dst off (List.replicate n v)

theorem alloc_live (h : Heap) (size : ℕ) (byte : ℕ → UInt8) :
    (h.alloc size byte).2.Live (h.alloc size byte).1 :=
  ⟨⟨size, byte⟩, if_pos rfl, le_rfl⟩

theorem alloc_block (h : Heap) (size : ℕ) (byte : ℕ → UInt8) :
    (h.alloc size byte).2.block h.next = some ⟨size, byte⟩ :=
  if_pos rfl

theorem Live.lt_next {h : Heap} {s : Slice} (hs : h.Live s) : s.base < h.next := by
  obtain ⟨B, hB, -⟩ := hs
  by_contra hn
  simp [h.fresh s.base (not_lt.mp hn)] at hB

theorem alloc_block_of_lt {h : Heap} {b : ℕ} (hb : b < h.next) (size : ℕ) (byte : ℕ → UInt8) :
    (h.alloc size byte).2.block b = h.block b :=
  if_neg (by omega)

theorem Live.alloc {h : Heap} {s : Slice} (hs : h.Live s) (size : ℕ) (byte : ℕ → UInt8) :
    (h.alloc size byte).2.Live s := by
  obtain ⟨B, hB, hl⟩ := hs
  exact ⟨B, by rw [alloc_block_of_lt (Live.lt_next ⟨B, hB, hl⟩), hB], hl⟩

theorem Live.release {h : Heap} {s : Slice} {b : ℕ} (hs : h.Live s) (hb : s.base ≠ b) :
    (h.release b).Live s := by
  obtain ⟨B, hB, hl⟩ := hs
  exact ⟨B, (if_neg hb).trans hB, hl⟩

theorem Live.mono {h : Heap} {s : Slice} (hs : h.Live s) {n : ℕ} (hn : n ≤ s.len) :
    h.Live ⟨s.base, n⟩ := by
  obtain ⟨B, hB, hl⟩ := hs
  exact ⟨B, hB, hn.trans hl⟩

/-- The slice is the whole of a live block. -/
def Whole (h : Heap) (s : Slice) : Prop := ∃ B, h.block s.base = some B ∧ B.size = s.len

theorem Whole.live {h : Heap} {s : Slice} (hs : h.Whole s) : h.Live s := by
  obtain ⟨B, hB, hl⟩ := hs
  exact ⟨B, hB, hl.ge⟩

theorem Whole.free {h : Heap} {s : Slice} (hs : h.Whole s) :
    h.free s = some (h.release s.base) := by
  obtain ⟨B, hB, hl⟩ := hs
  simp [Heap.free, hB, hl]

theorem eq_release {h h' : Heap} {s : Slice} (he : h.free s = some h') : h' = h.release s.base := by
  unfold free at he
  split at he
  · split at he
    · exact (Option.some.inj he).symm
    · cases he
  · cases he

theorem Whole.congr {h h' : Heap} {s : Slice} (hs : h.Whole s)
    (he : h'.block s.base = h.block s.base) : h'.Whole s := by
  obtain ⟨B, hB, hl⟩ := hs
  exact ⟨B, he.trans hB, hl⟩

theorem alloc_whole (h : Heap) (size : ℕ) (byte : ℕ → UInt8) :
    (h.alloc size byte).2.Whole (h.alloc size byte).1 :=
  ⟨⟨size, byte⟩, if_pos rfl, rfl⟩

theorem release_block {h : Heap} {b c : ℕ} (hc : c ≠ b) : (h.release b).block c = h.block c :=
  if_neg hc

/-- A block that was made and given back has left nothing behind. -/
theorem alloc_release_block (h : Heap) (size : ℕ) (byte : ℕ → UInt8) :
    ((h.alloc size byte).2.release h.next).block = h.block := by
  funext b
  by_cases hb : b = h.next
  · subst hb
    exact (if_pos rfl).trans (h.fresh _ le_rfl).symm
  · rw [release_block hb]
    exact if_neg hb

/-- The heap after giving back the block of a slice, if there is one. -/
def without (h : Heap) : Option Slice → Heap
  | some s => h.release s.base
  | none => h

@[simp] theorem without_next (h : Heap) (s : Option Slice) : (h.without s).next = h.next := by
  cases s <;> rfl

theorem without_block {h : Heap} {s : Option Slice} {c : ℕ} (hc : ∀ t, s = some t → c ≠ t.base) :
    (h.without s).block c = h.block c := by
  cases s with
  | none => rfl
  | some t => exact release_block (hc t rfl)

theorem load_eq {h : Heap} {s : Slice} (hs : h.Live s) {off n : ℕ} (hn : off + n ≤ s.len) :
    h.load s off n = some ((List.range n).map fun i => h.read s.base (off + i)) := by
  obtain ⟨B, hB, hl⟩ := hs
  simp [load, read, hB, hn, hl]

theorem load_isSome {h : Heap} {s : Slice} {off n : ℕ} {l : List UInt8}
    (he : h.load s off n = some l) : off + n ≤ s.len ∧ l.length = n := by
  unfold load at he
  split at he
  · split at he
    next hc => exact ⟨hc.1, by simp [← Option.some.inj he]⟩
    next => contradiction
  · contradiction

end Heap

/-- `h'` is `h` with the bytes of block `b` at the places in `A` set to `V`. -/
structure Filled (h h' : Heap) (b : ℕ) (A : ℕ → Prop) (V : ℕ → UInt8) : Prop where
  next : h'.next = h.next
  other : ∀ c, c ≠ b → h'.block c = h.block c
  size : (h'.block b).map Block.size = (h.block b).map Block.size
  hit : ∀ i, A i → h'.read b i = V i
  miss : ∀ i, ¬ A i → h'.read b i = h.read b i

namespace Filled
variable {h h' h'' : Heap} {b : ℕ} {A A' : ℕ → Prop} {V : ℕ → UInt8}

theorem refl (h : Heap) (b : ℕ) (V : ℕ → UInt8) : Filled h h b (fun _ => False) V :=
  ⟨rfl, fun _ _ => rfl, rfl, fun _ hf => hf.elim, fun _ _ => rfl⟩

theorem trans (h₁ : Filled h h' b A V) (h₂ : Filled h' h'' b A' V) :
    Filled h h'' b (fun i => A i ∨ A' i) V where
  next := h₂.next.trans h₁.next
  other c hc := (h₂.other c hc).trans (h₁.other c hc)
  size := h₂.size.trans h₁.size
  hit := by
    intro i hi
    by_cases hA : A' i
    · exact h₂.hit i hA
    · rw [h₂.miss i hA]
      exact h₁.hit i (hi.resolve_right hA)
  miss := by
    intro i hi
    rw [h₂.miss i fun hA => hi (.inr hA), h₁.miss i fun hA => hi (.inl hA)]

theorem congr (hf : Filled h h' b A V) (hA : ∀ i, A i ↔ A' i) : Filled h h' b A' V :=
  ⟨hf.next, hf.other, hf.size, fun i hi => hf.hit i ((hA i).mpr hi),
    fun i hi => hf.miss i fun ha => hi ((hA i).mp ha)⟩

theorem live (hf : Filled h h' b A V) {s : Slice} (hs : h.Live s) : h'.Live s := by
  obtain ⟨B, hB, hl⟩ := hs
  by_cases hb : s.base = b
  · have hz := hf.size
    rw [← hb, hB, Option.map_some, Option.map_eq_some_iff] at hz
    obtain ⟨B', hB', hz⟩ := hz
    exact ⟨B', hB', hz ▸ hl⟩
  · exact ⟨B, (hf.other _ hb).trans hB, hl⟩

theorem whole (hf : Filled h h' b A V) {s : Slice} (hs : h.Whole s) : h'.Whole s := by
  obtain ⟨B, hB, hl⟩ := hs
  by_cases hb : s.base = b
  · have hz := hf.size
    rw [← hb, hB, Option.map_some, Option.map_eq_some_iff] at hz
    obtain ⟨B', hB', hz⟩ := hz
    exact ⟨B', hB', hz.trans hl⟩
  · exact ⟨B, (hf.other _ hb).trans hB, hl⟩

theorem read_other (hf : Filled h h' b A V) {c : ℕ} (hc : c ≠ b) (i : ℕ) :
    h'.read c i = h.read c i := by
  rw [Heap.read, Heap.read, hf.other c hc]

/-- Reading where nothing was filled. -/
theorem load_eq (hf : Filled h h' b A V) {s : Slice} (hs : h.Live s) {off n : ℕ}
    (hn : off + n ≤ s.len) (hd : s.base = b → ∀ i < n, ¬ A (off + i)) :
    h'.load s off n = some ((List.range n).map fun i => h.read s.base (off + i)) := by
  rw [Heap.load_eq (hf.live hs) hn]
  refine congrArg some (List.map_congr_left fun i hi => ?_)
  by_cases hb : s.base = b
  · rw [hb]
    exact hf.miss _ (hd hb i (List.mem_range.mp hi))
  · exact hf.read_other hb _

end Filled

theorem Heap.store_filled {h : Heap} {s : Slice} (hs : h.Live s) {off : ℕ} {l : List UInt8}
    {V : ℕ → UInt8} (hn : off + l.length ≤ s.len)
    (hV : ∀ i (hi : i < l.length), V (off + i) = l[i]) :
    ∃ h', h.store s off l = some h' ∧
      Filled h h' s.base (fun i => off ≤ i ∧ i < off + l.length) V := by
  obtain ⟨B, hB, hl⟩ := hs
  unfold Heap.store
  split
  next B' hB' =>
    obtain rfl : B' = B := Option.some.inj (hB'.symm.trans hB)
    rw [if_pos ⟨hn, hl⟩]
    refine ⟨_, rfl, rfl, fun c hc => if_neg hc, by simp [hB], ?_, ?_⟩
    · rintro i ⟨h1, h2⟩
      obtain ⟨k, rfl⟩ := Nat.exists_eq_add_of_le h1
      have hk : k < l.length := by omega
      simp [Heap.read, hV k hk, hk]
    · intro i hi
      simp only [Heap.read, hB, if_pos]
      by_cases h1 : off ≤ i
      · rw [if_pos h1, List.getElem?_eq_none (by omega), Option.getD_none]
      · rw [if_neg h1]
  next hB' => simp [hB] at hB'

/-- A store inside a live slice is made. -/
theorem Heap.store_live {h : Heap} {s : Slice} (hs : h.Live s) {off : ℕ} {l : List UInt8}
    (hn : off + l.length ≤ s.len) :
    ∃ h', h.store s off l = some h' ∧
      ∃ V, Filled h h' s.base (fun i => off ≤ i ∧ i < off + l.length) V := by
  obtain ⟨h', he, hf⟩ := store_filled (V := fun i => (l[i - off]?).getD 0) hs hn
    fun i hi => by simp [hi]
  exact ⟨h', he, _, hf⟩

namespace Heap
variable {h h' : Heap} {s t : Slice} {off n k : ℕ} {l l' : List UInt8}

theorem load_congr (he : h'.block s.base = h.block s.base) (off n : ℕ) :
    h'.load s off n = h.load s off n := by
  unfold load
  rw [he]

theorem load_free (he : h.free t = some h') (hne : s.base ≠ t.base) (off n : ℕ) :
    h'.load s off n = h.load s off n := by
  rw [eq_release he]
  exact load_congr (release_block hne) off n

theorem load_live (he : h.load s off n = some l) : h.Live s := by
  unfold load at he
  split at he
  next B hB =>
    split at he
    next hin => exact ⟨B, hB, hin.2⟩
    next => contradiction
  next => contradiction

/-- Two loads in a row. -/
theorem load_append (h₁ : h.load s off n = some l) (h₂ : h.load s (off + n) k = some l') :
    h.load s off (n + k) = some (l ++ l') := by
  have hlive := load_live h₁
  have hin := (load_isSome h₂).1
  rw [load_eq hlive (by omega)] at h₁ ⊢
  rw [load_eq hlive hin] at h₂
  rw [← Option.some.inj h₁, ← Option.some.inj h₂, List.range_add, List.map_append, List.map_map]
  congr 2
  apply List.map_congr_left
  intro i _
  simp [Nat.add_assoc]

/-- What a store that was made did. -/
theorem filled_store (he : h.store s off l = some h') : h.Live s ∧ off + l.length ≤ s.len ∧
    Filled h h' s.base (fun i => off ≤ i ∧ i < off + l.length) fun i => (l[i - off]?).getD 0 := by
  have hin : h.Live s ∧ off + l.length ≤ s.len := by
    unfold store at he
    split at he
    next B hB =>
      split at he
      next hin => exact ⟨⟨B, hB, hin.2⟩, hin.1⟩
      next => contradiction
    next => contradiction
  obtain ⟨h'', he', hf⟩ := store_filled (V := fun i => (l[i - off]?).getD 0) hin.1 hin.2
    fun i hi => by simp [hi]
  obtain rfl := Option.some.inj (he'.symm.trans he)
  exact ⟨hin.1, hin.2, hf⟩

/-- What was stored is loaded again. -/
theorem load_store (he : h.store s off l = some h') : h'.load s off l.length = some l := by
  obtain ⟨hlive, hin, hf⟩ := filled_store he
  rw [load_eq (hf.live hlive) hin]
  congr 1
  apply List.ext_getElem (by simp)
  intro i hi hi'
  have hhit := hf.hit (off + i) ⟨by omega, by omega⟩
  simpa [hi'] using hhit

/-- A store past the end of what was loaded. -/
theorem load_store_before (he : h.store s off l = some h') (hn : k + n ≤ off)
    (hl : h.load s k n = some l') : h'.load s k n = some l' := by
  obtain ⟨hlive, -, hf⟩ := filled_store he
  have hin := (load_isSome hl).1
  rw [hf.load_eq hlive hin fun _ i hi hhit => by omega, ← hl, load_eq hlive hin]

end Heap

/-- The C loop `for (i = 0; i < n; i++)`, stopped by a step without result. -/
def forUpTo {σ : Type} : ℕ → (ℕ → σ → Option σ) → σ → Option σ
  | 0, _, s => some s
  | n + 1, body, s => (forUpTo n body s).bind (body n)

theorem forUpTo_inv {σ : Type} {n : ℕ} {body : ℕ → σ → Option σ} {s : σ} (I : ℕ → σ → Prop)
    (h0 : I 0 s) (hstep : ∀ i < n, ∀ s, I i s → ∃ s', body i s = some s' ∧ I (i + 1) s') :
    ∃ s', forUpTo n body s = some s' ∧ I n s' := by
  induction n with
  | zero => exact ⟨s, rfl, h0⟩
  | succ n ih =>
    obtain ⟨s₁, he, hI⟩ := ih fun i hi => hstep i (by omega)
    obtain ⟨s₂, he', hI'⟩ := hstep n (by omega) s₁ hI
    exact ⟨s₂, by rw [forUpTo, he, Option.bind_some, he'], hI'⟩

theorem forUpTo_congr {σ : Type} {n : ℕ} {f g : ℕ → σ → Option σ} (hfg : ∀ i < n, f i = g i)
    (s : σ) : forUpTo n f s = forUpTo n g s := by
  induction n with
  | zero => rfl
  | succ n ih => rw [forUpTo, forUpTo, ih fun i hi => hfg i (by omega), hfg n (by omega)]

/-- A loop whose rounds fill one part each fills them all. -/
theorem forUpTo_filled {n b : ℕ} {body : ℕ → Heap → Option Heap} {h : Heap}
    {A : ℕ → ℕ → Prop} {V : ℕ → UInt8}
    (hstep : ∀ i < n, ∀ h', Filled h h' b (fun o => ∃ j < i, A j o) V →
      ∃ h'', body i h' = some h'' ∧ Filled h' h'' b (A i) V) :
    ∃ h', forUpTo n body h = some h' ∧ Filled h h' b (fun o => ∃ i < n, A i o) V := by
  refine forUpTo_inv (fun i h' => Filled h h' b (fun o => ∃ j < i, A j o) V)
    ((Filled.refl h b V).congr fun i => by simp) fun i hi h' hf => ?_
  obtain ⟨h'', he, hf'⟩ := hstep i hi h' hf
  refine ⟨h'', he, (hf.trans hf').congr fun o => ⟨?_, ?_⟩⟩
  · rintro (⟨j, hj, ha⟩ | ha)
    · exact ⟨j, by omega, ha⟩
    · exact ⟨i, by omega, ha⟩
  · rintro ⟨j, hj, ha⟩
    rcases Nat.lt_succ_iff_lt_or_eq.mp hj with hj | rfl
    · exact .inl ⟨j, hj, ha⟩
    · exact .inr ha

/-- `h'` is `h` but for bytes of the slice. -/
structure Writes (out : Slice) (h h' : Heap) : Prop where
  next : h'.next = h.next
  other : ∀ b, b ≠ out.base → h'.block b = h.block b
  size : (h'.block out.base).map Block.size = (h.block out.base).map Block.size
  past : ∀ i, out.len ≤ i → h'.read out.base i = h.read out.base i

instance (out : Slice) : IsPreorder Heap (Writes out) where
  refl _ := ⟨rfl, fun _ _ => rfl, rfl, fun _ _ => rfl⟩
  trans _ _ _ h h' :=
    ⟨h'.next.trans h.next, fun b hb => (h'.other b hb).trans (h.other b hb), h'.size.trans h.size,
      fun i hi => (h'.past i hi).trans (h.past i hi)⟩

namespace Writes
variable {h h' : Heap} {out : Slice}

/-- A store writes no further than it reaches. -/
theorem store_within {s : Slice} {off n : ℕ} {l : List UInt8} (he : h.store s off l = some h')
    (hn : off + l.length ≤ n) : Writes ⟨s.base, n⟩ h h' := by
  unfold Heap.store at he
  split at he
  next B hB =>
    split at he
    next hin =>
      obtain rfl := Option.some.inj he
      refine ⟨rfl, fun b hb => if_neg hb, by simp [hB], fun i hi => ?_⟩
      have hi' : n ≤ i := hi
      simp only [Heap.read, if_pos, hB]
      rw [if_pos (by omega), List.getElem?_eq_none (by omega), Option.getD_none]
    next => cases he
  next => cases he

theorem store {off : ℕ} {l : List UInt8} (he : h.store out off l = some h') :
    Writes out h h' := by
  refine store_within he ?_
  unfold Heap.store at he
  split at he
  next B hB =>
    split at he
    next hin => exact hin.1
    next => cases he
  next => cases he

theorem memcpy {src : Slice} {dstOff srcOff n : ℕ} (he : h.memcpy out dstOff src srcOff n = some h') :
    Writes out h h' := by
  obtain ⟨l, -, hl⟩ := Option.bind_eq_some_iff.mp he
  exact store hl

theorem memset {off n : ℕ} {v : UInt8} (he : h.memset out off v n = some h') : Writes out h h' :=
  store he

/-- A loop writes what its rounds write. -/
theorem forUpTo {n : ℕ} {body : ℕ → Heap → Option Heap} (hb : ∀ i h h', body i h = some h' →
    Writes out h h') (he : Memory.forUpTo n body h = some h') : Writes out h h' := by
  induction n generalizing h' with
  | zero =>
    obtain rfl := Option.some.inj he
    exact refl_of (Writes out) _
  | succ n ih =>
    obtain ⟨h₁, h₁e, h₂e⟩ := Option.bind_eq_some_iff.mp he
    exact trans_of (Writes out) (ih h₁e) (hb n h₁ h' h₂e)

end Writes

/-- The bytes of row `y`: `w` from offset `y * stride` on. -/
def Row (stride w y o : ℕ) : Prop := y * stride ≤ o ∧ o < y * stride + w

/-- Cell `x` of row `y`, `k` bytes wide. -/
def Cell (stride k x y o : ℕ) : Prop := y * stride + k * x ≤ o ∧ o < y * stride + k * x + k

theorem exists_cell_iff {stride k w y o : ℕ} :
    (∃ x < w, Cell stride k x y o) ↔ Row stride (k * w) y o := by
  constructor
  · rintro ⟨x, hx, h1, h2⟩
    have h3 : k * x + k ≤ k * w := by
      rw [← Nat.mul_succ]
      exact Nat.mul_le_mul_left k hx
    exact ⟨by omega, by omega⟩
  · rintro ⟨h1, h2⟩
    have hk : 0 < k := Nat.pos_of_ne_zero fun h => by simp [h] at h2; omega
    have hd := Nat.div_add_mod (o - y * stride) k
    have hm := Nat.mod_lt (o - y * stride) hk
    refine ⟨(o - y * stride) / k, (Nat.div_lt_iff_lt_mul hk).mpr ?_, ?_, ?_⟩
    · rw [Nat.mul_comm w k]
      omega
    · omega
    · omega

/-- Distinct rows of a picture do not meet. -/
theorem row_unique {stride w y y' o : ℕ} (hw : w ≤ stride) (h : Row stride w y o)
    (h' : Row stride w y' o) : y = y' := by
  obtain ⟨h1, h2⟩ := h
  obtain ⟨h3, h4⟩ := h'
  rcases lt_trichotomy y y' with hy | hy | hy
  · have := Nat.mul_le_mul_right stride (Nat.succ_le_of_lt hy)
    rw [Nat.succ_mul] at this
    omega
  · exact hy
  · have := Nat.mul_le_mul_right stride (Nat.succ_le_of_lt hy)
    rw [Nat.succ_mul] at this
    omega

/-- The bytes a picture made of rows of `k`-byte cells puts at each offset. -/
def canvas (stride k : ℕ) (cell : ℕ → ℕ → List UInt8) (o : ℕ) : UInt8 :=
  ((cell (o % stride / k) (o / stride))[o % stride % k]?).getD 0

theorem canvas_cell {stride k w x y i : ℕ} {cell : ℕ → ℕ → List UInt8} (hw : k * w ≤ stride)
    (hx : x < w) (hi : i < k) :
    canvas stride k cell (y * stride + k * x + i) = ((cell x y)[i]?).getD 0 := by
  have hlt : k * x + i < stride := by
    have := Nat.mul_le_mul_left k (Nat.succ_le_of_lt hx)
    rw [Nat.mul_succ] at this
    omega
  have hd : (y * stride + k * x + i) / stride = y := by
    rw [Nat.add_assoc, Nat.mul_comm, Nat.mul_add_div (by omega), Nat.div_eq_of_lt hlt, Nat.add_zero]
  have hm : (y * stride + k * x + i) % stride = k * x + i := by
    rw [Nat.add_assoc, Nat.mul_comm, Nat.mul_add_mod, Nat.mod_eq_of_lt hlt]
  have hd' : (k * x + i) / k = x := by
    rw [Nat.mul_add_div (by omega), Nat.div_eq_of_lt hi, Nat.add_zero]
  have hm' : (k * x + i) % k = i := by rw [Nat.mul_add_mod, Nat.mod_eq_of_lt hi]
  rw [canvas, hd, hm, hd', hm']

/-- A picture was drawn: `w` cells of `k` bytes in each of `n` rows, and nothing else. -/
def Drawn (h h' : Heap) (dst : Slice) (stride k w n : ℕ) (cell : ℕ → ℕ → List UInt8) : Prop :=
  Filled h h' dst.base (fun o => ∃ y < n, Row stride (k * w) y o) (canvas stride k cell)

theorem Drawn.read {h h' : Heap} {dst : Slice} {stride k w n : ℕ} {cell : ℕ → ℕ → List UInt8}
    (hd : Drawn h h' dst stride k w n cell) (hw : k * w ≤ stride) {x y i : ℕ} (hx : x < w)
    (hy : y < n) (hi : i < k) :
    h'.read dst.base (y * stride + k * x + i) = ((cell x y)[i]?).getD 0 := by
  rw [hd.hit _ ⟨y, hy, exists_cell_iff.mp ⟨x, hx, by omega, by omega⟩⟩, canvas_cell hw hx hi]

theorem Drawn.congr {h h' : Heap} {dst : Slice} {stride k w n : ℕ}
    {cell cell' : ℕ → ℕ → List UInt8} (hd : Drawn h h' dst stride k w n cell)
    (hw : k * w ≤ stride) (hc : ∀ y < n, ∀ x < w, cell x y = cell' x y) :
    Drawn h h' dst stride k w n cell' := by
  refine ⟨hd.next, hd.other, hd.size, ?_, hd.miss⟩
  rintro o ⟨y, hy, hr⟩
  obtain ⟨x, hx, h1, h2⟩ := exists_cell_iff.mpr hr
  obtain ⟨i, rfl⟩ := Nat.exists_eq_add_of_le h1
  rw [hd.read hw hx hy (by omega), hc y hy x hx, canvas_cell hw hx (by omega)]

theorem Drawn.cell_eq {h h' : Heap} {dst : Slice} {stride k w n : ℕ}
    {cell : ℕ → ℕ → List UInt8} (hd : Drawn h h' dst stride k w n cell) (hw : k * w ≤ stride)
    {x y : ℕ} (hx : x < w) (hy : y < n) (hlen : (cell x y).length = k) :
    ((List.range k).map fun i => h'.read dst.base (y * stride + k * x + i)) = cell x y := by
  refine List.ext_getElem (by simp [hlen]) fun i hi hi' => ?_
  rw [List.length_map, List.length_range] at hi
  simp [hd.read hw hx hy hi, hi']

/-- Drawing over a picture of the same shape. -/
theorem Drawn.trans {h h' h'' : Heap} {dst : Slice} {stride k w n : ℕ}
    {cell cell' : ℕ → ℕ → List UInt8} (hd : Drawn h h' dst stride k w n cell)
    (hd' : Drawn h' h'' dst stride k w n cell') : Drawn h h'' dst stride k w n cell' where
  next := hd'.next.trans hd.next
  other c hc := (hd'.other c hc).trans (hd.other c hc)
  size := hd'.size.trans hd.size
  hit := hd'.hit
  miss i hi := (hd'.miss i hi).trans (hd.miss i hi)

/-- What a cell may count on while the picture is drawn: nothing but earlier cells has
changed since `h`. -/
def Before (h h' : Heap) (dst : Slice) (stride k w x y : ℕ) (V : ℕ → UInt8) : Prop :=
  Filled h h' dst.base
    (fun o => (∃ j < y, Row stride (k * w) j o) ∨ ∃ j < x, Cell stride k j y o) V

/-- Two nested loops that store one cell a round draw the picture, when each round computes
its cell whatever the earlier ones stored. -/
theorem raster_drawn {h : Heap} {dst : Slice} {stride k w n : ℕ}
    {body : ℕ → ℕ → Heap → Option Heap} {cell : ℕ → ℕ → List UInt8} (hs : h.Live dst)
    (hw : k * w ≤ stride) (hfit : ∀ y < n, y * stride + k * w ≤ dst.len)
    (hlen : ∀ x y, (cell x y).length = k)
    (hbody : ∀ y < n, ∀ x < w, ∀ h', Before h h' dst stride k w x y (canvas stride k cell) →
      body y x h' = h'.store dst (y * stride + k * x) (cell x y)) :
    ∃ h', forUpTo n (fun y => forUpTo w (body y)) h = some h' ∧
      Drawn h h' dst stride k w n cell := by
  refine forUpTo_filled fun y hy h₁ hf₁ => ?_
  have hrow := hfit y hy
  have hcells : ∃ h₂, forUpTo w (body y) h₁ = some h₂ ∧
      Filled h₁ h₂ dst.base (fun o => ∃ x < w, Cell stride k x y o) (canvas stride k cell) := by
    refine forUpTo_filled fun x hx h₂ hf₂ => ?_
    have hcell : k * x + k ≤ k * w := by
      rw [← Nat.mul_succ]
      exact Nat.mul_le_mul_left k hx
    have hb := hbody y hy x hx h₂ (hf₁.trans hf₂)
    obtain ⟨h₃, he₃, hf₃⟩ := Heap.store_filled (V := canvas stride k cell)
      (hf₂.live (hf₁.live hs)) (show y * stride + k * x + (cell x y).length ≤ dst.len by
        rw [hlen]
        omega)
      fun i hi => by rw [canvas_cell hw hx (hlen x y ▸ hi), List.getElem?_eq_getElem hi]; rfl
    exact ⟨h₃, hb.trans he₃, hf₃.congr fun o => by rw [hlen]; exact Iff.rfl⟩
  obtain ⟨h₂, he, hf₂⟩ := hcells
  exact ⟨h₂, he, hf₂.congr fun o => exists_cell_iff⟩

/-- The source of a cell is still what it was: it lies in another block, or it is the place
of this very cell. -/
theorem Before.load_eq {h h' : Heap} {dst : Slice} {stride k w x y : ℕ} {V : ℕ → UInt8}
    (hb : Before h h' dst stride k w x y V) {src : Slice} (hs : h.Live src) {off m : ℕ}
    (hm : off + m ≤ src.len) (hw : k * w ≤ stride) (hx : x < w)
    (hd : src.base = dst.base → off = y * stride + k * x ∧ m = k) :
    h'.load src off m = some ((List.range m).map fun i => h.read src.base (off + i)) := by
  refine Filled.load_eq hb hs hm fun he i hi => ?_
  obtain ⟨rfl, rfl⟩ := hd he
  rintro (⟨j, hj, hr⟩ | ⟨j, hj, h1, h2⟩)
  · have hr' : Row stride (m * w) y (y * stride + m * x + i) :=
      exists_cell_iff.mp ⟨x, hx, by omega, by omega⟩
    have := row_unique hw hr hr'
    omega
  · have := Nat.mul_le_mul_left m (Nat.succ_le_of_lt hj)
    rw [Nat.mul_succ] at this
    omega

end Memory
