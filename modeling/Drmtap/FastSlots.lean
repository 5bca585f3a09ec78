import Drmtap.Fast
import Drmtap.GrabOutcome

/-! What the slots of the fast path hold, and what the operations on them keep. -/
namespace Drmtap

open Memory Effect

/-! Windows -/

def Windowless (held : Multiset Resource) : Prop := ∀ fd, Resource.window fd ∉ held

/-- The open windows of `held` are windows of `rest`. -/
def WindowsIn (rest held : Multiset Resource) : Prop :=
  ∀ fd, Resource.window fd ∈ held → Resource.window fd ∈ rest

/-- Beside the windows of `rest`, access is begun when no window is open, and no descriptor is
closed under its window. -/
def WindowRule.paired (rest : Multiset Resource) : WindowRule where
  allows held
    | .dmabufSyncStart _ => WindowsIn rest held
    | .close fd => Resource.window fd ∈ held → Resource.window fd ∈ rest
    | _ => True
  others := by
    intro o ho held
    cases o <;> first | trivial | exact absurd trivial ho

/-- The rule allows every call while the open windows are those of `rest`. -/
def WindowRule.Allows (g : WindowRule) (rest : Multiset Resource) : Prop :=
  ∀ held, WindowsIn rest held → ∀ o, g.allows held o

theorem WindowRule.free_allows (rest : Multiset Resource) : WindowRule.free.Allows rest :=
  fun _ _ _ => trivial

theorem WindowRule.paired_allows (rest : Multiset Resource) :
    (WindowRule.paired rest).Allows rest := by
  intro held hin o
  cases o <;> first | trivial | exact hin | exact hin _

namespace WindowsIn
variable {rest a b : Multiset Resource}

theorem self (rest : Multiset Resource) : WindowsIn rest rest := fun _ h => h

theorem add (ha : WindowsIn rest a) (hb : WindowsIn rest b) : WindowsIn rest (a + b) := by
  intro fd h
  rcases Multiset.mem_add.mp h with h | h
  · exact ha fd h
  · exact hb fd h

theorem of_windowless (ha : Windowless a) : WindowsIn rest a := fun fd h => absurd h (ha fd)

end WindowsIn

theorem windowless_handleOf (h : UInt32) : Windowless (handleOf h) := by
  intro fd
  unfold handleOf
  split_ifs <;> simp

theorem windowless_fdOf (fd : ℤ) : Windowless (fdOf fd) := by
  intro fd'
  unfold fdOf
  split_ifs <;> simp

theorem WindowRule.Allows.add_fd {g : WindowRule} {rest : Multiset Resource} (h : g.Allows rest)
    (fd : ℤ) : g.Allows (fdOf fd + rest) := by
  intro held hin
  apply h held
  intro fd' hmem
  rcases Multiset.mem_add.mp (hin fd' hmem) with hfd | hrest
  · exact absurd hfd (windowless_fdOf fd fd')
  · exact hrest

theorem windowless_mappingOf (s : Option Slice) : Windowless (mappingOf s) := by
  intro fd
  unfold mappingOf
  split_ifs <;> simp

theorem Windowless.add {a b : Multiset Resource} (ha : Windowless a) (hb : Windowless b) :
    Windowless (a + b) := by
  intro fd h
  rcases Multiset.mem_add.mp h with h | h
  · exact ha fd h
  · exact hb fd h

/-! Slots -/

namespace FastSlot

/-- What a slot holds. -/
def owned (slot : FastSlot) : Multiset Resource :=
  handleOf slot.gemHandle +
    (fdOf slot.primeFd + (mappingOf slot.mmapPtr + windowOf slot.syncStarted slot.primeFd))

/-- A slot in use, with the whole of its buffer mapped. -/
structure Cached (slot : FastSlot) (m : Machine) : Prop where
  fbId : slot.fbId ≠ 0
  handle : slot.gemHandle ≠ 0
  fd : 0 ≤ slot.primeFd
  mapped : ∃ b, slot.mmapPtr = some b ∧ m.heap.Whole b ∧ m.Private b.base ∧
    b.len = slot.mmapSize
  bounded : Bounded slot.width.toNat slot.height.toNat slot.stride.toNat
  size : slot.mmapSize = slot.stride.toNat * slot.height.toNat

/-- A slot is in use or empty. -/
def Valid (slot : FastSlot) (m : Machine) : Prop := slot = .empty ∨ slot.Cached m

def withWindow (slot : FastSlot) (started : Bool) : FastSlot := { slot with syncStarted := started }

theorem owned_empty : FastSlot.empty.owned = 0 := by
  simp [owned, empty, handleOf, fdOf, mappingOf, windowOf]

theorem owned_withWindow (slot : FastSlot) (started : Bool) :
    (slot.withWindow started).owned =
      windowOf started slot.primeFd + (slot.withWindow false).owned := by
  simp only [owned, withWindow, windowOf, Bool.false_eq_true, if_false, add_zero]
  abel

theorem windowless_owned {slot : FastSlot} (h : slot.syncStarted = false) :
    Windowless slot.owned := by
  unfold owned windowOf
  rw [h]
  refine (windowless_handleOf _).add ((windowless_fdOf _).add ((windowless_mappingOf _).add ?_))
  intro fd
  simp

section Valid
variable {slot : FastSlot} {m m' : Machine}

theorem Cached.withWindow (h : slot.Cached m) (started : Bool) :
    (slot.withWindow started).Cached m :=
  ⟨h.fbId, h.handle, h.fd, h.mapped, h.bounded, h.size⟩

theorem Valid.closed (h : slot.Valid m) : (slot.withWindow false).Valid m := by
  rcases h with rfl | h
  · exact .inl rfl
  · exact .inr (h.withWindow false)

theorem Valid.cached (h : slot.Valid m) (h0 : slot.fbId ≠ 0) : slot.Cached m := by
  rcases h with rfl | h
  · exact absurd rfl h0
  · exact h

theorem Valid.fd (h : slot.Valid m) (hs : slot.syncStarted = true) : 0 ≤ slot.primeFd := by
  rcases h with rfl | h
  · cases hs
  · exact h.fd

theorem Valid.base_lt (h : slot.Valid m) {b : Slice} (hb : slot.mmapPtr = some b) :
    b.base < m.heap.next := by
  rcases h with rfl | h
  · cases hb
  · obtain ⟨b', hb', hw, -⟩ := h.mapped
    obtain rfl := Option.some.inj (hb.symm.trans hb')
    exact hw.live.lt_next

/-- A slot is kept by whatever keeps its block. -/
theorem Valid.of_block (h : slot.Valid m) (hkeep : ∀ b, slot.mmapPtr = some b →
      m.heap.Whole b → m.Private b.base → m'.heap.Whole b ∧ m'.Private b.base) :
    slot.Valid m' := by
  rcases h with rfl | h
  · exact .inl rfl
  · obtain ⟨b, hb, hw, hp, hl⟩ := h.mapped
    obtain ⟨hw', hp'⟩ := hkeep b hb hw hp
    exact .inr ⟨h.fbId, h.handle, h.fd, ⟨b, hb, hw', hp', hl⟩, h.bounded, h.size⟩

theorem Valid.of_ctx (h : slot.Valid m) {c : Ctx} (hc : SameBuffers m.ctx c) :
    slot.Valid { m with ctx := c } :=
  h.of_block fun b _ hw hp =>
    have hsame : ({ m with ctx := c } : Machine).Private b.base ↔ m.Private b.base := hc.isPrivate _
    ⟨hw, hsame.mpr hp⟩

end Valid

/-- Two slots are of different framebuffers, over different blocks, and one of them at most has
its window open. -/
structure Apart (a b : FastSlot) : Prop where
  fbId : a.fbId ≠ 0 → a.fbId ≠ b.fbId
  base : ∀ s t, a.mmapPtr = some s → b.mmapPtr = some t → s.base ≠ t.base
  window : a.syncStarted = true → b.syncStarted = false

theorem Apart.symm {a b : FastSlot} (h : a.Apart b) : b.Apart a where
  fbId h0 he := h.fbId (he ▸ h0) he.symm
  base s t hs ht := (h.base t s ht hs).symm
  window hb := by
    by_contra ha
    rw [h.window (by simpa using ha)] at hb
    cases hb

theorem Apart.empty (b : FastSlot) : FastSlot.empty.Apart b where
  fbId h := absurd rfl h
  base s t hs := by cases hs
  window h := by cases h

/-- A slot whose window is closed. -/
theorem Apart.closed {a b : FastSlot} (h : a.Apart b) : (a.withWindow false).Apart b :=
  ⟨h.fbId, h.base, fun h => by cases h⟩

end FastSlot

/-- One of the slots is replaced. -/
theorem pairwise_update {ι α : Type} [DecidableEq ι] {R : α → α → Prop}
    (hsymm : ∀ {a b}, R a b → R b a) {f : ι → α} (hf : ∀ i j, i ≠ j → R (f i) (f j)) {i : ι} {x : α}
    (hx : ∀ j, j ≠ i → R x (f j)) (j k : ι) (hjk : j ≠ k) :
    R (Function.update f i x j) (Function.update f i x k) := by
  by_cases hj : j = i
  · subst hj
    rw [Function.update_self, Function.update_of_ne hjk.symm]
    exact hx k hjk.symm
  · rw [Function.update_of_ne hj]
    by_cases hk : k = i
    · subst hk
      rw [Function.update_self]
      exact hsymm (hx j hjk)
    · rw [Function.update_of_ne hk]
      exact hf j k hjk

namespace Ctx

theorem setSlot_self (c : Ctx) (i : SlotId) (slot : FastSlot) :
    (c.setSlot i slot).fastSlots i = slot := Function.update_self _ _ _

theorem setSlot_of_ne (c : Ctx) {i j : SlotId} (h : j ≠ i) (slot : FastSlot) :
    (c.setSlot i slot).fastSlots j = c.fastSlots j := Function.update_of_ne h _ _

/-- What the fast path holds. -/
def owned (c : Ctx) : Multiset Resource := ∑ i, (c.fastSlots i).owned

def others (c : Ctx) (i : SlotId) : Multiset Resource :=
  ∑ j ∈ Finset.univ.erase i, (c.fastSlots j).owned

theorem owned_eq (c : Ctx) (i : SlotId) : c.owned = (c.fastSlots i).owned + c.others i :=
  (Finset.add_sum_erase _ _ (Finset.mem_univ i)).symm

theorem owned_setSlot (c : Ctx) (i : SlotId) (slot : FastSlot) :
    (c.setSlot i slot).owned = slot.owned + c.others i := by
  have hothers : (c.setSlot i slot).others i = c.others i := by
    refine Finset.sum_congr rfl fun j hj => ?_
    rw [setSlot_of_ne _ (Finset.ne_of_mem_erase hj)]
  rw [owned_eq _ i, hothers, setSlot_self]

theorem owned_eq_zero {c : Ctx} (h : ∀ i, c.fastSlots i = .empty) : c.owned = 0 :=
  Finset.sum_eq_zero fun i _ => by rw [h i, FastSlot.owned_empty]

theorem windowless_owned {c : Ctx} (h : ∀ i, (c.fastSlots i).syncStarted = false) :
    Windowless c.owned := by
  intro fd hfd
  obtain ⟨i, -, hi⟩ := Multiset.mem_sum.mp hfd
  exact FastSlot.windowless_owned (h i) fd hi

end Ctx

/-- The invariant of the fast path. -/
structure Machine.Fast (m : Machine) : Prop where
  ready : m.Ready
  slots : ∀ i, (m.ctx.fastSlots i).Valid m
  apart : ∀ i j, i ≠ j → (m.ctx.fastSlots i).Apart (m.ctx.fastSlots j)
  idle : m.ctx.fastInitialized = false → ∀ i, m.ctx.fastSlots i = .empty

/-- The windows of all slots are closed. -/
def Machine.Closed (m : Machine) : Prop := ∀ i, (m.ctx.fastSlots i).syncStarted = false

/-- The slots are as they were. -/
structure SameSlots (c c' : Ctx) : Prop where
  slots : c'.fastSlots = c.fastSlots
  initialized : c'.fastInitialized = c.fastInitialized

section Invariant
variable {m m' : Machine} {i : SlotId} {slot : FastSlot}

theorem Machine.Fast.of_same (hf : m.Fast) (hr : m'.Ready) (hs : SameSlots m.ctx m'.ctx)
    (hkeep : ∀ i b, (m.ctx.fastSlots i).mmapPtr = some b → m.heap.Whole b → m.Private b.base →
      m'.heap.Whole b ∧ m'.Private b.base) : m'.Fast where
  ready := hr
  slots i := by
    rw [hs.slots]
    exact (hf.slots i).of_block (hkeep i)
  apart := by
    rw [hs.slots]
    exact hf.apart
  idle := by
    rw [hs.slots, hs.initialized]
    exact hf.idle

theorem Machine.Fast.tunes (hf : m.Fast) (ht : Tunes m m') (hs : SameSlots m.ctx m'.ctx) :
    m'.Fast :=
  hf.of_same (ht.ready hf.ready) hs fun _ _ _ hw hp =>
    ⟨ht.heap ▸ hw, (ht.buffers.isPrivate _).mpr hp⟩

theorem Machine.Fast.converts (hf : m.Fast) (hc : Converts m m') : m'.Fast := by
  have hs : SameSlots m.ctx m'.ctx := by
    rw [hc.ctx]
    exact ⟨rfl, rfl⟩
  refine hf.of_same (hf.ready.converts hc) hs fun _ _ _ hw hp => ?_
  exact ⟨hw.congr (hc.keep _ hw.live.lt_next hp.1), hp.converts hc hw.live.lt_next⟩

theorem Machine.Fast.alloc (hf : m.Fast) (size : ℕ) (g : ℕ → UInt8) :
    ({ m with heap := (m.heap.alloc size g).2 } : Machine).Fast :=
  hf.of_same (hf.ready.alloc size g) ⟨rfl, rfl⟩ fun _ _ _ hw hp =>
    ⟨hw.congr (Heap.alloc_block_of_lt hw.live.lt_next _ _), hp⟩

theorem Machine.Fast.release (hf : m.Fast) {b : ℕ} (hb : m.Private b)
    (hne : ∀ i a, (m.ctx.fastSlots i).mmapPtr = some a → a.base ≠ b) :
    ({ m with heap := m.heap.release b } : Machine).Fast :=
  hf.of_same (hf.ready.release hb) ⟨rfl, rfl⟩ fun i a ha hw hp =>
    ⟨hw.congr (Heap.release_block (hne i a ha)), hp⟩

/-- Another slot in the place of one. -/
theorem Machine.Fast.setSlot (hf : m.Fast) (hv : slot.Valid m)
    (hapart : ∀ j, j ≠ i → slot.Apart (m.ctx.fastSlots j))
    (hidle : m.ctx.fastInitialized = false → slot = .empty) :
    ({ m with ctx := m.ctx.setSlot i slot } : Machine).Fast where
  ready := hf.ready.of_ctx ⟨rfl, rfl, rfl⟩ hf.ready.memo
  slots j := by
    refine FastSlot.Valid.of_ctx ?_ ⟨rfl, rfl, rfl⟩
    by_cases hj : j = i
    · subst hj
      rwa [Ctx.setSlot_self]
    · rw [Ctx.setSlot_of_ne _ hj]
      exact hf.slots j
  apart := pairwise_update (R := FastSlot.Apart) (f := m.ctx.fastSlots) (fun h => h.symm) hf.apart
    hapart
  idle h j := by
    by_cases hj : j = i
    · subst hj
      rw [Ctx.setSlot_self]
      exact hidle h
    · rw [Ctx.setSlot_of_ne _ hj]
      exact hf.idle h j

end Invariant

/-! Loops over the slots -/

theorem forSlots_wp {E : Env} {body : SlotId → M Unit}
    (I : List SlotId → Machine → E.State → Prop)
    (hbody : ∀ i rest m s, I (i :: rest) m s → Cmd.wp E (body i) (fun _ m' s' => I rest m' s') m s)
    {l : List SlotId} {m : Machine} {s : E.State} (h : I l m s) :
    Cmd.wp E (forSlots body l) (fun _ m' s' => I [] m' s') m s := by
  induction l generalizing m s with
  | nil => exact h
  | cons i rest ih =>
    rw [forSlots, Cmd.wp_bind]
    exact Cmd.wp_mono (hbody i rest m s h) fun _ _ _ h' => ih h'

/-- The slots differ in their windows at most. -/
structure SetsWindows (m m' : Machine) : Prop where
  heap : m'.heap = m.heap
  ctx : m'.ctx = { m.ctx with fastSlots := m'.ctx.fastSlots }
  slots : ∀ i, m'.ctx.fastSlots i =
    (m.ctx.fastSlots i).withWindow (m'.ctx.fastSlots i).syncStarted

namespace SetsWindows
variable {m m' m'' : Machine}

theorem refl (m : Machine) : SetsWindows m m := ⟨rfl, rfl, fun _ => rfl⟩

theorem trans (h₁ : SetsWindows m m') (h₂ : SetsWindows m' m'') : SetsWindows m m'' where
  heap := h₂.heap.trans h₁.heap
  ctx := by rw [h₂.ctx, h₁.ctx]
  slots i := by
    rw [h₂.slots i, h₁.slots i]
    rfl

theorem setSlot (m : Machine) (i : SlotId) (started : Bool) : SetsWindows m
    { m with ctx := m.ctx.setSlot i ((m.ctx.fastSlots i).withWindow started) } where
  heap := rfl
  ctx := rfl
  slots j := by
    by_cases hj : j = i
    · subst hj
      rw [Ctx.setSlot_self]
      rfl
    · rw [Ctx.setSlot_of_ne _ hj]
      rfl

theorem sockets (h : SetsWindows m m') : m'.sockets = m.sockets := by
  unfold Machine.sockets
  rw [h.ctx]

theorem fbId (h : SetsWindows m m') (i : SlotId) :
    (m'.ctx.fastSlots i).fbId = (m.ctx.fastSlots i).fbId := by rw [h.slots i]; rfl

end SetsWindows

section Operations
variable {egl : Prop} {g : WindowRule} {m : Machine} {rest R held : Multiset Resource}

theorem closeWindow_lib (hf : m.Fast) (i : SlotId) (hh : held = m.ctx.owned + R) :
    Cmd.wp (libEnv egl g) (closeWindow i) (fun _ m' held' => m'.Fast ∧ SetsWindows m m' ∧
      (m'.ctx.fastSlots i).syncStarted = false ∧
      (∀ j, (m.ctx.fastSlots j).syncStarted = false → (m'.ctx.fastSlots j).syncStarted = false) ∧
      held' = m'.ctx.owned + R) m held := by
  have hset : ({ m with ctx := m.ctx.setSlot i ((m.ctx.fastSlots i).withWindow false) } :
      Machine).Fast := by
    refine hf.setSlot (hf.slots i).closed (fun j hj => (hf.apart i j hj.symm).closed) fun h => ?_
    rw [hf.idle h i]
    rfl
  have hclosed (j : SlotId) (hj : (m.ctx.fastSlots j).syncStarted = false) :
      ((m.ctx.setSlot i ((m.ctx.fastSlots i).withWindow false)).fastSlots j).syncStarted =
        false := by
    by_cases hji : j = i
    · subst hji
      rw [Ctx.setSlot_self]
      rfl
    · rwa [Ctx.setSlot_of_ne _ hji]
  have hself : ((m.ctx.setSlot i ((m.ctx.fastSlots i).withWindow false)).fastSlots i).syncStarted =
      false := by
    rw [Ctx.setSlot_self]
    rfl
  have howned : m.ctx.owned = windowOf (m.ctx.fastSlots i).syncStarted (m.ctx.fastSlots i).primeFd +
      (m.ctx.setSlot i ((m.ctx.fastSlots i).withWindow false)).owned := by
    rw [Ctx.owned_eq _ i, Ctx.owned_setSlot, ← add_assoc, ← FastSlot.owned_withWindow]
    rfl
  unfold closeWindow getSlot Drmtap.setSlot
  simp only [Cmd.wp_bind, wp_getCtx, Cmd.wp_pure, Cmd.wp_ite, wp_modifyCtx]
  constructor
  · rintro ⟨hs, -⟩
    have hheld : held = {.window (m.ctx.fastSlots i).primeFd} +
        ((m.ctx.setSlot i ((m.ctx.fastSlots i).withWindow false)).owned + R) := by
      rw [hh, howned, hs, add_assoc]
      rfl
    exact lib_give rfl (fun _ => rfl) (g.others _ id _) hheld fun _ =>
      ⟨hset, .setSlot m i false, hself, hclosed, rfl⟩
  · intro hno
    refine ⟨hset, .setSlot m i false, hself, hclosed, ?_⟩
    have hs : (m.ctx.fastSlots i).syncStarted = false := by
      by_contra h
      have h' : (m.ctx.fastSlots i).syncStarted = true := by simpa using h
      exact hno ⟨h', (hf.slots i).fd h'⟩
    rw [hh, howned, hs, windowOf, if_neg (by simp), zero_add]
    rfl

theorem fastSyncClose_lib (hf : m.Fast) (hh : held = m.ctx.owned + R) :
    Cmd.wp (libEnv egl g) fastSyncClose (fun _ m' held' => m'.Fast ∧ SetsWindows m m' ∧
      m'.Closed ∧ held' = m'.ctx.owned + R) m held := by
  refine Cmd.wp_mono (forSlots_wp (fun l m' held' => m'.Fast ∧ SetsWindows m m' ∧
    (∀ i, i ∉ l → (m'.ctx.fastSlots i).syncStarted = false) ∧ held' = m'.ctx.owned + R) ?_
    ⟨hf, .refl m, ?_, hh⟩) ?_
  · rintro i l m₁ held₁ ⟨hf₁, hs₁, hc₁, hh₁⟩
    refine Cmd.wp_mono (closeWindow_lib hf₁ i hh₁) ?_
    rintro _ m₂ held₂ ⟨hf₂, hs₂, hself, hkeep, hh₂⟩
    refine ⟨hf₂, hs₁.trans hs₂, fun j hj => ?_, hh₂⟩
    by_cases hji : j = i
    · rw [hji]
      exact hself
    · exact hkeep j (hc₁ j (by simp [hj, hji]))
  · intro i hi
    exact absurd (List.mem_finRange i) hi
  · rintro _ m' held' ⟨hf', hs', hc', hh'⟩
    exact ⟨hf', hs', fun i => hc' i (by simp), hh'⟩

/-- A slot in use gets a window of its own. -/
theorem fastSyncBegin_lib (hf : m.Fast) (hg : g.Allows rest) (hR : WindowsIn rest R) {i : SlotId}
    (hi : (m.ctx.fastSlots i).fbId ≠ 0) (hh : held = m.ctx.owned + R) :
    Cmd.wp (libEnv egl g) (fastSyncBegin i) (fun _ m' held' => m'.Fast ∧ SetsWindows m m' ∧
      held' = m'.ctx.owned + R) m held := by
  unfold fastSyncBegin getSlot Drmtap.setSlot
  simp only [Cmd.wp_bind, wp_getCtx, Cmd.wp_pure, Cmd.wp_ite, wp_modifyCtx]
  refine Cmd.wp_mono (fastSyncClose_lib hf hh) ?_
  rintro _ m₁ _ ⟨hf₁, hs₁, hc₁, rfl⟩
  have hcached := (hf₁.slots i).cached (by rwa [hs₁.fbId i])
  refine ⟨fun hfd => ?_, fun _ => ⟨hf₁, hs₁, rfl⟩⟩
  have hin : WindowsIn rest (m₁.ctx.owned + R) :=
    (WindowsIn.of_windowless (Ctx.windowless_owned hc₁)).add hR
  refine lib_take rfl (hg _ hin _) fun started _ => ?_
  refine ⟨?_, hs₁.trans (.setSlot m₁ i started), ?_⟩
  · refine hf₁.setSlot (.inr (hcached.withWindow started)) (fun j hj => ?_) fun h => ?_
    · have hij := hf₁.apart i j hj.symm
      exact ⟨hij.fbId, hij.base, fun _ => hc₁ j⟩
    · exact absurd (congrArg FastSlot.fbId (hf₁.idle h i)) hcached.fbId
  · have hself : (m₁.ctx.fastSlots i).withWindow false = m₁.ctx.fastSlots i := by
      rw [FastSlot.withWindow, ← hc₁ i]
    change _ = (m₁.ctx.setSlot i ((m₁.ctx.fastSlots i).withWindow started)).owned + R
    rw [takes_syncStart, Ctx.owned_eq _ i, Ctx.owned_setSlot, FastSlot.owned_withWindow, hself]
    abel

/-- The mapping of a slot, on its way out. -/
theorem unmapSlot_lib (hf : m.Fast) (i : SlotId)
    (hh : held = mappingOf (m.ctx.fastSlots i).mmapPtr + R) :
    Cmd.wp (libEnv egl g) (unmapSlot (m.ctx.fastSlots i)) (fun _ m' held' => m'.ctx = m.ctx ∧
      ({ m' with ctx := m.ctx.setSlot i .empty } : Machine).Fast ∧ held' = R) m held := by
  have hset : ({ m with ctx := m.ctx.setSlot i .empty } : Machine).Fast :=
    hf.setSlot (.inl rfl) (fun _ _ => .empty _) fun _ => rfl
  unfold unmapSlot
  rcases hf.slots i with he | hc
  · rw [he] at hh ⊢
    refine ⟨rfl, hset, ?_⟩
    rw [hh]
    exact zero_add R
  · obtain ⟨b, hb, hw, hp, hl⟩ := hc.mapped
    rw [hb] at hh ⊢
    have hslice : (⟨b.base, (m.ctx.fastSlots i).mmapSize⟩ : Slice) = b := by rw [← hl]
    simp only [hslice]
    refine lib_munmap hw hh ⟨rfl, hset.release hp fun j a ha => ?_, rfl⟩
    by_cases hj : j = i
    · subst hj
      rw [Ctx.setSlot_self] at ha
      cases ha
    · rw [Ctx.setSlot_of_ne _ hj] at ha
      exact (hf.apart j i hj).base a b ha hb

theorem dropSlot_lib (hf : m.Fast) (hc : m.Closed) (hg : g.Allows rest) (hR : WindowsIn rest R)
    (i : SlotId) (hh : held = m.ctx.owned + R) :
    Cmd.wp (libEnv egl g) (dropSlot i) (fun _ m' held' => m'.Fast ∧
      m'.ctx = m.ctx.setSlot i .empty ∧ held' = m'.ctx.owned + R) m held := by
  have hothers : (m.ctx.setSlot i .empty).owned = m.ctx.others i := by
    rw [Ctx.owned_setSlot, FastSlot.owned_empty, zero_add]
  have hwin : Windowless (m.ctx.others i) := fun fd h =>
    Ctx.windowless_owned hc fd (by rw [Ctx.owned_eq _ i]; exact Multiset.mem_add.mpr (.inr h))
  unfold dropSlot getSlot Drmtap.setSlot
  simp only [Cmd.wp_bind, wp_getCtx, Cmd.wp_pure]
  refine Cmd.wp_mono (unmapSlot_lib (R := fdOf (m.ctx.fastSlots i).primeFd +
    (handleOf (m.ctx.fastSlots i).gemHandle + (m.ctx.others i + R))) hf i ?_) ?_
  · rw [hh, Ctx.owned_eq _ i, FastSlot.owned, windowOf, if_neg (by simp [hc i])]
    abel
  · rintro _ m₁ _ ⟨hctx, hset, rfl⟩
    have hin : WindowsIn rest (m.ctx.others i + R) := (WindowsIn.of_windowless hwin).add hR
    refine closeFd_lib (fun _ => hg _ ?_ _) rfl (drmtapGemClose_spec rfl ?_)
    · exact (WindowsIn.of_windowless (windowless_fdOf _)).add
        ((WindowsIn.of_windowless (windowless_handleOf _)).add hin)
    · rw [wp_modifyCtx, hctx]
      exact ⟨hset, rfl, by rw [hothers]⟩

/-- All slots are given back. -/
theorem drmtapFastCleanup_lib (hf : m.Fast) (hg : g.Allows rest) (hR : WindowsIn rest R)
    (hh : held = m.ctx.owned + R) :
    Cmd.wp (libEnv egl g) drmtapFastCleanup (fun _ m' held' => m'.Fast ∧
      m'.ctx = ({ m.ctx with fastSlots := fun _ => .empty } : Ctx).resetFast ∧ held' = R)
      m held := by
  unfold drmtapFastCleanup
  simp only [Cmd.wp_bind]
  refine Cmd.wp_mono (fastSyncClose_lib hf hh) ?_
  rintro _ m₁ held₁ ⟨hf₁, hs₁, hc₁, hh₁⟩
  refine Cmd.wp_mono (forSlots_wp (fun l m' held' => m'.Fast ∧ m'.Closed ∧
    m'.ctx = { m.ctx with fastSlots := m'.ctx.fastSlots } ∧
    (∀ i, i ∉ l → m'.ctx.fastSlots i = .empty) ∧ held' = m'.ctx.owned + R) ?_
    ⟨hf₁, hc₁, hs₁.ctx, ?_, hh₁⟩) ?_
  · rintro i l m₂ held₂ ⟨hf₂, hc₂, hctx, he₂, hh₂⟩
    refine Cmd.wp_mono (dropSlot_lib hf₂ hc₂ hg hR i hh₂) ?_
    rintro _ m₃ held₃ ⟨hf₃, hctx₃, hh₃⟩
    have hslot (j : SlotId) : m₃.ctx.fastSlots j =
        if j = i then .empty else m₂.ctx.fastSlots j := by
      rw [hctx₃]
      split_ifs with hj
      · rw [hj, Ctx.setSlot_self]
      · rw [Ctx.setSlot_of_ne _ hj]
    refine ⟨hf₃, fun j => ?_, ?_, fun j hj => ?_, hh₃⟩
    · rw [hslot j]
      split_ifs
      · rfl
      · exact hc₂ j
    · rw [hctx₃, hctx]
      rfl
    · rw [hslot j]
      split_ifs with hji
      · rfl
      · exact he₂ j (by simp [hj, hji])
  · intro i hi
    exact absurd (List.mem_finRange i) hi
  · rintro _ m₂ held₂ ⟨hf₂, -, hctx, he, hh₂⟩
    have hempty (i : SlotId) : m₂.ctx.fastSlots i = .empty := he i (by simp)
    have hslots : m₂.ctx.fastSlots = fun _ => .empty := funext hempty
    rw [wp_modifyCtx]
    refine ⟨⟨?_, ?_, hf₂.apart, fun _ => hempty⟩, ?_, ?_⟩
    · exact hf₂.ready.of_ctx ⟨rfl, rfl, rfl⟩ hf₂.ready.memo
    · exact fun i => (hf₂.slots i).of_ctx ⟨rfl, rfl, rfl⟩
    · rw [hctx, hslots]
    · rw [hh₂, Ctx.owned_eq_zero hempty, zero_add]

/-- A slot for a framebuffer: the one that has it, or an empty one. -/
structure Allocated (fbId : UInt32) (m : Machine) (i : SlotId) (m' : Machine) : Prop where
  fast : m'.Fast
  closed : m'.Closed
  ctx : m'.ctx = { m.ctx with fastSlots := m'.ctx.fastSlots }
  kept : ∀ j, m'.ctx.fastSlots j = m.ctx.fastSlots j ∨ m'.ctx.fastSlots j = .empty
  slot : (m'.ctx.fastSlots i).fbId = fbId ∨
    (m'.ctx.fastSlots i = .empty ∧ ∀ j, (m'.ctx.fastSlots j).fbId ≠ fbId)

theorem Ctx.findSlot_eq_some {c : Ctx} {p : FastSlot → Bool} {i : SlotId}
    (h : c.findSlot p = some i) : p (c.fastSlots i) = true :=
  List.find?_some (p := fun i => p (c.fastSlots i)) h

theorem Ctx.findSlot_eq_none {c : Ctx} {p : FastSlot → Bool} (h : c.findSlot p = none)
    (i : SlotId) : p (c.fastSlots i) = false := by
  have := List.find?_eq_none.mp h i (List.mem_finRange i)
  simpa using this

theorem findOrAllocSlot_lib (hf : m.Fast) (hc : m.Closed) (hg : g.Allows rest)
    (hR : WindowsIn rest R) {fbId : UInt32} (h0 : fbId ≠ 0) (hh : held = m.ctx.owned + R) :
    Cmd.wp (libEnv egl g) (findOrAllocSlot fbId)
      (fun i m' held' => Allocated fbId m i m' ∧ held' = m'.ctx.owned + R) m held := by
  unfold findOrAllocSlot
  simp only [Cmd.wp_bind, wp_getCtx]
  cases hfind : m.ctx.findSlot fun slot => slot.fbId = fbId with
  | some i =>
    have hi := Ctx.findSlot_eq_some hfind
    exact ⟨⟨hf, hc, rfl, fun _ => .inl rfl, .inl (by simpa using hi)⟩, hh⟩
  | none =>
    have hnot (j : SlotId) : (m.ctx.fastSlots j).fbId ≠ fbId := by
      simpa using Ctx.findSlot_eq_none hfind j
    cases hfree : m.ctx.findSlot fun slot => slot.fbId = 0 with
    | some i =>
      have hi : (m.ctx.fastSlots i).fbId = 0 := by simpa using Ctx.findSlot_eq_some hfree
      have he : m.ctx.fastSlots i = .empty :=
        (hf.slots i).resolve_right fun h => h.fbId hi
      exact ⟨⟨hf, hc, rfl, fun _ => .inl rfl, .inr ⟨he, hnot⟩⟩, hh⟩
    | none =>
      unfold evictSlot getSlot Drmtap.setSlot
      simp only [Cmd.wp_bind, wp_getCtx, Cmd.wp_pure, Cmd.wp_ite]
      refine ⟨fun hs => absurd hs.1 (by simp [hc 0]), fun _ => ?_⟩
      refine Cmd.wp_mono (dropSlot_lib hf hc hg hR 0 hh) ?_
      rintro _ m' held' ⟨hf', hctx, hh'⟩
      have hself : m'.ctx.fastSlots 0 = .empty := by rw [hctx, Ctx.setSlot_self]
      have hkept (j : SlotId) :
          m'.ctx.fastSlots j = m.ctx.fastSlots j ∨ m'.ctx.fastSlots j = .empty := by
        by_cases hj : j = 0
        · exact .inr (hj ▸ hself)
        · exact .inl (by rw [hctx, Ctx.setSlot_of_ne _ hj])
      refine ⟨⟨hf', fun j => ?_, by rw [hctx]; rfl, hkept, .inr ⟨hself, fun j => ?_⟩⟩, hh'⟩
      · rcases hkept j with h | h
        · rw [h]
          exact hc j
        · rw [h]
          rfl
      · rcases hkept j with h | h
        · rw [h]
          exact hnot j
        · rw [h]
          exact h0.symm

end Operations

end Drmtap
