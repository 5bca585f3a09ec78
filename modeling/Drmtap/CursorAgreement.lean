import Drmtap.CursorHidden

/-! The cursor that a privileged process reads, and the one that its helper would tell it of. -/
namespace Drmtap

open Memory Effect

/-- The buffer behind a framebuffer, and what can be done with it. A framebuffer has a size. -/
structure CursorBuffer where
  width : UInt32
  height : UInt32
  stride : UInt32
  byte : ℕ → UInt8
  exports : Bool
  maps : Bool
  wide : width ≠ 0
  high : height ≠ 0

/-- It is small, and can be mapped. -/
def CursorBuffer.Readable (b : CursorBuffer) : Prop :=
  (b.width ≤ 256 ∧ b.height ≤ 256 ∧ b.stride ≠ 0 ∧ b.width * 4 ≤ b.stride) ∧
    b.exports = true ∧ b.maps = true

/-- Its rows, packed. -/
def CursorBuffer.rows (b : CursorBuffer) : List UInt8 :=
  packedRows b.byte b.width.toNat b.height.toNat b.stride.toNat

/-- The description of a buffer, with a handle to it. -/
def Fb2.Shows (f : Fb2) (b : CursorBuffer) : Prop :=
  f.width = b.width ∧ f.height = b.height ∧ f.pitches 0 = b.stride ∧ f.handles 0 ≠ 0

/-- The cursors of a device whose state is stable. A framebuffer without a buffer is retired, and a
plane that is bound to a CRTC has a framebuffer. The properties in `atomicOnly` are listed to those
who asked for the atomic ones; the type of a plane and the hotspot are not among them. -/
structure CursorBoard where
  planes : List UInt32
  crtc : UInt32 → UInt32
  fb : UInt32 → UInt32
  props : UInt32 → List (UInt32 × UInt64)
  name : UInt32 → Option String
  atomicOnly : UInt32 → Bool
  buffer : UInt32 → Option CursorBuffer
  ids : ∀ id ∈ planes, id ≠ 0
  attached : ∀ id ∈ planes, crtc id ≠ 0 → fb id ≠ 0
  plain : ∀ p s, name p = some s → s ∈ ["type", "HOTSPOT_X", "HOTSPOT_Y"] → atomicOnly p = false

/-- How a process sees the device: whether it asked for the atomic properties, and what its
handles and descriptors stand for. -/
structure CursorView where
  atomic : Bool
  handle : UInt32 → CursorBuffer
  descriptor : ℤ → CursorBuffer

/-- The rows that the helper packs are those of its mapping. -/
theorem packCursor_rows {mapped : Slice} {size width height stride : ℕ} {byte : ℕ → UInt8}
    {h : Heap} {packed : List UInt8} (hmapped : h.block mapped.base = some ⟨size, byte⟩)
    (hpack : packCursor mapped width height stride h = some packed) :
    packed = packedRows byte width height stride := by
  have hrows (rows : List ℕ) : ∀ start packed, rows.foldlM (fun packed y =>
      (h.load mapped (y * stride) (width * 4)).map (packed ++ ·)) start = some packed →
      packed = start ++ rows.flatMap fun y =>
        (List.range (width * 4)).map fun i => byte (y * stride + i) := by
    induction rows with
    | nil =>
      intro start packed hfold
      cases hfold
      simp
    | cons y rows ih =>
      intro start packed hfold
      rw [List.foldlM_cons] at hfold
      obtain ⟨next, hrow, hrest⟩ := Option.bind_eq_some_iff.mp hfold
      obtain ⟨row, hload, hnext⟩ := Option.map_eq_some_iff.mp hrow
      have hval : row = (List.range (width * 4)).map fun i => byte (y * stride + i) := by
        rw [Heap.load_eq (Heap.load_live hload) (Heap.load_isSome hload).1] at hload
        rw [← Option.some.inj hload]
        simp [Heap.read, hmapped]
      rw [ih _ _ hrest, ← hnext, hval]
      simp
  exact (hrows _ _ _ hpack).trans (List.nil_append _)

/-- A visible cursor at this place. -/
def CursorPlacement.info (p : CursorPlacement) : CursorInfo :=
  { CursorInfo.ofWire p.wire true with visible := true }

namespace CursorBoard
variable (d : CursorBoard) (v : CursorView)

def plane (id : UInt32) : Plane := ⟨id, d.crtc id, d.fb id⟩

/-- The properties of a plane that are listed. -/
def listed (id : UInt32) : List (UInt32 × UInt64) :=
  (d.props id).filter fun p => v.atomic || !d.atomicOnly p.1

def Allows : (o : Op) → Ans o → Prop
  | .getPlaneResources, r => r = .ok d.planes
  | .getPlane id, r => r = some (d.plane id)
  | .objectGetProperties id .plane, r => r = some (d.listed v id)
  | .getProperty p, r => r = d.name p
  | .getFB2 id, (r : Except Errno Fb2) =>
    match d.buffer id with
    | none => ∃ e : Errno, r = .error e ∧ (e.code : ℤ) ≠ EACCES ∧ (e.code : ℤ) ≠ EPERM
    | some b => ∃ f, r = .ok f ∧ f.Shows b ∧ v.handle (f.handles 0) = b
  | .primeHandleToFD h, (r : Except Errno ℕ) =>
    if (v.handle h).exports = true then ∃ fd, r = .ok fd ∧ v.descriptor fd = v.handle h
    else ∃ e, r = .error e
  | .mmap (.fd fd) _ off, (r : Except Errno (ℕ → UInt8)) =>
    if (v.descriptor fd).maps = true then r = .ok fun i => (v.descriptor fd).byte (off + i)
    else ∃ e, r = .error e
  | .malloc _, r => ∃ g, r = some g
  | _, _ => True

abbrev env : Env := .only (fun _ => True) (d.Allows v)

/-- The value of a property that is listed. -/
def value (id : UInt32) (name : String) : Option UInt64 :=
  ((d.listed v id).find? fun p => d.name p.1 = some name).map (·.2)

def isCursor (id : UInt32) : Bool := d.value v id "type" = some drmPlaneTypeCursor

/-- The first cursor plane of a CRTC. -/
def shown (crtc : UInt32) : Option UInt32 :=
  d.planes.find? fun id => d.crtc id = crtc && d.isCursor v id

/-- Where a plane is, as far as its properties are listed. -/
def placement (id : UInt32) : CursorPlacement where
  x := .ofUInt32 ((d.value v id "CRTC_X").getD 0).toUInt32
  y := .ofUInt32 ((d.value v id "CRTC_Y").getD 0).toUInt32
  hotX := .ofUInt32 ((d.value v id "HOTSPOT_X").getD 0).toUInt32
  hotY := .ofUInt32 ((d.value v id "HOTSPOT_Y").getD 0).toUInt32
  hotFromProperty := wireHotMeasured (d.value v id "HOTSPOT_X").isSome
    (d.value v id "HOTSPOT_Y").isSome

/-! What does not depend on who looks -/

section Views
variable {d : CursorBoard}

theorem value_plain (v w : CursorView) (id : UInt32) {name : String}
    (hname : name ∈ ["type", "HOTSPOT_X", "HOTSPOT_Y"]) :
    d.value v id name = d.value w id name := by
  have hall (v : CursorView) : d.value v id name =
      ((d.props id).find? fun p => d.name p.1 = some name).map (·.2) := by
    unfold value listed
    rw [List.find?_filter]
    congr 2
    funext p
    by_cases hp : d.name p.1 = some name
    · simp [hp, d.plain p.1 name hp hname]
    · simp [hp]
  rw [hall v, hall w]

theorem shown_plain (v w : CursorView) (crtc : UInt32) : d.shown v crtc = d.shown w crtc := by
  unfold shown isCursor
  congr 1
  funext id
  rw [d.value_plain v w id (by simp)]

theorem value_same {v w : CursorView} (h : v.atomic = w.atomic) (id : UInt32) (name : String) :
    d.value v id name = d.value w id name := by
  unfold value listed
  rw [h]

/-- A property that only the atomic ones see is not there for the others. -/
theorem value_hidden {v : CursorView} (hv : v.atomic = false) (id : UInt32) {name : String}
    (hname : ∀ p, d.name p = some name → d.atomicOnly p = true) : d.value v id name = none := by
  unfold value listed
  rw [Option.map_eq_none_iff, List.find?_eq_none]
  intro p hp hsome
  have hlisted := (List.mem_filter.mp hp).2
  have honly := hname p.1 (by simpa using hsome)
  simp [hv, honly] at hlisted

/-- The cursor plane of a CRTC has a framebuffer. -/
theorem shown_fb {v : CursorView} {crtc id : UInt32} (hcrtc : crtc ≠ 0)
    (h : d.shown v crtc = some id) : id ≠ 0 ∧ d.crtc id = crtc ∧ d.fb id ≠ 0 := by
  have hmem := List.mem_of_find?_eq_some h
  have hid : d.crtc id = crtc ∧ d.isCursor v id = true := by
    simpa using List.find?_some h
  exact ⟨d.ids id hmem, hid.1, d.attached id hmem (hid.1 ▸ hcrtc)⟩

end Views

/-! What both read -/

section Read
variable {d : CursorBoard} {v : CursorView} {S : Type} {st : S} {crtc : UInt32}

theorem board_call {o : Op} {Q : Ans o → S → Unit → Prop} (h : ∀ r, d.Allows v o r → Q r st ()) :
    Cmd.wlp (d.env v) (sys o) Q st () := by
  rw [Cmd.wlp_call]
  refine ⟨trivial, ?_⟩
  intro r s' hs
  exact h r hs.2

/-- A routine that yields a value and leaves all as it is. -/
theorem board_bind {α β : Type} {cmd : Cmd S Op Ans α} {f : α → Cmd S Op Ans β} {a : α}
    {Q : β → S → Unit → Prop}
    (hcmd : Cmd.wlp (d.env v) cmd (fun r st' _ => r = a ∧ st' = st) st ())
    (hf : Cmd.wlp (d.env v) (f a) Q st ()) : Cmd.wlp (d.env v) (cmd >>= f) Q st () := by
  rw [Cmd.wlp_bind]
  apply Cmd.wlp_mono hcmd
  intro r st' _ h
  obtain ⟨hr, hst⟩ := h
  subst hr hst
  exact hf

theorem board_getPlaneResources : Cmd.wlp (d.env v) (sys .getPlaneResources)
    (fun r st' _ => r = .ok d.planes ∧ st' = st) st () :=
  board_call fun _ hr => ⟨hr, rfl⟩

theorem board_getPlane (id : UInt32) : Cmd.wlp (d.env v) (sys (.getPlane id))
    (fun r st' _ => r = some (d.plane id) ∧ st' = st) st () :=
  board_call fun _ hr => ⟨hr, rfl⟩

theorem findProp_finds (name : String) (props : List (UInt32 × UInt64)) :
    Cmd.wlp (d.env v) (findProp name props) (fun r st' _ =>
      r = (props.find? fun p => d.name p.1 = some name).map (·.2) ∧ st' = st) st () := by
  induction props with
  | nil => exact ⟨rfl, rfl⟩
  | cons p props ih =>
    unfold findProp
    rw [Cmd.wlp_bind]
    apply board_call
    intro r hr
    have hr : r = d.name p.1 := hr
    subst hr
    cases hn : d.name p.1 with
    | none =>
      simp only [List.find?_cons, hn, reduceCtorEq, decide_false]
      exact ih
    | some n =>
      dsimp only
      rw [Cmd.wlp_ite]
      constructor
      · intro he
        simp [hn, he]
      · intro hne
        simp only [List.find?_cons, hn, Option.some.injEq, hne, decide_false]
        exact ih

theorem getPropValFound_finds (id : UInt32) (name : String) :
    Cmd.wlp (d.env v) (getPropValFound id .plane name) (fun r st' _ =>
      r = ((d.value v id name).getD 0, (d.value v id name).isSome) ∧ st' = st) st () := by
  unfold getPropValFound
  rw [Cmd.wlp_bind]
  apply board_call
  intro r hr
  have hr : r = some (d.listed v id) := hr
  subst hr
  dsimp only
  apply board_bind (findProp_finds name (d.listed v id))
  unfold value
  cases (d.listed v id).find? fun p => d.name p.1 = some name <;> exact ⟨rfl, rfl⟩

theorem getPropVal_finds (id : UInt32) (name : String) :
    Cmd.wlp (d.env v) (getPropVal id .plane name) (fun r st' _ =>
      r = (d.value v id name).getD 0 ∧ st' = st) st () := by
  unfold getPropVal
  apply board_bind (getPropValFound_finds id name)
  exact ⟨rfl, rfl⟩

/-- An export, which succeeds or fails for the buffer. -/
theorem board_export {handle : UInt32} {Q : Except Errno ℕ → S → Unit → Prop}
    (hok : (v.handle handle).exports = true → ∀ fd : ℕ, v.descriptor fd = v.handle handle →
      Q (.ok fd) st ())
    (herr : (v.handle handle).exports ≠ true → ∀ e, Q (.error e) st ()) :
    Cmd.wlp (d.env v) (sys (.primeHandleToFD handle)) Q st () := by
  apply board_call
  intro r hr
  have hr : if (v.handle handle).exports = true then
      ∃ fd : ℕ, r = .ok fd ∧ v.descriptor fd = v.handle handle else ∃ e, r = .error e := hr
  split at hr
  next hexports =>
    obtain ⟨fd, hr, hfd⟩ := hr
    subst hr
    exact hok hexports fd hfd
  next hno =>
    obtain ⟨e, hr⟩ := hr
    subst hr
    exact herr hno e

/-- What becomes of a framebuffer that is asked for. -/
theorem board_getFB2 {id : UInt32} {Q : Except Errno Fb2 → S → Unit → Prop}
    (hnone : d.buffer id = none → ∀ e : Errno, (e.code : ℤ) ≠ EACCES → (e.code : ℤ) ≠ EPERM →
      Q (.error e) st ())
    (hsome : ∀ b f, d.buffer id = some b → f.Shows b → v.handle (f.handles 0) = b →
      Q (.ok f) st ()) : Cmd.wlp (d.env v) (sys (.getFB2 id)) Q st () := by
  apply board_call
  intro r hr
  have hr : match d.buffer id with
    | none => ∃ e : Errno, r = .error e ∧ (e.code : ℤ) ≠ EACCES ∧ (e.code : ℤ) ≠ EPERM
    | some b => ∃ f, r = .ok f ∧ f.Shows b ∧ v.handle (f.handles 0) = b := hr
  cases hb : d.buffer id with
  | none =>
    rw [hb] at hr
    obtain ⟨e, hr, hacces, hperm⟩ := hr
    subst hr
    exact hnone hb e hacces hperm
  | some b =>
    rw [hb] at hr
    obtain ⟨f, hr, hf, hhandle⟩ := hr
    subst hr
    exact hsome b f hb hf hhandle

section Mapped
variable [HasHeap S]

/-- A mapping from the start, which succeeds or fails for the buffer. -/
theorem board_mmap {fd : ℤ} {size : ℕ} {Q : Except Errno Slice → S → Unit → Prop}
    (hok : (v.descriptor fd).maps = true →
      Q (.ok ((HasHeap.heap st).alloc size (v.descriptor fd).byte).1)
        (HasHeap.setHeap st ((HasHeap.heap st).alloc size (v.descriptor fd).byte).2) ())
    (herr : (v.descriptor fd).maps ≠ true → ∀ e, Q (.error e) st ()) :
    Cmd.wlp (d.env v) (mmap (.fd fd) size 0) Q st () := by
  have hdecide (r : Except Errno (ℕ → UInt8)) (hr : d.Allows v (.mmap (.fd fd) size 0) r) :
      if (v.descriptor fd).maps = true then r = .ok fun i => (v.descriptor fd).byte (0 + i)
      else ∃ e, r = .error e := hr
  rw [wlp_mmap]
  refine ⟨trivial, ?_, ?_⟩
  · intro e s' hs
    have hr := hdecide _ hs.2
    split at hr
    next => cases hr
    next hno => exact herr hno e
  · intro g s' hs
    have hr := hdecide _ hs.2
    split at hr
    next hmaps =>
      obtain rfl : g = (v.descriptor fd).byte := by
        rw [Except.ok.inj hr]
        funext i
        rw [Nat.zero_add]
      exact hok hmaps
    next =>
      obtain ⟨e, he⟩ := hr
      cases he

theorem board_munmap {mapped : Slice} {Q : Unit → S → Unit → Prop}
    (h : ∀ heap, (HasHeap.heap st).free mapped = some heap → Q () (HasHeap.setHeap st heap) ()) :
    Cmd.wlp (d.env v) (munmap mapped) Q st () := by
  rw [wlp_munmap]
  refine ⟨trivial, ?_⟩
  intro _ _ _ heap hfree
  exact h heap hfree

end Mapped

end Read

/-! The library -/

section Library
variable {d : CursorBoard} {v : CursorView} {m : Machine} {crtc : UInt32}

theorem planeTypeIsCursor_finds (id : UInt32) : Cmd.wlp (d.env v) (planeTypeIsCursor id)
    (fun r m' _ => r = d.isCursor v id ∧ m' = m) m () := by
  unfold planeTypeIsCursor
  apply board_bind (getPropValFound_finds id "type")
  refine ⟨?_, rfl⟩
  unfold isCursor
  cases d.value v id "type" <;> simp

theorem searchCursorPlane_finds (hcrtc : crtc ≠ 0) (ids : List UInt32) :
    Cmd.wlp (d.env v) (searchCursorPlane crtc ids) (fun r m' _ =>
      r = (ids.find? fun id => d.crtc id = crtc && d.isCursor v id).getD 0 ∧ m' = m) m () := by
  induction ids with
  | nil => exact ⟨rfl, rfl⟩
  | cons id ids ih =>
    unfold searchCursorPlane
    apply board_bind (board_getPlane id)
    dsimp only
    rw [Cmd.wlp_ite]
    simp only [hcrtc, ne_eq, not_false_eq_true, if_true]
    constructor
    · intro hbound
      have hbound : d.crtc id = crtc := hbound
      apply board_bind (planeTypeIsCursor_finds id)
      rw [Cmd.wlp_ite]
      constructor
      · intro hcursor
        simp [hbound, hcursor, plane]
      · intro hno
        simp only [List.find?_cons, hbound, hno, decide_true, Bool.and_false]
        exact ih
    · intro hno
      have hno : d.crtc id ≠ crtc := hno
      simp only [List.find?_cons, hno, decide_false, Bool.false_and]
      exact ih

theorem findCursorPlane_finds (hcrtc : m.ctx.crtcId ≠ 0) : Cmd.wlp (d.env v) findCursorPlane
    (fun r m' _ => r = (d.shown v m.ctx.crtcId).getD 0 ∧ m' = m) m () := by
  unfold findCursorPlane
  apply board_bind board_getPlaneResources
  dsimp only
  rw [Cmd.wlp_bind, wlp_getCtx]
  exact searchCursorPlane_finds hcrtc d.planes

/-- A copy of the rows of a mapping. -/
theorem copyCursor_rows {mapped : Slice} {size : ℕ} {byte : ℕ → UInt8} (f : Fb2)
    (hmapped : m.heap.block mapped.base = some ⟨size, byte⟩) :
    Cmd.wlp (d.env v) (copyCursor mapped f) (fun r m' _ => ∃ block, r = some block ∧
      block.base ≠ mapped.base ∧ m'.heap.load block 0 (f.width.toNat * f.height.toNat * 4) =
        some (packedRows byte f.width.toNat f.height.toNat (f.pitches 0).toNat)) m () := by
  unfold copyCursor
  rw [Cmd.wlp_bind, wlp_malloc]
  refine ⟨trivial, ?_, ?_⟩
  · intro s' hs
    obtain ⟨g, hg⟩ : ∃ g, (none : Option (ℕ → UInt8)) = some g := hs.2
    cases hg
  · intro g s' _
    rw [Cmd.wlp_bind, wlp_onHeap]
    intro _ heap hpack
    obtain ⟨heap', hpacked, heq⟩ := Option.map_eq_some_iff.mp hpack
    cases heq
    have hlt : mapped.base < m.heap.next :=
      Heap.Live.lt_next (s := ⟨mapped.base, 0⟩) ⟨_, hmapped, Nat.zero_le _⟩
    refine ⟨_, rfl, hlt.ne', ?_⟩
    exact (packRows_load hlt.ne (Heap.alloc_live _ _ _)
      ((Heap.alloc_block_of_lt hlt _ _).trans hmapped) hpacked).2

/-- The pixels of a framebuffer that is there. -/
theorem exportCursor_rows {b : CursorBuffer} {f : Fb2} (hf : f.Shows b)
    (hhandle : v.handle (f.handles 0) = b) : Cmd.wlp (d.env v) (exportCursor f) (fun r m' _ =>
      (¬ b.Readable ∧ r = none) ∨ (b.Readable ∧ ∃ block, r = some block ∧
        m'.heap.load block 0 (b.width.toNat * b.height.toNat * 4) = some b.rows)) m () := by
  obtain ⟨hw, hh, hs, hne⟩ := hf
  unfold exportCursor
  rw [if_pos hne, Cmd.wlp_bind]
  apply board_export
  · intro hexports fd hfd
    dsimp only
    rw [hhandle] at hexports hfd
    unfold mapAndReadCursor
    rw [Cmd.wlp_bind, Cmd.wlp_ite]
    constructor
    · intro hfits
      have hgeom : b.width ≤ 256 ∧ b.height ≤ 256 ∧ b.stride ≠ 0 ∧ b.width * 4 ≤ b.stride := by
        rw [← hw, ← hh, ← hs]
        exact hfits
      rw [Cmd.wlp_bind]
      apply board_mmap
      · intro hmaps
        rw [hfd] at hmaps ⊢
        dsimp only
        rw [Cmd.wlp_bind]
        unfold readMappedCursor
        rw [Cmd.wlp_bind]
        apply board_call
        intro started _
        rw [Cmd.wlp_bind]
        apply Cmd.wlp_mono (copyCursor_rows f (Heap.alloc_block _ _ _))
        intro pixels m₂ _ hcopied
        obtain ⟨block, hpixels, hbase, hload⟩ := hcopied
        subst hpixels
        -- the copy outlives the mapping
        have hend : Cmd.wlp (d.env v) (do
            munmap ((HasHeap.heap m).alloc ((f.pitches 0).toNat * f.height.toNat) b.byte).1
            pure (some block)) (fun r m' s' => Cmd.wlp (d.env v) (do
              sys (.close fd)
              pure r) (fun r m' _ => (¬ b.Readable ∧ r = none) ∨ (b.Readable ∧
                ∃ block, r = some block ∧ m'.heap.load block 0
                  (b.width.toNat * b.height.toNat * 4) = some b.rows)) m' s') m₂ () := by
          rw [Cmd.wlp_bind]
          apply board_munmap
          intro heap hfree
          rw [Cmd.wlp_pure, Cmd.wlp_bind]
          apply board_call
          intro _ _
          refine .inr ⟨⟨hgeom, hexports, hmaps⟩, block, rfl, ?_⟩
          rw [hw, hh, hs] at hload
          exact (Heap.load_free hfree hbase 0 _).trans hload
        rw [Cmd.wlp_ite]
        constructor
        · intro _
          rw [Cmd.wlp_bind]
          apply board_call
          intro _ _
          exact hend
        · intro _
          exact hend
      · intro hno e
        dsimp only
        rw [Cmd.wlp_pure, Cmd.wlp_bind]
        apply board_call
        intro _ _
        refine .inl ⟨?_, rfl⟩
        intro hread
        rw [hfd] at hno
        exact hno hread.2.2
    · intro hlarge
      rw [Cmd.wlp_pure, Cmd.wlp_bind]
      apply board_call
      intro _ _
      refine .inl ⟨?_, rfl⟩
      intro hread
      apply hlarge
      unfold CursorFits
      rw [hw, hh, hs]
      exact hread.1
  · intro hno e
    refine .inl ⟨?_, rfl⟩
    intro hread
    rw [hhandle] at hno
    exact hno hread.2.1

theorem readPlacement_finds (id : UInt32) : Cmd.wlp (d.env v) (readPlacement id)
    (fun r m' _ => r = (d.placement v id).info ∧ m' = m) m () := by
  unfold readPlacement
  apply board_bind (getPropValFound_finds id "CRTC_X")
  dsimp only
  apply board_bind (getPropValFound_finds id "CRTC_Y")
  dsimp only
  apply board_bind (getPropValFound_finds id "HOTSPOT_X")
  dsimp only
  apply board_bind (getPropValFound_finds id "HOTSPOT_Y")
  exact ⟨rfl, rfl⟩

/-- What the library reads of the cursor of a CRTC. -/
def Shown (d : CursorBoard) (v : CursorView) (crtc : UInt32) (m : Machine) (c : CursorInfo) :
    Prop :=
  match d.shown v crtc with
  | none => c = CursorInfo.cleared.setHotProvenance false
  | some id =>
    match d.buffer (d.fb id) with
    | none => c = (d.placement v id).info
    | some b =>
      (¬ b.Readable ∧ c = { (d.placement v id).info with width := b.width, height := b.height }) ∨
        (b.Readable ∧ ∃ block,
          c = { (d.placement v id).info with
            width := b.width, height := b.height, pixels := some block } ∧
          m.heap.load block 0 (b.width.toNat * b.height.toNat * 4) = some b.rows)

theorem getCursorDirect_shows (hcrtc : m.ctx.crtcId ≠ 0) : Cmd.wlp (d.env v) getCursorDirect
    (fun r m' _ => r.1 = 0 ∧ Shown d v m.ctx.crtcId m' r.2) m () := by
  unfold getCursorDirect
  apply board_bind (findCursorPlane_finds hcrtc)
  cases hshown : d.shown v m.ctx.crtcId with
  | none => exact ⟨rfl, by simp only [Shown, hshown]⟩
  | some id =>
    obtain ⟨hid, -, hfb⟩ := shown_fb hcrtc hshown
    rw [Cmd.wlp_ite]
    refine ⟨fun h0 => absurd h0 hid, fun _ => ?_⟩
    apply board_bind (board_getPlane id)
    dsimp only
    rw [Cmd.wlp_ite]
    refine ⟨fun h0 => absurd h0 hfb, fun _ => ?_⟩
    apply board_bind (readPlacement_finds id)
    unfold readCursorFb
    rw [Cmd.wlp_bind]
    apply board_getFB2
    · intro hb e hacces hperm
      have hno : drmtapCursorNeedsHelper false e.code false = false := by
        simp [drmtapCursorNeedsHelper, hacces, hperm]
      dsimp only
      rw [Cmd.wlp_ite]
      refine ⟨fun h => absurd h (by simp [hno]), fun _ => ?_⟩
      have hb : d.buffer (d.fb id) = none := hb
      refine ⟨rfl, ?_⟩
      simp only [Shown, hshown, hb]
      rfl
    · intro b f hb hf hhandle
      dsimp only
      rw [Cmd.wlp_bind]
      apply Cmd.wlp_mono (exportCursor_rows hf hhandle)
      intro pixels m₃ _ hpixels
      have hend (m₃ : Machine) (hpixels : (¬ b.Readable ∧ pixels = none) ∨ (b.Readable ∧
          ∃ block, pixels = some block ∧
            m₃.heap.load block 0 (b.width.toNat * b.height.toNat * 4) = some b.rows)) :
          Cmd.wlp (d.env v)
            (if pixels.isNone && drmtapCursorNeedsHelper true 0 (f.handles 0 ≠ 0) then
              drmtapHelperGetCursor
            else pure (0, { (d.placement v id).info with
              width := f.width, height := f.height, pixels := pixels }))
            (fun r m' _ => r.1 = 0 ∧ Shown d v m.ctx.crtcId m' r.2) m₃ () := by
        rw [Cmd.wlp_ite]
        refine ⟨fun h => absurd h (by simp [drmtapCursorNeedsHelper, hf.2.2.2]), fun _ => ?_⟩
        refine ⟨rfl, ?_⟩
        have hb : d.buffer (d.fb id) = some b := hb
        simp only [Shown, hshown, hb]
        rw [hf.1, hf.2.1]
        rcases hpixels with ⟨hno, hnone⟩ | ⟨hread, block, hsome, hload⟩
        · subst hnone
          exact .inl ⟨hno, rfl⟩
        · subst hsome
          exact .inr ⟨hread, block, rfl, hload⟩
      rw [Cmd.wlp_bind]
      unfold drmtapGemClose
      rw [Cmd.wlp_ite]
      refine ⟨fun _ => hend m₃ hpixels, fun _ => ?_⟩
      apply board_call
      intro _ _
      exact hend m₃ hpixels

end Library

/-! The helper -/

section Helper
variable {d : CursorBoard} {v : CursorView} {p : Helper} {crtc : UInt32}

theorem matchCursor_finds (hcrtc : crtc ≠ 0) (ids : List UInt32)
    (hids : ∀ id ∈ ids, d.crtc id ≠ 0 → d.fb id ≠ 0) :
    Cmd.wlp (d.env v) (matchCursor crtc ids) (fun r p' _ =>
      r = ((ids.find? fun id => d.crtc id = crtc && d.isCursor v id).elim (0, 0) fun id =>
        (d.fb id, id)) ∧ p' = p) p () := by
  induction ids with
  | nil => exact ⟨rfl, rfl⟩
  | cons id ids ih =>
    have hrest := ih fun x hx => hids x (List.mem_cons_of_mem _ hx)
    unfold matchCursor
    apply board_bind (board_getPlane id)
    dsimp only
    rw [Cmd.wlp_ite]
    constructor
    · intro hbound
      have hbound : d.crtc id = crtc := hbound.2.resolve_left hcrtc
      apply board_bind (getPropVal_finds id "type")
      have hcursor : (d.value v id "type").getD 0 = drmPlaneTypeCursor ↔
          d.isCursor v id = true := by
        unfold isCursor
        cases d.value v id "type" with
        | none => simp [drmPlaneTypeCursor]
        | some t => simp
      rw [Cmd.wlp_ite]
      constructor
      · intro htype
        simp [hbound, hcursor.mp htype, plane]
      · intro hno
        have hno : d.isCursor v id = false := by simpa using mt hcursor.mpr hno
        simp only [List.find?_cons, hbound, hno, decide_true, Bool.and_false]
        exact hrest
    · intro hno
      have hno : d.crtc id ≠ crtc := by
        intro he
        have hfb : d.fb id ≠ 0 := hids id List.mem_cons_self (he ▸ hcrtc)
        exact hno ⟨hfb, .inr he⟩
      simp only [List.find?_cons, hno, decide_false, Bool.false_and]
      exact hrest

theorem lookPlacement_finds (id : UInt32) : Cmd.wlp (d.env v) (lookPlacement id)
    (fun r p' _ => r = d.placement v id ∧ p' = p) p () := by
  unfold lookPlacement
  apply board_bind (getPropVal_finds id "CRTC_X")
  apply board_bind (getPropVal_finds id "CRTC_Y")
  apply board_bind (getPropValFound_finds id "HOTSPOT_X")
  dsimp only
  apply board_bind (getPropValFound_finds id "HOTSPOT_Y")
  exact ⟨rfl, rfl⟩

theorem gemClose_then {handle : UInt32} {Q : Unit → Helper → Unit → Prop} (h : Q () p ()) :
    Cmd.wlp (d.env v) (helperGemClose handle) Q p () := by
  unfold helperGemClose
  rw [Cmd.wlp_ite]
  refine ⟨fun _ => h, fun _ => ?_⟩
  apply board_call
  intro _ _
  exact h

theorem readCursor_rows {mapped : Slice} {size : ℕ} {byte : ℕ → UInt8} (fd : ℕ) (f : Fb2)
    (hmapped : p.heap.block mapped.base = some ⟨size, byte⟩) :
    Cmd.wlp (d.env v) (readCursor mapped fd f) (fun r _ _ =>
      r = packedRows byte f.width.toNat f.height.toNat (f.pitches 0).toNat) p () := by
  unfold readCursor
  rw [Cmd.wlp_bind]
  apply board_call
  intro started _
  rw [Cmd.wlp_bind, wlp_onHeap]
  intro pixels heap hpack
  obtain ⟨packed, hpacked, heq⟩ := Option.map_eq_some_iff.mp hpack
  cases heq
  have hrows := packCursor_rows hmapped hpacked
  rw [Cmd.wlp_ite]
  constructor
  · intro _
    rw [Cmd.wlp_bind]
    apply board_call
    intro _ _
    exact hrows
  · intro _
    exact hrows

/-- The look at a framebuffer that is there. -/
theorem lookFb_finds {b : CursorBuffer} {f : Fb2} {placement : CursorPlacement} (hf : f.Shows b)
    (hhandle : v.handle (f.handles 0) = b) : Cmd.wlp (d.env v) (lookFb placement f) (fun r _ _ =>
      (¬ b.Readable ∧ r = .unmapped placement f) ∨
        (b.Readable ∧ ∃ fits, r = .read placement f b.rows fits)) p () := by
  obtain ⟨hw, hh, hs, hne⟩ := hf
  have hgiveUp (hno : ¬ b.Readable) (p : Helper) : Cmd.wlp (d.env v) (do
      helperGemClose (f.handles 0)
      pure (CursorLook.unmapped placement f)) (fun r _ _ =>
        (¬ b.Readable ∧ r = .unmapped placement f) ∨
          (b.Readable ∧ ∃ fits, r = .read placement f b.rows fits)) p () := by
    rw [Cmd.wlp_bind]
    apply gemClose_then
    exact .inl ⟨hno, rfl⟩
  unfold lookFb
  split
  next hbad =>
    apply hgiveUp
    intro hread
    apply hbad
    rw [hw, hh, hs]
    exact hread.1
  next hfits =>
    have hgeom : b.width ≤ 256 ∧ b.height ≤ 256 ∧ b.stride ≠ 0 ∧ b.width * 4 ≤ b.stride := by
      rw [← hw, ← hh, ← hs]
      exact not_not.mp hfits
    unfold mapCursor
    rw [Cmd.wlp_bind, Cmd.wlp_bind]
    apply board_export
    · intro hexports fd hfd
      dsimp only
      rw [Cmd.wlp_bind]
      apply board_mmap
      · intro hmaps
        rw [hhandle] at hfd hexports
        rw [hfd] at hmaps ⊢
        apply Cmd.wlp_pure.mpr
        dsimp only
        rw [Cmd.wlp_bind]
        apply Cmd.wlp_mono (readCursor_rows fd f (Heap.alloc_block _ _ _))
        intro pixels p₁ _ hpixels
        rw [Cmd.wlp_bind]
        apply board_munmap
        intro heap _
        rw [Cmd.wlp_bind]
        apply board_call
        intro _ _
        rw [Cmd.wlp_bind]
        apply gemClose_then
        refine .inr ⟨⟨hgeom, hexports, hmaps⟩, hfits, ?_⟩
        rw [hpixels, hw, hh, hs]
        rfl
      · intro hno e
        dsimp only
        rw [Cmd.wlp_bind]
        apply board_call
        intro _ _
        apply Cmd.wlp_pure.mpr
        apply hgiveUp
        intro hread
        rw [hfd, hhandle] at hno
        exact hno hread.2.2
    · intro hno e
      apply Cmd.wlp_pure.mpr
      apply hgiveUp
      intro hread
      rw [hhandle] at hno
      exact hno hread.2.1

/-- What the helper sees of the cursor of a CRTC. -/
inductive Seen (d : CursorBoard) (v : CursorView) (crtc : UInt32) : CursorLook → Prop
  | absent (h : d.shown v crtc = none) : Seen d v crtc .absent
  | retired (id : UInt32) (h : d.shown v crtc = some id) (hb : d.buffer (d.fb id) = none) :
      Seen d v crtc (.unread (d.placement v id))
  | unmapped (id : UInt32) (b : CursorBuffer) (f : Fb2) (h : d.shown v crtc = some id)
      (hb : d.buffer (d.fb id) = some b) (hf : f.Shows b) (hno : ¬ b.Readable) :
      Seen d v crtc (.unmapped (d.placement v id) f)
  | read (id : UInt32) (b : CursorBuffer) (f : Fb2) (h : d.shown v crtc = some id)
      (hb : d.buffer (d.fb id) = some b) (hf : f.Shows b) (hread : b.Readable)
      (fits : ¬ badCursor f) : Seen d v crtc (.read (d.placement v id) f b.rows fits)

theorem lookCursor_sees (hcrtc : crtc ≠ 0) :
    Cmd.wlp (d.env v) (lookCursor crtc) (fun r _ _ => Seen d v crtc r) p () := by
  unfold lookCursor
  apply board_bind board_getPlaneResources
  dsimp only
  apply board_bind (matchCursor_finds hcrtc d.planes d.attached)
  show Cmd.wlp (d.env v) _ _ _ _
  cases hshown : d.shown v crtc with
  | none =>
    have hfind : d.planes.find? (fun id => d.crtc id = crtc && d.isCursor v id) = none := hshown
    rw [hfind]
    exact Seen.absent hshown
  | some id =>
    have hfind : d.planes.find? (fun id => d.crtc id = crtc && d.isCursor v id) = some id := hshown
    rw [hfind]
    rw [Cmd.wlp_ite]
    refine ⟨fun h0 => absurd h0 (shown_fb hcrtc hshown).2.2, fun _ => ?_⟩
    apply board_bind (lookPlacement_finds id)
    rw [Cmd.wlp_bind]
    apply board_getFB2
    · intro hb e _ _
      exact Seen.retired id hshown hb
    · intro b f hb hf hhandle
      dsimp only
      rw [if_neg hf.2.2.2]
      apply Cmd.wlp_mono (lookFb_finds hf hhandle)
      intro look _ _ hlook
      rcases hlook with ⟨hno, hlook⟩ | ⟨hread, fits, hlook⟩
      · subst hlook
        exact Seen.unmapped id b f hshown hb hf hno
      · subst hlook
        exact Seen.read id b f hshown hb hf hread fits

end Helper

end CursorBoard

/-! The client of the helper -/

/-- The last command was about this CRTC, and nothing was left over before it. -/
def Connection.Asked (answers : HelperAnswers) (crtc : UInt32) (extended : Bool)
    (s : Connection) : Prop :=
  ∃ n, s.question = some ⟨crtc, extended, [], answers n crtc extended⟩

/-- What the reception of a reply calls. -/
def ReceiveOp : Op → Prop
  | .recv _ _ | .malloc _ | .free _ => True
  | _ => False

def SameCrtc (m m' : Machine) : Prop := m'.ctx.crtcId = m.ctx.crtcId

instance : IsPreorder Machine SameCrtc where
  refl _ := rfl
  trans _ _ _ h h' := h'.trans h

section Client
variable {answers : HelperAnswers} {m : Machine} {s : Connection} {fd : ℤ} {α : Type}

theorem connected_call {o : Op} {Q : Ans o → Machine → Connection → Prop}
    (h : ∀ r, Q r m (s.note answers o r)) : Cmd.wlp (connectedEnv answers) (sys o) Q m s := by
  rw [Cmd.wlp_call]
  refine ⟨trivial, ?_⟩
  intro r s' hs
  obtain ⟨hs, -⟩ := hs
  subst hs
  exact h r

theorem moves_onHeap (f : Heap → Option (α × Heap)) :
    Cmd.Moves ReceiveOp SameCrtc (onHeap f : M α) := by
  intro m
  rw [wlp_onHeap]
  intro a h _
  exact rfl

theorem moves_malloc (size : ℕ) : Cmd.Moves ReceiveOp SameCrtc (malloc size : M _) := by
  apply Cmd.Moves.bind (.call trivial)
  intro r
  cases r with
  | none => exact .pure _
  | some g => exact moves_onHeap _

theorem moves_free (block : Slice) : Cmd.Moves ReceiveOp SameCrtc (free block : M _) :=
  .bind (.call trivial) fun _ => moves_onHeap _

theorem moves_wireRecvAll (len : ℕ) : Cmd.Moves ReceiveOp SameCrtc (wireRecvAll fd len : M _) := by
  apply Cmd.Moves.of_reads (wireRecvAll_reads fd len)
  intro o ho
  cases o <;> first
    | exact ho.elim
    | trivial

theorem moves_drainCursor (size : ℕ) : Cmd.Moves ReceiveOp SameCrtc (drainCursor fd size) := by
  apply Cmd.Moves.loop
  intro rem
  apply Cmd.Moves.ite (.pure _)
  apply Cmd.Moves.bind (.call trivial)
  intro r
  cases r with
  | error e => exact .pure _
  | ok got => exact .ite (.pure _) (.pure _)

theorem moves_receiveCursor (extended : Bool) (w : CursorWire) :
    Cmd.Moves ReceiveOp SameCrtc (receiveCursor fd extended w) := by
  have hknows (m : Machine) : SameCrtc m { m with ctx := m.ctx.knowsCursor2 extended } := by
    show (m.ctx.knowsCursor2 extended).crtcId = m.ctx.crtcId
    unfold Ctx.knowsCursor2
    split <;> rfl
  apply Cmd.Moves.bind (.modify hknows)
  intro _
  apply Cmd.Moves.ite _ (.pure _)
  apply Cmd.Moves.ite
  · exact .bind (moves_drainCursor _) fun _ => .pure _
  · apply Cmd.Moves.bind (moves_malloc _)
    intro r
    cases r with
    | none => exact .pure _
    | some pixels =>
      apply Cmd.Moves.bind (moves_wireRecvAll _)
      intro r
      cases r with
      | none => exact .bind (moves_free _) fun _ => .pure _
      | some bytes => exact .bind (moves_onHeap _) fun _ => .pure _

/-- The reception of a reply changes neither the question nor the CRTC. -/
theorem receives_keep {cmd : M α} (h : Cmd.Moves ReceiveOp SameCrtc cmd) :
    Cmd.wlp (connectedEnv answers) cmd (fun _ m' s' =>
      SameCrtc m m' ∧ s'.question = s.question) m s := by
  refine h.wlp_inv (E := connectedEnv answers) (I := fun t => t.question = s.question) ?_ m rfl
  intro t o ho ht
  refine ⟨trivial, ?_⟩
  intro r t' hstep
  obtain ⟨hstep, -⟩ := hstep
  subst hstep
  cases o <;> first
    | exact ho.elim
    | (cases r <;> exact ht)

theorem spawn_clean (h : s.stream = [] ∨ m.ctx.helperFd < 0) :
    Cmd.wlp (connectedEnv answers) drmtapHelperSpawn (fun r m' s' =>
      SameCrtc m m' ∧ (¬ r < 0 → s'.stream = [])) m s := by
  unfold drmtapHelperSpawn
  rw [Cmd.wlp_bind, wlp_getCtx, Cmd.wlp_ite]
  constructor
  · intro hfd
    exact ⟨rfl, fun _ => h.resolve_right (not_lt.mpr hfd)⟩
  · intro _
    rw [Cmd.wlp_bind]
    apply connected_call
    intro r
    cases r with
    | error e => exact ⟨rfl, fun hneg => absurd e.neg_lt_zero hneg⟩
    | ok x =>
      rw [Cmd.wlp_bind, wlp_modifyCtx]
      exact ⟨rfl, fun _ => rfl⟩

theorem stop_deaf : Cmd.wlp (connectedEnv answers) drmtapHelperStop (fun _ m' _ =>
    SameCrtc m m' ∧ m'.ctx.helperFd < 0) m s := by
  have hreap {m₁ : Machine} {s₁ : Connection} (hcrtc : SameCrtc m m₁) (hfd : m₁.ctx.helperFd < 0) :
      Cmd.wlp (connectedEnv answers) (if 0 < m.ctx.helperPid then do
          sys .helperReap
          modifyCtx Ctx.withoutHelperPid
        else pure ())
        (fun _ m' _ => SameCrtc m m' ∧ m'.ctx.helperFd < 0) m₁ s₁ := by
    rw [Cmd.wlp_ite]
    constructor
    · intro _
      rw [Cmd.wlp_bind]
      apply connected_call
      intro _
      rw [wlp_modifyCtx]
      exact ⟨hcrtc, hfd⟩
    · intro _
      exact ⟨hcrtc, hfd⟩
  unfold drmtapHelperStop
  rw [Cmd.wlp_bind, wlp_getCtx, Cmd.wlp_bind]
  unfold hangUp
  rw [Cmd.wlp_ite]
  constructor
  · intro _
    rw [Cmd.wlp_bind]
    apply connected_call
    intro _
    rw [Cmd.wlp_bind]
    apply connected_call
    intro _
    rw [wlp_modifyCtx]
    exact hreap rfl (show (-1 : ℤ) < 0 by decide)
  · intro hno
    exact hreap rfl (not_le.mp hno)

theorem trySend_asked {type : UInt16} {extended : Bool} (hs : s.stream = [])
    (hshape : CursorLog.shape type = some extended) :
    Cmd.wlp (connectedEnv answers) (trySend type) (fun sent m' s' =>
      m' = m ∧ (sent = true → s'.Asked answers m.ctx.crtcId extended)) m s := by
  have hdec : HelperCmd.decode (wireCmd type m.ctx.crtcId).encode = wireCmd type m.ctx.crtcId := by
    rw [← List.append_nil (HelperCmd.encode _), HelperCmd.decode_encode]
  unfold trySend
  rw [Cmd.wlp_bind, wlp_getCtx, Cmd.wlp_bind]
  apply connected_call
  intro r
  cases r with
  | error e => exact ⟨rfl, fun h => by cases h⟩
  | ok n =>
    refine ⟨rfl, fun hsent => ?_⟩
    have hn : n = sizeofHelperCmd := by simpa using hsent
    have hask : (s.ask answers (wireCmd type m.ctx.crtcId)).question =
        some ⟨m.ctx.crtcId, extended, s.stream, answers s.count m.ctx.crtcId extended⟩ := by
      unfold Connection.ask
      rw [show CursorLog.shape (wireCmd type m.ctx.crtcId).type = some extended from hshape]
      rfl
    refine ⟨s.count, ?_⟩
    show (s.peer answers (.send _ _) (.ok n)).question = _
    unfold Connection.peer
    dsimp only
    rw [if_pos hn, hdec, hask, hs]

theorem sendCommand_asked {type : UInt16} {extended : Bool} (hs : s.stream = [])
    (hshape : CursorLog.shape type = some extended) :
    Cmd.wlp (connectedEnv answers) (sendCommand type fun _ => - EIO) (fun ret m' s' =>
      SameCrtc m m' ∧ (¬ ret < 0 → s'.Asked answers m.ctx.crtcId extended)) m s := by
  have heio : (- EIO : ℤ) < 0 := by decide
  unfold sendCommand
  rw [Cmd.wlp_bind]
  apply Cmd.wlp_mono (spawn_clean (.inl hs))
  intro ret m₁ s₁ h
  obtain ⟨hcrtc, hclean⟩ := h
  rw [Cmd.wlp_ite]
  constructor
  · intro hneg
    exact ⟨hcrtc, fun hno => absurd hneg hno⟩
  intro hspawned
  unfold sendOrResend
  rw [Cmd.wlp_bind]
  apply Cmd.wlp_mono (trySend_asked (hclean hspawned) hshape)
  intro sent m₂ s₂ h
  obtain ⟨hm, hasked⟩ := h
  subst hm
  rw [Cmd.wlp_ite]
  constructor
  · intro hsent
    rw [show m₂.ctx.crtcId = m.ctx.crtcId from hcrtc] at hasked
    exact ⟨hcrtc, fun _ => hasked hsent⟩
  intro _
  unfold resend
  rw [Cmd.wlp_bind]
  apply Cmd.wlp_mono stop_deaf
  intro _ m₃ s₃ h
  obtain ⟨hcrtc₃, hfd⟩ := h
  rw [Cmd.wlp_bind]
  apply Cmd.wlp_mono (spawn_clean (.inr hfd))
  intro ret m₄ s₄ h
  obtain ⟨hcrtc₄, hclean⟩ := h
  have hsame : SameCrtc m m₄ := (hcrtc₄.trans hcrtc₃).trans hcrtc
  rw [Cmd.wlp_ite]
  constructor
  · intro _
    exact ⟨hsame, fun hno => absurd heio hno⟩
  intro hspawned
  rw [Cmd.wlp_bind]
  apply Cmd.wlp_mono (trySend_asked (hclean hspawned) hshape)
  intro sent m₅ s₅ h
  obtain ⟨hm, hasked⟩ := h
  subst hm
  rw [show m₅.ctx.crtcId = m.ctx.crtcId from hsame] at hasked
  refine ⟨hsame, fun hno => ?_⟩
  cases sent with
  | true => exact hasked rfl
  | false => exact absurd heio hno

theorem getCursorOnce_asked (hs : s.stream = []) :
    Cmd.wlp (connectedEnv answers) getCursorOnce (fun r m' s' => r.elim
      (fun _ => SameCrtc m m' ∧ s'.stream = [])
      fun r => r.1 = 0 → ∃ extended, s'.Asked answers m.ctx.crtcId extended) m s := by
  have heio : (- EIO : ℤ) ≠ 0 := by decide
  unfold getCursorOnce
  rw [Cmd.wlp_bind, wlp_getCtx, Cmd.wlp_bind]
  generalize (!m.ctx.helperNoCursor2) = extended
  have hshape : CursorLog.shape (if extended = true then cmdGetCursor2 else cmdGetCursor) =
      some extended := by
    cases extended <;> rfl
  apply Cmd.wlp_mono (sendCommand_asked hs hshape)
  intro ret m₁ s₁ h
  obtain ⟨hcrtc, hasked⟩ := h
  rw [Cmd.wlp_ite]
  constructor
  · intro hneg h0
    exact absurd h0 hneg.ne
  intro hsent
  have hasked := hasked hsent
  rw [Cmd.wlp_bind, wlp_getCtx, Cmd.wlp_bind]
  apply Cmd.wlp_mono (receives_keep (moves_wireRecvAll _))
  intro r m₂ s₂ h
  obtain ⟨hcrtc₂, hquestion⟩ := h
  cases r with
  | some bytes =>
    dsimp only
    rw [Cmd.wlp_bind]
    apply Cmd.wlp_mono (receives_keep (moves_receiveCursor _ _))
    intro r m₃ s₃ h
    obtain ⟨-, hquestion₃⟩ := h
    intro _
    obtain ⟨n, hn⟩ := hasked
    exact ⟨extended, n, (hquestion₃.trans hquestion).trans hn⟩
  | none =>
    dsimp only
    unfold cursorUnanswered
    rw [Cmd.wlp_bind, wlp_getCtx, Cmd.wlp_ite]
    constructor
    · intro _
      rw [Cmd.wlp_bind]
      apply Cmd.wlp_mono stop_deaf
      intro _ m₃ s₃ h
      obtain ⟨hcrtc₃, hfd⟩ := h
      rw [Cmd.wlp_bind]
      apply Cmd.wlp_mono (spawn_clean (.inr hfd))
      intro ret m₄ s₄ h
      obtain ⟨hcrtc₄, hclean⟩ := h
      rw [Cmd.wlp_ite]
      constructor
      · intro _ h0
        exact absurd h0 heio
      intro hspawned
      rw [Cmd.wlp_bind, wlp_modifyCtx]
      have hnoted : m₄.ctx.noteNoAnswer.crtcId = m₄.ctx.crtcId := by
        unfold Ctx.noteNoAnswer
        split <;> rfl
      exact ⟨hnoted.trans ((hcrtc₄.trans hcrtc₃).trans (hcrtc₂.trans hcrtc)), hclean hspawned⟩
    · intro _ h0
      exact absurd h0 heio

theorem helperGetCursor_asked (hs : s.stream = []) :
    Cmd.wlp (connectedEnv answers) drmtapHelperGetCursor (fun r _ s' =>
      r.1 = 0 → ∃ extended, s'.Asked answers m.ctx.crtcId extended) m s := by
  apply Cmd.wlp_loop fun _ m₁ (s₁ : Connection) => SameCrtc m m₁ ∧ s₁.stream = []
  · exact ⟨rfl, hs⟩
  intro _ m₁ s₁ h
  obtain ⟨hcrtc, hclean⟩ := h
  apply Cmd.wlp_mono (getCursorOnce_asked hclean)
  intro r m₂ s₂ h
  cases r with
  | inl u => exact ⟨h.1.trans hcrtc, h.2⟩
  | inr r =>
    rw [show m₁.ctx.crtcId = m.ctx.crtcId from hcrtc] at h
    exact h

end Client

/-! The two together -/

/-- What a client hears of a look. -/
def CursorLook.heard (look : CursorLook) (extended : Bool) : CursorWire :=
  { look.record with
    hotFromProperty := if extended = true then look.record.hotFromProperty else 0 }

theorem CursorLook.decode_record (look : CursorLook) (extended : Bool) :
    CursorWire.decode (look.record.encode extended) = look.heard extended := by
  cases extended with
  | true =>
    have h := CursorWire.decode_encode look.record []
    rw [List.append_nil] at h
    exact h
  | false => exact CursorWire.decode_encode_legacy look.record

section Told
variable {answers : HelperAnswers} {m k : Machine} {s' : Connection} {c : CursorInfo}
  {look : CursorLook} {l : CursorLog} {extended : Bool}

/-- What the client reports is what an answer says, if the answers come whole. -/
theorem helperGetCursor_tells
    (hr : Cmd.Runs (connectedEnv answers) drmtapHelperGetCursor m (.start []) (0, c) k s')
    (hintact : ∀ n extended, (answers n m.ctx.crtcId extended).Intact) :
    ∃ n extended, s'.log.record extended = (answers n m.ctx.crtcId extended).look.heard extended ∧
      s'.log.body extended <+: (answers n m.ctx.crtcId extended).look.pixels ∧
        Replied k s'.log extended c := by
  obtain ⟨extended, n, hq⟩ := Cmd.wlp_runs (helperGetCursor_asked rfl) hr rfl
  have hstart : (Connection.start []).Consistent := ⟨rfl, fun _ h => by cases h⟩
  obtain ⟨hlog, hsource⟩ := hstart.run hr
  obtain ⟨extended', hext, hlen, hreplied⟩ :=
    Cmd.wlp_runs drmtapHelperGetCursor_replied (connected_heard hr) rfl
  rw [hq] at hlog
  have hsame : extended' = extended := Option.some.inj (hext.symm.trans hlog)
  subst hsame
  have hsource := hsource _ hq
  obtain ⟨rest, hrest⟩ := hintact n extended'
  have hreply : s'.log.heard ++ (s'.stream ++ rest) =
      (answers n m.ctx.crtcId extended').look.record.encode extended' ++
        (answers n m.ctx.crtcId extended').look.pixels := by
    rw [← List.append_assoc, hsource, Question.source, List.nil_append]
    exact hrest
  have htake := congrArg (List.take (CursorWire.size extended')) hreply
  rw [List.take_append_of_le_length hlen, List.take_left' (CursorWire.encode_length _ _)] at htake
  have hdrop := congrArg (List.drop (CursorWire.size extended')) hreply
  rw [List.drop_append_of_le_length hlen, List.drop_left' (CursorWire.encode_length _ _)] at hdrop
  refine ⟨n, extended', ?_, ⟨_, hdrop⟩, hreplied⟩
  rw [CursorLog.record, htake, CursorLook.decode_record]

/-- A look without pixels. -/
theorem Replied.of_hidden (h : Replied k l extended c)
    (hrec : l.record extended = look.heard extended)
    (hhidden : look.record.visible = 0) : c = .ofWire (look.heard extended) extended := by
  have hzero : (l.record extended).visible = 0 := by
    rw [hrec]
    exact hhidden
  cases h with
  | bare _ => rw [hrec]
  | large hv _ => exact absurd hzero hv
  | pixels hs _ _ _ => exact absurd hzero hs.1

/-- A look with pixels. -/
theorem Replied.of_shown (h : Replied k l extended c)
    (hrec : l.record extended = look.heard extended)
    (hbody : l.body extended <+: look.pixels) (hvisible : look.record.visible ≠ 0)
    (hsize : look.record.dataSize.toNat = look.pixels.length) (hpos : 0 < look.pixels.length)
    (hsmall : look.pixels.length ≤ maxCursorBytes) : ∃ block,
      c = { CursorInfo.ofWire (look.heard extended) extended with pixels := some block } ∧
        k.heap.load block 0 look.pixels.length = some look.pixels := by
  have hdata : (l.record extended).dataSize.toNat = look.pixels.length := by
    rw [hrec]
    exact hsize
  cases h with
  | bare h =>
    rcases h with hv | hd
    · rw [hrec] at hv
      exact absurd hv hvisible
    · rw [hd] at hdata
      exact absurd hdata hpos.ne
  | large _ hbig => omega
  | pixels hs block hlen hload =>
    refine ⟨block, by rw [hrec], ?_⟩
    rw [hlen, hdata] at hload
    have hwhole : l.body extended = look.pixels :=
      hbody.eq_of_length (Heap.load_isSome hload).2
    rw [← hwhole] at hload ⊢
    exact hload

end Told

/-- The same picture: hotspot, size, and pixels. -/
structure CursorsMatch (c c' : CursorInfo) (m m' : Machine) : Prop where
  hotspot : c'.hotX = c.hotX ∧ c'.hotY = c.hotY
  measured : ∀ b, c'.hot = some b → c.hot = some b
  size : c'.width = c.width ∧ c'.height = c.height
  pixels : (c.pixels = none ∧ c'.pixels = none) ∨ ∃ block block' bytes,
    c.pixels = some block ∧ c'.pixels = some block' ∧
      bytes.length = c.width.toNat * c.height.toNat * 4 ∧
        m.heap.load block 0 bytes.length = some bytes ∧
          m'.heap.load block' 0 bytes.length = some bytes

namespace CursorBoard
variable {d : CursorBoard} {v w : CursorView} {crtc id : UInt32}

theorem placement_plain (d : CursorBoard) (v w : CursorView) (id : UInt32) :
    (d.placement w id).hotX = (d.placement v id).hotX ∧
      (d.placement w id).hotY = (d.placement v id).hotY ∧
        (d.placement w id).hotFromProperty = (d.placement v id).hotFromProperty := by
  unfold placement
  dsimp only
  rw [d.value_plain w v id (show "HOTSPOT_X" ∈ _ by simp),
    d.value_plain w v id (show "HOTSPOT_Y" ∈ _ by simp)]
  exact ⟨rfl, rfl, rfl⟩

theorem placement_same (h : v.atomic = w.atomic) (id : UInt32) :
    d.placement w id = d.placement v id := by
  unfold placement
  simp only [d.value_same h]

/-- The place that is told: that of the plane, as far as it is listed. -/
def Placed (d : CursorBoard) (v w : CursorView) (c c' : CursorInfo) : Prop :=
  (v.atomic = w.atomic → c'.x = c.x ∧ c'.y = c.y) ∧
    (w.atomic = false → (∀ p, d.name p = some "CRTC_X" → d.atomicOnly p = true) →
      (∀ p, d.name p = some "CRTC_Y" → d.atomicOnly p = true) → c'.x = 0 ∧ c'.y = 0)

theorem placed_of {c c' : CursorInfo} (hx : c.x = (d.placement v id).x)
    (hy : c.y = (d.placement v id).y) (hx' : c'.x = (d.placement w id).x)
    (hy' : c'.y = (d.placement w id).y) : d.Placed v w c c' := by
  constructor
  · intro hatomic
    rw [hx, hy, hx', hy', d.placement_same hatomic]
    exact ⟨rfl, rfl⟩
  · intro hw hX hY
    rw [hx', hy']
    unfold placement
    dsimp only
    rw [d.value_hidden hw id hX, d.value_hidden hw id hY]
    exact ⟨rfl, rfl⟩

/-- The cursor of the CRTC has a framebuffer that can be read. -/
def ReadableOn (d : CursorBoard) (v : CursorView) (crtc : UInt32) : Prop :=
  ∃ id b, d.shown v crtc = some id ∧ d.buffer (d.fb id) = some b ∧ b.Readable

theorem heard_measured (look : CursorLook) (extended : Bool) (b : Bool)
    (h : (CursorInfo.ofWire (look.heard extended) extended).hot = some b) :
    b = decide (look.record.hotFromProperty ≠ 0) := by
  cases extended with
  | true => exact (Option.some.inj h).symm
  | false => cases h

section Agreement
variable {k k' : Machine} {c c' : CursorInfo} {look : CursorLook} {l : CursorLog} {extended : Bool}

/-- Whatever the helper sees and the library reads, they tell the same of it. -/
theorem looks_agree (hseen : d.Seen w crtc look) (hshown : d.Shown v crtc k c)
    (hrec : l.record extended = look.heard extended) (hbody : l.body extended <+: look.pixels)
    (hreplied : Replied k' l extended c') : CursorsMatch c c' k k' ∧ d.Placed v w c c' ∧
      (c.visible = true ↔ d.shown v crtc ≠ none) ∧ (c'.visible = true ↔ d.ReadableOn v crtc) := by
  have hplain := d.shown_plain v w crtc
  cases hseen with
  | absent h =>
    rw [h] at hplain
    simp only [Shown, hplain] at hshown
    have hc' := hreplied.of_hidden hrec rfl
    subst hshown hc'
    refine ⟨⟨⟨rfl, rfl⟩, ?_, ⟨rfl, rfl⟩, .inl ⟨rfl, rfl⟩⟩,
      ⟨fun _ => ⟨rfl, rfl⟩, fun _ _ _ => ⟨rfl, rfl⟩⟩, ?_, ?_⟩
    · intro b hb
      rw [heard_measured _ _ _ hb]
      rfl
    · simp [hplain, CursorInfo.setHotProvenance, CursorInfo.cleared]
    · simp [ReadableOn, hplain, CursorInfo.ofWire, CursorLook.heard, CursorLook.record,
        CursorWire.zero]
  | retired id h hnone =>
    rw [h] at hplain
    simp only [Shown, hplain, hnone] at hshown
    have hc' := hreplied.of_hidden hrec rfl
    subst hshown hc'
    obtain ⟨hotX, hotY, hot⟩ := d.placement_plain v w id
    refine ⟨⟨⟨hotX, hotY⟩, ?_, ⟨rfl, rfl⟩, .inl ⟨rfl, rfl⟩⟩, placed_of rfl rfl rfl rfl, ?_, ?_⟩
    · intro b hb
      rw [heard_measured _ _ _ hb]
      exact congrArg (fun n => some (decide (n ≠ 0))) hot.symm
    · simp [hplain, CursorPlacement.info]
    · simp [ReadableOn, hplain, hnone, CursorInfo.ofWire, CursorLook.heard, CursorLook.record,
        CursorPlacement.wire, CursorWire.zero]
  | unmapped id b f h hb hf hno =>
    rw [h] at hplain
    simp only [Shown, hplain, hb, hno, not_false_eq_true, true_and, false_and, or_false] at hshown
    have hc' := hreplied.of_hidden hrec rfl
    subst hshown hc'
    obtain ⟨hotX, hotY, hot⟩ := d.placement_plain v w id
    refine ⟨⟨⟨hotX, hotY⟩, ?_, ⟨hf.1, hf.2.1⟩, .inl ⟨rfl, rfl⟩⟩, placed_of rfl rfl rfl rfl, ?_, ?_⟩
    · intro b hb
      rw [heard_measured _ _ _ hb]
      exact congrArg (fun n => some (decide (n ≠ 0))) hot.symm
    · simp [hplain, CursorPlacement.info]
    · simp [ReadableOn, hplain, hb, hno, CursorInfo.ofWire, CursorLook.heard, CursorLook.record,
        CursorPlacement.wire, CursorWire.zero]
  | read id b f h hb hf hread fits =>
    rw [h] at hplain
    simp only [Shown, hplain, hb, hread, not_true_eq_false, false_and, true_and, false_or]
      at hshown
    obtain ⟨block, hc, hload⟩ := hshown
    have hlen : b.rows.length = b.width.toNat * b.height.toNat * 4 := packedRows_length _ _ _ _
    have hsmall : f.width.toNat * f.height.toNat * 4 ≤ maxCursorBytes := pixelBytes_le fits
    rw [hf.1, hf.2.1] at hsmall
    have hpos : 0 < b.rows.length := by
      rw [hlen]
      have hwide : 0 < b.width.toNat := Nat.pos_of_ne_zero fun h0 =>
        b.wide (UInt32.toNat_inj.mp h0)
      have hhigh : 0 < b.height.toNat := Nat.pos_of_ne_zero fun h0 =>
        b.high (UInt32.toNat_inj.mp h0)
      positivity
    have hsize : (UInt32.ofNat (f.width.toNat * f.height.toNat * 4)).toNat = b.rows.length := by
      rw [hf.1, hf.2.1, hlen, UInt32.toNat_ofNat']
      apply Nat.mod_eq_of_lt
      exact hsmall.trans_lt (by decide)
    obtain ⟨block', hc', hload'⟩ :=
      hreplied.of_shown hrec hbody (show (1 : UInt32) ≠ 0 by decide) hsize hpos (hlen ▸ hsmall)
    subst hc hc'
    obtain ⟨hotX, hotY, hot⟩ := d.placement_plain v w id
    refine ⟨⟨⟨hotX, hotY⟩, ?_, ⟨hf.1, hf.2.1⟩, .inr ⟨block, block', b.rows, rfl, rfl, hlen, ?_,
      hload'⟩⟩, placed_of rfl rfl rfl rfl, ?_, ?_⟩
    · intro b hb
      rw [heard_measured _ _ _ hb]
      exact congrArg (fun n => some (decide (n ≠ 0))) hot.symm
    · rw [hlen]
      exact hload
    · simp [hplain, CursorPlacement.info]
    · refine iff_of_true ?_ ⟨id, b, hplain, hb, hread⟩
      simp [CursorInfo.ofWire, CursorLook.heard, CursorLook.record]

end Agreement

end CursorBoard

/-- A cursor that is read directly and one that the helper tells of are the same picture. The place
is the same as well if both have asked for the atomic properties, or neither; a helper that has not
tells (0, 0) where the place is one of them. The library calls a cursor visible if there is one, the
helper if its pixels can be read. -/
theorem cursor_paths_agree {d : CursorBoard} {v w : CursorView} {answers : HelperAnswers}
    {m m' k k' : Machine} {s' : Connection} {r : ℤ × CursorInfo} {c' : CursorInfo}
    (hcrtc : m.ctx.crtcId ≠ 0) (hsame : m'.ctx.crtcId = m.ctx.crtcId)
    (hintact : ∀ n extended, (answers n m.ctx.crtcId extended).Intact)
    (hsees : ∀ n extended, ∃ p p', Cmd.Runs (d.env w) (lookCursor m.ctx.crtcId) p ()
      (answers n m.ctx.crtcId extended).look p' ())
    (hdirect : Cmd.Runs (d.env v) getCursorDirect m () r k ())
    (hhelper : Cmd.Runs (connectedEnv answers) drmtapHelperGetCursor m' (.start []) (0, c') k' s') :
    r.1 = 0 ∧ CursorsMatch r.2 c' k k' ∧ d.Placed v w r.2 c' ∧
      (r.2.visible = true ↔ d.shown v m.ctx.crtcId ≠ none) ∧
        (c'.visible = true ↔ d.ReadableOn v m.ctx.crtcId) := by
  obtain ⟨hret, hshown⟩ := Cmd.wlp_runs (CursorBoard.getCursorDirect_shows hcrtc) hdirect
  obtain ⟨n, extended, hrec, hbody, hreplied⟩ :=
    helperGetCursor_tells hhelper (by rw [hsame]; exact hintact)
  rw [hsame] at hrec hbody
  obtain ⟨p, p', hlook⟩ := hsees n extended
  have hseen := Cmd.wlp_runs (CursorBoard.lookCursor_sees hcrtc) hlook
  exact ⟨hret, CursorBoard.looks_agree hseen hshown hrec hbody hreplied⟩

/-! A cursor of one pixel at (100, 50), whose helper was not told of its place -/

theorem dot_size : (1 : UInt32) ≠ 0 := by
  decide

def dotBuffer : CursorBuffer :=
  ⟨1, 1, 4, fun i => UInt8.ofNat (i + 1), true, true, dot_size, dot_size⟩

def dotBoard : CursorBoard where
  planes := [1]
  crtc _ := 5
  fb _ := 3
  props _ := [(0, drmPlaneTypeCursor), (1, 100), (2, 50)]
  name p :=
    if p = 0 then some "type" else if p = 1 then some "CRTC_X"
    else if p = 2 then some "CRTC_Y" else none
  atomicOnly p := p ≠ 0
  buffer _ := some dotBuffer
  ids := by simp
  attached := by simp
  plain := by
    intro p s hs hmem
    split_ifs at hs with h0 h1 h2
    · simp [h0]
    · obtain rfl := Option.some.inj hs
      simp at hmem
    · obtain rfl := Option.some.inj hs
      simp at hmem

def dotView (atomic : Bool) : CursorView := ⟨atomic, fun _ => dotBuffer, fun _ => dotBuffer⟩

def dotFb2 : Fb2 := ⟨1, 1, fmtAR24, 0, false, fun _ => 7, fun _ => 4, fun _ => 0⟩

def dotDevice (atomic : Bool) : Device
  | .getPlaneResources => .ok [1]
  | .getPlane id => some ⟨id, 5, 3⟩
  | .objectGetProperties id _ => some (dotBoard.listed (dotView atomic) id)
  | .getProperty p => dotBoard.name p
  | .getFB2 _ => .ok dotFb2
  | .primeHandleToFD _ => .ok 9
  | .mmap _ _ off => .ok fun i => dotBuffer.byte (off + i)
  | .malloc _ => some 0
  | .send _ bytes => .ok bytes.length
  | o => Device.blank o

theorem dotDevice_allowed (atomic : Bool) (o : Op) :
    dotBoard.Allows (dotView atomic) o (dotDevice atomic o) := by
  cases o with
  | getFB2 id => exact ⟨dotFb2, rfl, ⟨rfl, rfl, rfl, show (7 : UInt32) ≠ 0 by decide⟩, rfl⟩
  | primeHandleToFD h =>
    simp only [CursorBoard.Allows]
    rw [if_pos (show ((dotView atomic).handle h).exports = true from rfl)]
    exact ⟨9, rfl, rfl⟩
  | mmap src size off =>
    cases src with
    | fd fd =>
      simp only [CursorBoard.Allows]
      rw [if_pos (show ((dotView atomic).descriptor fd).maps = true from rfl)]
      rfl
    | _ => trivial
  | objectGetProperties id type => cases type <;> first | rfl | trivial
  | malloc size => exact ⟨0, rfl⟩
  | _ => first | rfl | trivial

theorem dotDevice_step {atomic : Bool} {u u' : Unit} {o : Op} {r : Ans o}
    (h : Cmd.still (dotDevice atomic) u o = some (r, u')) :
    (dotBoard.env (dotView atomic)).step u o r u' := by
  obtain ⟨rfl, -⟩ := Prod.mk.inj (Option.some.inj h)
  exact ⟨trivial, dotDevice_allowed atomic o⟩

theorem dotFb2_fits : ¬ badCursor dotFb2 := by
  decide

/-- The helper sees it at (0, 0). -/
def dotLook : CursorLook := .read ⟨0, 0, 0, 0, 0⟩ dotFb2 [1, 2, 3, 4] dotFb2_fits

theorem dotLook_seen : ∃ p', Cmd.Runs (dotBoard.env (dotView false)) (lookCursor 5) .start ()
    dotLook p' () :=
  ⟨_, Cmd.exec_runs (h := Cmd.still (dotDevice false)) (n := 1) (fun _ _ _ _ => dotDevice_step) rfl⟩

theorem dotLook_sends (extended : Bool) : ∃ sock st st₁ st₂,
    Cmd.Runs sentEnv (lookCursor 5) st [] dotLook st₁ [] ∧
      Cmd.Runs sentEnv (sendLook sock extended dotLook) st₁ [] () st₂
        (dotLook.reply extended) := by
  have hsend (st : Helper) : Cmd.Runs sentEnv (sendLook 3 extended dotLook) st [] () st
      (dotLook.reply extended) := by
    refine Cmd.exec_runs (n := 2) (h := sendingRun (dotDevice false))
      (fun _ _ _ _ => sendingRun_step) ?_
    cases extended <;> rfl
  exact ⟨3, .start, _, _, Cmd.exec_runs (h := sendingRun (dotDevice false)) (n := 1)
    (fun _ _ _ _ => sendingRun_step) rfl, hsend _⟩

/-- A helper that sees the dot on its CRTC, and nothing on any other. -/
def dotAnswers : HelperAnswers := fun _ targetCrtc extended =>
  if h : targetCrtc = 5 then ⟨dotLook, dotLook.reply extended, h ▸ dotLook_sends extended⟩
  else absentAnswer targetCrtc extended

theorem dotAnswers_dot (n : ℕ) (extended : Bool) : (dotAnswers n 5 extended).look = dotLook ∧
    (dotAnswers n 5 extended).bytes = dotLook.reply extended := by
  rw [show dotAnswers n 5 extended = ⟨dotLook, _, dotLook_sends extended⟩ from dif_pos rfl]
  exact ⟨rfl, rfl⟩

/-- A socket that gives what was put on it, to a process that has memory. -/
def dotClient (s : Connection) : Device
  | .malloc _ => some 0
  | o => connectedDevice s o

def dotRun (s : Connection) (o : Op) : Option (Ans o × Connection) :=
  some (dotClient s o, s.note dotAnswers o (dotClient s o))

theorem dotRun_step {s s' : Connection} {o : Op} {r : Ans o} (h : dotRun s o = some (r, s')) :
    (connectedEnv dotAnswers).step s o r s' := by
  obtain ⟨rfl, rfl⟩ := Prod.mk.inj (Option.some.inj h)
  cases o with
  | malloc size => exact ⟨rfl, trivial⟩
  | _ => exact connectedRun_step rfl

def dotMachine : Machine := ⟨(Ctx.opened "i915" 5).withHelper 3 7, .empty⟩

theorem dotAnswers_agree (n : ℕ) (extended : Bool) :
    (dotAnswers n dotMachine.ctx.crtcId extended).Intact ∧
      ∃ p p', Cmd.Runs (dotBoard.env (dotView false)) (lookCursor dotMachine.ctx.crtcId) p ()
        (dotAnswers n dotMachine.ctx.crtcId extended).look p' () := by
  obtain ⟨hlook, hbytes⟩ := dotAnswers_dot n extended
  rw [show dotMachine.ctx.crtcId = 5 from rfl, HelperAnswer.Intact, hlook, hbytes]
  exact ⟨List.prefix_rfl, .start, dotLook_seen⟩

/-- The process that asked for the atomic properties is the one to know the place. -/
theorem cursor_paths_agree_dot : ∃ r c' k k' s',
    Cmd.Runs (dotBoard.env (dotView true)) getCursorDirect dotMachine () r k () ∧
      Cmd.Runs (connectedEnv dotAnswers) drmtapHelperGetCursor dotMachine (.start []) (0, c') k'
        s' ∧ (r.2.x = 100 ∧ c'.x = 0) ∧ r.1 = 0 ∧ CursorsMatch r.2 c' k k' ∧
          dotBoard.Placed (dotView true) (dotView false) r.2 c' := by
  have hdirect : ((getCursorDirect.exec 1 (Cmd.still (dotDevice true)) dotMachine ()).map
      fun x => x.1.1.2.x) = some 100 := by
    decide +kernel
  have hhelper : ((drmtapHelperGetCursor.exec 2 dotRun dotMachine (.start [])).map
      fun x => (x.1.1.1, x.1.1.2.x)) = some (0, 0) := by
    decide +kernel
  obtain ⟨⟨⟨r, k⟩, _⟩, hdirect, hx⟩ := Option.map_eq_some_iff.mp hdirect
  obtain ⟨⟨⟨⟨_, c'⟩, k'⟩, s'⟩, hhelper, heq⟩ := Option.map_eq_some_iff.mp hhelper
  obtain ⟨rfl, hx'⟩ := Prod.mk.inj heq
  have hdirect := Cmd.exec_runs (E := dotBoard.env (dotView true))
    (fun _ _ _ _ => dotDevice_step) hdirect
  have hhelper := Cmd.exec_runs (E := connectedEnv dotAnswers) (fun _ _ _ _ => dotRun_step) hhelper
  obtain ⟨hret, hmatch, hplaced, -⟩ := cursor_paths_agree (by decide) rfl
    (fun n extended => (dotAnswers_agree n extended).1)
    (fun n extended => (dotAnswers_agree n extended).2) hdirect hhelper
  exact ⟨r, c', k, k', s', hdirect, hhelper, ⟨hx, hx'⟩, hret, hmatch, hplaced⟩

end Drmtap
