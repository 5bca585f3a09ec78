import Drmtap.Cursor
import Drmtap.CursorLatch
import Drmtap.WireDescriptors

/-! What a cursor sample is made of: the reply of a helper, or the plane and a mapping of its
buffer. -/
namespace Drmtap

open Memory Effect

/-- What was seen of the helper since the last command, and of the cursor's buffer. -/
structure CursorLog where
  /-- the shape of the reply that was asked for, if a whole command was sent -/
  asked : Option Bool
  heard : List UInt8
  /-- the contents of the last mapping -/
  mapped : ℕ → UInt8

namespace CursorLog

def start : CursorLog := ⟨none, [], 0⟩

/-- The shape of the reply to a command. -/
def shape (type : UInt16) : Option Bool :=
  if type = cmdGetCursor2 then some true else if type = cmdGetCursor then some false else none

def sent (l : CursorLog) (bytes : List UInt8) (taken : ℕ) : CursorLog :=
  { l with
    asked := if taken = sizeofHelperCmd then shape (HelperCmd.decode bytes).type else none
    heard := [] }

def note (l : CursorLog) : (o : Op) → Ans o → CursorLog
  | .helperSpawn, .ok _ => { l with asked := none, heard := [] }
  | .send _ bytes, .ok n => l.sent bytes n
  | .send _ _, .error _ => { l with asked := none, heard := [] }
  | .recv _ _, .ok bytes => { l with heard := l.heard ++ bytes }
  | .mmap _ _ _, .ok bytes => { l with mapped := bytes }
  | _, _ => l

/-- The record at the head of the reply. -/
def record (l : CursorLog) (extended : Bool) : CursorWire :=
  .decode (l.heard.take (CursorWire.size extended))

def body (l : CursorLog) (extended : Bool) : List UInt8 :=
  l.heard.drop (CursorWire.size extended)

end CursorLog

/-- A reception gives no more than was asked for. -/
def Delivers : (o : Op) → Ans o → Prop
  | .recv _ len, (r : Except Errno (List UInt8)) => ∀ bytes, r = .ok bytes → bytes.length ≤ len
  | _, _ => True

abbrev cursorEnv : Env := (Effect.Env.noting CursorLog.note).restrict fun _ => Delivers

/-! What the helper said -/

/-- The pixels that follow a record. -/
def CursorWire.Small (w : CursorWire) : Prop :=
  w.visible ≠ 0 ∧ 0 < w.dataSize ∧ w.dataSize.toNat ≤ maxCursorBytes

/-- The sample is what the reply says. -/
inductive Replied (m : Machine) (l : CursorLog) (extended : Bool) : CursorInfo → Prop where
  | bare (h : (l.record extended).visible = 0 ∨ (l.record extended).dataSize = 0) :
      Replied m l extended (.ofWire (l.record extended) extended)
  | large (h : (l.record extended).visible ≠ 0)
      (hbig : maxCursorBytes < (l.record extended).dataSize.toNat) :
      Replied m l extended { CursorInfo.ofWire (l.record extended) extended with visible := false }
  | pixels (h : (l.record extended).Small) (p : Slice)
      (hlen : p.len = (l.record extended).dataSize.toNat)
      (hload : m.heap.load p 0 p.len = some (l.body extended)) :
      Replied m l extended { CursorInfo.ofWire (l.record extended) extended with pixels := some p }

/-- A sample that came by the helper. -/
def FromHelper (m : Machine) (l : CursorLog) (cursor : CursorInfo) : Prop :=
  ∃ extended, l.asked = some extended ∧ CursorWire.size extended ≤ l.heard.length ∧
    Replied m l extended cursor

section Helper
variable {m : Machine} {l : CursorLog} {fd : ℤ}

/-- Code that leaves what was asked and heard alone. -/
theorem cursorEnv_call {o : Op} {Q : Ans o → Machine → CursorLog → Prop}
    (h : ∀ r, Delivers o r → Q r m (l.note o r)) : Cmd.wlp cursorEnv (sys o) Q m l := by
  rw [Cmd.wlp_call]
  refine ⟨trivial, ?_⟩
  rintro r _ ⟨rfl, hr⟩
  exact h r hr

theorem CursorLog.hears : Hears CursorLog.note Delivers
    fun l bytes => { l with heard := l.heard ++ bytes } where
  nil l := by simp
  append l b b' := by simp
  fails _ _ _ _ := rfl
  takes _ _ _ _ := rfl
  within _ _ b h := h b rfl

theorem wireRecvAll_heard (len : ℕ) :
    Cmd.wlp cursorEnv (wireRecvAll fd len) (fun r m' l' => m' = m ∧ l'.asked = l.asked ∧
      ∀ bytes, r = some bytes → bytes.length = len ∧ l'.heard = l.heard ++ bytes) m l := by
  apply Cmd.wlp_mono (wireRecvAll_hears CursorLog.hears fd len)
  rintro r _ _ ⟨rfl, got, rfl, hgot⟩
  refine ⟨rfl, rfl, fun bytes hr => ?_⟩
  obtain ⟨rfl, hlen⟩ := hgot bytes hr
  exact ⟨hlen, rfl⟩

theorem trySend_asks {extended : Bool} :
    Cmd.wlp cursorEnv (trySend (if extended then cmdGetCursor2 else cmdGetCursor))
      (fun sent _ l' => sent = true → l'.asked = some extended ∧ l'.heard = []) m l := by
  unfold trySend
  rw [Cmd.wlp_bind, wlp_getCtx, Cmd.wlp_bind]
  apply cursorEnv_call
  rintro (e | n) -
  · exact fun h => absurd h (by simp)
  · intro h
    have hn : n = sizeofHelperCmd := of_decide_eq_true h
    subst hn
    refine ⟨?_, rfl⟩
    simp only [CursorLog.note, CursorLog.sent, if_true]
    rw [← List.append_nil (HelperCmd.encode _), HelperCmd.decode_encode]
    cases extended <;> rfl

theorem sendCommand_asks {extended : Bool} :
    Cmd.wlp cursorEnv
      (sendCommand (if extended then cmdGetCursor2 else cmdGetCursor) fun _ => - EIO)
      (fun r _ l' => ¬ r < 0 → l'.asked = some extended ∧ l'.heard = []) m l := by
  have hneg : (- EIO : ℤ) < 0 := by decide
  have hany {α : Type} (c : M α) (m₁ : Machine) (l₁ : CursorLog) :
      Cmd.wlp cursorEnv c (fun _ _ _ => True) m₁ l₁ :=
    Cmd.wlp_true (E := cursorEnv) (fun _ _ => trivial) c m₁ l₁
  unfold sendCommand sendOrResend resend
  rw [Cmd.wlp_bind]
  apply Cmd.wlp_mono (hany _ m l)
  intro ret m₁ l₁ _
  rw [Cmd.wlp_ite]
  refine ⟨fun hlt => fun h => absurd hlt h, fun _ => ?_⟩
  rw [Cmd.wlp_bind]
  apply Cmd.wlp_mono trySend_asks
  intro sent m₂ l₂ hsent
  rw [Cmd.wlp_ite]
  refine ⟨fun h => fun _ => hsent h, fun _ => ?_⟩
  rw [Cmd.wlp_bind]
  apply Cmd.wlp_mono (hany _ m₂ l₂)
  intro _ m₃ l₃ _
  rw [Cmd.wlp_bind]
  apply Cmd.wlp_mono (hany _ m₃ l₃)
  intro ret m₄ l₄ _
  rw [Cmd.wlp_ite]
  refine ⟨fun _ => fun h => absurd hneg h, fun _ => ?_⟩
  rw [Cmd.wlp_bind]
  apply Cmd.wlp_mono trySend_asks
  intro sent m₅ l₅ hsent
  cases sent with
  | true => exact fun _ => hsent rfl
  | false => exact fun h => absurd hneg h

theorem drainCursor_heard (dataSize : ℕ) :
    Cmd.wlp cursorEnv (drainCursor fd dataSize)
      (fun _ _ l' => l'.asked = l.asked ∧ ∃ more, l'.heard = l.heard ++ more) m l := by
  apply Cmd.wlp_loop (fun _ _ (l' : CursorLog) =>
    l'.asked = l.asked ∧ ∃ more, l'.heard = l.heard ++ more)
  · exact ⟨rfl, [], (List.append_nil _).symm⟩
  · rintro rem m₁ l₁ ⟨hasked, more, hheard⟩
    rw [Cmd.wlp_ite]
    refine ⟨fun _ => ⟨hasked, more, hheard⟩, fun _ => ?_⟩
    rw [Cmd.wlp_bind]
    apply cursorEnv_call
    rintro (e | bytes) -
    · exact ⟨hasked, more, hheard⟩
    · have hmore : ∃ more, l₁.heard ++ bytes = l.heard ++ more :=
        ⟨more ++ bytes, by rw [hheard, List.append_assoc]⟩
      exact Cmd.wlp_ite.mpr ⟨fun _ => ⟨hasked, hmore⟩, fun _ => ⟨hasked, hmore⟩⟩

/-- What comes after the head is no part of the record. -/
theorem record_append {l' : CursorLog} {extended : Bool} {more : List UInt8}
    (hlen : l.heard.length = CursorWire.size extended) (hheard : l'.heard = l.heard ++ more) :
    l'.record extended = l.record extended ∧ l'.body extended = more := by
  unfold CursorLog.record CursorLog.body
  rw [hheard, ← hlen, List.take_left, List.take_length, List.drop_left]
  exact ⟨rfl, rfl⟩

/-- The pixels that follow the head of a reply. -/
theorem receiveCursorPixels_replied {extended : Bool} {w : CursorWire} (hw : w = l.record extended)
    (hasked : l.asked = some extended) (hheard : l.heard.length = CursorWire.size extended)
    (hpix : w.visible ≠ 0 ∧ 0 < w.dataSize) :
    Cmd.wlp cursorEnv (receiveCursorPixels fd w.dataSize.toNat (.ofWire w extended))
      (fun r m' l' => r.1 = 0 → FromHelper m' l' r.2) m l := by
  have henomem : (- ENOMEM : ℤ) ≠ 0 := by decide
  have heio : (- EIO : ℤ) ≠ 0 := by decide
  unfold receiveCursorPixels
  rw [Cmd.wlp_ite]
  constructor
  · intro hbig
    rw [Cmd.wlp_bind]
    apply Cmd.wlp_mono (drainCursor_heard _)
    rintro _ m₁ l₁ ⟨hasked₁, more, hheard₁⟩ -
    have hrec := (record_append hheard hheard₁).1
    refine ⟨extended, hasked₁.trans hasked, ?_, ?_⟩
    · rw [hheard₁, List.length_append]
      omega
    · rw [hw, ← hrec] at hbig hpix ⊢
      exact .large hpix.1 hbig
  · intro hsmall
    rw [Cmd.wlp_bind, wlp_malloc]
    refine ⟨trivial, fun _ _ h => absurd h henomem, ?_⟩
    intro g l₀ hl₀
    obtain rfl : l₀ = l := hl₀.1
    rw [Cmd.wlp_bind]
    apply Cmd.wlp_mono (wireRecvAll_heard _)
    rintro (_ | bytes) m₁ l₁ ⟨rfl, hasked₁, hbytes⟩
    · rw [Cmd.wlp_bind]
      apply Cmd.wlp_mono (Cmd.wlp_true (fun _ _ => trivial) _ _ _)
      exact fun _ _ _ _ h => absurd h heio
    · obtain ⟨hlen, hheard₁⟩ := hbytes bytes rfl
      rw [Cmd.wlp_bind, wlp_onHeap]
      intro _ h hstore _
      obtain ⟨h', hstore, heq⟩ := Option.map_eq_some_iff.mp hstore
      cases heq
      have hrec := record_append hheard hheard₁
      refine ⟨extended, hasked₁.trans hasked, ?_, ?_⟩
      · rw [hheard₁, List.length_append]
        omega
      · rw [hw, ← hrec.1] at hpix hsmall hlen hstore ⊢
        refine .pixels ⟨hpix.1, hpix.2, not_lt.mp hsmall⟩ _ rfl ?_
        rw [hrec.2]
        have hload := Heap.load_store hstore
        rw [hlen] at hload
        exact hload

/-- The rest of a reply whose head was received. -/
theorem receiveCursor_replied {extended : Bool} {w : CursorWire} (hw : w = l.record extended)
    (hasked : l.asked = some extended) (hheard : l.heard.length = CursorWire.size extended) :
    Cmd.wlp cursorEnv (receiveCursor fd extended w)
      (fun r m' l' => r.1 = 0 → FromHelper m' l' r.2) m l := by
  unfold receiveCursor
  rw [Cmd.wlp_bind, wlp_modifyCtx, Cmd.wlp_ite]
  refine ⟨fun hpix => receiveCursorPixels_replied hw hasked hheard hpix, fun hbare => ?_⟩
  intro _
  refine ⟨extended, hasked, hheard.ge, ?_⟩
  subst hw
  apply Replied.bare
  by_contra hno
  obtain ⟨hv, hd⟩ := not_or.mp hno
  exact hbare ⟨hv, UInt32.pos_iff_ne_zero.mpr hd⟩

theorem getCursorOnce_replied :
    Cmd.wlp cursorEnv getCursorOnce (fun r m' l' =>
      ∀ x, r = .inr x → x.1 = 0 → FromHelper m' l' x.2) m l := by
  have heio : (- EIO : ℤ) ≠ 0 := by decide
  unfold getCursorOnce
  rw [Cmd.wlp_bind, wlp_getCtx, Cmd.wlp_bind]
  generalize (!m.ctx.helperNoCursor2) = extended
  apply Cmd.wlp_mono sendCommand_asks
  intro ret m₁ l₁ hasked
  rw [Cmd.wlp_ite]
  constructor
  · rintro hlt _ ⟨⟩ h0
    exact absurd h0 hlt.ne
  · intro hge
    obtain ⟨hasked, hnone⟩ := hasked hge
    rw [Cmd.wlp_bind, wlp_getCtx, Cmd.wlp_bind]
    apply Cmd.wlp_mono (wireRecvAll_heard _)
    rintro (_ | bytes) m₂ l₂ ⟨rfl, hasked₂, hbytes⟩
    · unfold cursorUnanswered
      rw [Cmd.wlp_bind, wlp_getCtx, Cmd.wlp_ite]
      refine ⟨fun _ => ?_, ?_⟩
      · rw [Cmd.wlp_bind]
        apply Cmd.wlp_mono (Cmd.wlp_true (fun _ _ => trivial) _ _ _)
        intro _ m₃ l₃ _
        rw [Cmd.wlp_bind]
        apply Cmd.wlp_mono (Cmd.wlp_true (fun _ _ => trivial) _ _ _)
        intro ret₃ m₄ l₄ _
        rw [Cmd.wlp_ite]
        constructor
        · rintro _ _ ⟨⟩ h0
          exact absurd h0 heio
        · rintro _ _ ⟨⟩
      · rintro _ _ ⟨⟩ h0
        exact absurd h0 heio
    · obtain ⟨hlen, hheard⟩ := hbytes bytes rfl
      rw [hnone, List.nil_append] at hheard
      have hw : CursorWire.decode bytes = l₂.record extended := by
        rw [CursorLog.record, hheard, ← hlen, List.take_length]
      rw [Cmd.wlp_bind]
      apply Cmd.wlp_mono (receiveCursor_replied hw (hasked₂.trans hasked) (by rw [hheard, hlen]))
      rintro r m' l' hr _ ⟨⟩
      exact hr

theorem drmtapHelperGetCursor_replied :
    Cmd.wlp cursorEnv drmtapHelperGetCursor
      (fun r m' l' => r.1 = 0 → FromHelper m' l' r.2) m l := by
  apply Cmd.wlp_loop (fun _ _ _ => True) trivial
  intro _ m₁ l₁ _
  apply Cmd.wlp_mono getCursorOnce_replied
  rintro (_ | r) _ _ h
  · trivial
  · exact h r rfl

end Helper

/-! What the plane showed -/

/-- The rows of a picture in a mapping, packed. -/
def packedRows (byte : ℕ → UInt8) (width height stride : ℕ) : List UInt8 :=
  (List.range height).flatMap fun y => (List.range (width * 4)).map fun i => byte (y * stride + i)

theorem packedRows_length (byte : ℕ → UInt8) (width height stride : ℕ) :
    (packedRows byte width height stride).length = width * height * 4 := by
  simp only [packedRows, List.length_flatMap, List.length_map, List.length_range, List.map_const',
    List.sum_replicate, smul_eq_mul]
  ring

theorem packedRows_succ (byte : ℕ → UInt8) (width height stride : ℕ) :
    packedRows byte width (height + 1) stride =
      packedRows byte width height stride ++
        (List.range (width * 4)).map fun i => byte (height * stride + i) := by
  simp [packedRows, List.range_succ]

/-- The copy holds the rows of the mapping, one after the other. -/
theorem packRows_load {pixels mapped : Slice} {size width height stride : ℕ} {byte : ℕ → UInt8}
    {h h' : Heap} (hne : mapped.base ≠ pixels.base) (hlive : h.Live pixels)
    (hmapped : h.block mapped.base = some ⟨size, byte⟩)
    (he : packRows pixels mapped width height stride h = some h') :
    h'.block mapped.base = h.block mapped.base ∧
      h'.load pixels 0 (width * height * 4) = some (packedRows byte width height stride) := by
  unfold packRows at he
  induction height generalizing h' with
  | zero =>
    obtain rfl := Option.some.inj he
    exact ⟨rfl, Heap.load_eq hlive (Nat.zero_le _)⟩
  | succ y ih =>
    obtain ⟨h₁, he₁, hrow⟩ := Option.bind_eq_some_iff.mp he
    obtain ⟨hb, hl⟩ := ih he₁
    obtain ⟨row, hload, hstore⟩ := Option.bind_eq_some_iff.mp hrow
    have hother := (Heap.filled_store hstore).2.2.other mapped.base hne
    have hin := Heap.load_isSome hload
    have hval : row = (List.range (width * 4)).map fun i => byte (y * stride + i) := by
      rw [Heap.load_eq (Heap.load_live hload) hin.1] at hload
      rw [← Option.some.inj hload]
      simp [Heap.read, hb, hmapped]
    refine ⟨hother.trans hb, ?_⟩
    have hoff : width * y * 4 = y * width * 4 := by ring
    have hsize : width * (y + 1) * 4 = width * y * 4 + width * 4 := by ring
    have hbefore : h'.load pixels 0 (width * y * 4) = some (packedRows byte width y stride) :=
      Heap.load_store_before hstore (by rw [hoff, zero_add]) hl
    have hafter : h'.load pixels (0 + width * y * 4) (width * 4) = some row := by
      have hback := Heap.load_store hstore
      rw [hin.2] at hback
      rw [hoff, zero_add]
      exact hback
    rw [hsize, packedRows_succ, ← hval]
    exact Heap.load_append hbefore hafter

/-- A sample that was read directly. -/
inductive FromPlane (m : Machine) (l : CursorLog) : CursorInfo → Prop where
  | absent : FromPlane m l (CursorInfo.cleared.setHotProvenance false)
  | unread (cursor : CursorInfo) (hv : cursor.visible = true) (hp : cursor.pixels = none) :
      FromPlane m l cursor
  | pixels (cursor : CursorInfo) (hv : cursor.visible = true) (p : Slice)
      (hp : cursor.pixels = some p)
      (hload : ∃ stride, m.heap.load p 0 (cursor.width.toNat * cursor.height.toNat * 4) =
        some (packedRows l.mapped cursor.width.toNat cursor.height.toNat stride)) :
      FromPlane m l cursor

section Direct
variable {m : Machine} {l : CursorLog}

/-- A packed copy of a mapped buffer. -/
theorem copyCursor_packed {mapped : Slice} {fb2 : Fb2} {size : ℕ}
    (hmapped : m.heap.block mapped.base = some ⟨size, l.mapped⟩) :
    Cmd.wlp cursorEnv (copyCursor mapped fb2) (fun pixels m' l' => l' = l ∧ ∀ p, pixels = some p →
      p.base ≠ mapped.base ∧ m'.heap.load p 0 (fb2.width.toNat * fb2.height.toNat * 4) =
        some (packedRows l.mapped fb2.width.toNat fb2.height.toNat (fb2.pitches 0).toNat)) m l := by
  unfold copyCursor
  rw [Cmd.wlp_bind, wlp_malloc]
  refine ⟨trivial, fun l₁ hl₁ => ⟨hl₁.1, by simp⟩, ?_⟩
  intro g l₁ hl₁
  obtain rfl : l₁ = l := hl₁.1
  rw [Cmd.wlp_bind, wlp_onHeap]
  intro _ h hpack
  obtain ⟨h', hpack, heq⟩ := Option.map_eq_some_iff.mp hpack
  cases heq
  refine ⟨rfl, ?_⟩
  rintro _ ⟨⟩
  have hlt : mapped.base < m.heap.next :=
    Heap.Live.lt_next (s := ⟨mapped.base, 0⟩) ⟨_, hmapped, Nat.zero_le _⟩
  have hne : mapped.base ≠ m.heap.next := hlt.ne
  refine ⟨hne.symm, ?_⟩
  exact (packRows_load hne (Heap.alloc_live _ _ _)
    ((Heap.alloc_block_of_lt hlt _ _).trans hmapped) hpack).2

theorem kmsOp_unlogged : cursorEnv.Quiet KmsOp fun _ _ => True := by
  intro o ho l
  cases o <;> first
    | exact ho.elim
    | exact ⟨trivial, fun r _ hs => ⟨trivial, hs.1⟩⟩

theorem exportCursor_packed (fb2 : Fb2) :
    Cmd.wlp cursorEnv (exportCursor fb2) (fun pixels m' l' => l'.asked = l.asked ∧
      ∀ p, pixels = some p →
        ∃ stride, m'.heap.load p 0 (fb2.width.toNat * fb2.height.toNat * 4) =
          some (packedRows l'.mapped fb2.width.toNat fb2.height.toNat stride)) m l := by
  unfold exportCursor mapAndReadCursor readMappedCursor
  rw [Cmd.wlp_ite]
  refine ⟨fun _ => ?_, fun _ => ⟨rfl, by simp⟩⟩
  rw [Cmd.wlp_bind]
  apply cursorEnv_call
  rintro (e | primeFd) -
  · exact ⟨rfl, by simp⟩
  · rw [Cmd.wlp_bind, Cmd.wlp_ite]
    constructor
    · intro _
      rw [Cmd.wlp_bind, wlp_mmap]
      refine ⟨trivial, fun e l₁ hl₁ => ?_, fun byte l₁ hl₁ => ?_⟩
      · obtain rfl : l₁ = l := hl₁.1
        rw [Cmd.wlp_pure, Cmd.wlp_bind]
        apply cursorEnv_call
        exact fun _ _ => ⟨rfl, by simp⟩
      · obtain rfl : l₁ = { l with mapped := byte } := hl₁.1
        rw [Cmd.wlp_bind, Cmd.wlp_bind]
        apply cursorEnv_call
        intro started _
        rw [Cmd.wlp_bind]
        apply Cmd.wlp_mono (copyCursor_packed (Heap.alloc_block _ _ _))
        rintro pixels m₂ _ ⟨rfl, hpacked⟩
        -- the copy outlives the mapping
        have hend : Cmd.wlp cursorEnv
            (munmap ((HasHeap.heap m).alloc ((fb2.pitches 0).toNat * fb2.height.toNat) byte).1)
            (fun _ m' l' => Cmd.wlp cursorEnv (do
                sys (.close primeFd)
                pure pixels) (fun pixels m' l' => l'.asked = l.asked ∧
              ∀ p, pixels = some p → ∃ stride,
                m'.heap.load p 0 (fb2.width.toNat * fb2.height.toNat * 4) =
                  some (packedRows l'.mapped fb2.width.toNat fb2.height.toNat stride)) m' l')
            m₂ { l with mapped := byte } := by
          rw [wlp_munmap]
          refine ⟨trivial, fun _ l₃ hl₃ h hfree => ?_⟩
          obtain rfl : l₃ = { l with mapped := byte } := hl₃.1
          rw [Cmd.wlp_bind]
          apply cursorEnv_call
          refine fun _ _ => ⟨rfl, fun p hp => ⟨(fb2.pitches 0).toNat, ?_⟩⟩
          obtain ⟨hne, hload⟩ := hpacked p hp
          exact (Heap.load_free hfree hne 0 _).trans hload
        rw [Cmd.wlp_ite]
        constructor
        · intro _
          rw [Cmd.wlp_bind]
          apply cursorEnv_call
          intro _ _
          rw [Cmd.wlp_pure, Cmd.wlp_bind]
          exact hend
        · intro _
          rw [Cmd.wlp_pure, Cmd.wlp_bind]
          exact hend
    · intro _
      rw [Cmd.wlp_pure, Cmd.wlp_bind]
      apply cursorEnv_call
      exact fun _ _ => ⟨rfl, by simp⟩

theorem readPlacement_visible (planeId : UInt32) :
    Cmd.wlp cursorEnv (readPlacement planeId)
      (fun cursor m' l' => cursor.visible = true ∧ m' = m ∧ l' = l) m l := by
  have hprop (name : String) (m : Machine) (l : CursorLog) :
      Cmd.wlp cursorEnv (getPropValFound planeId .plane name) (fun _ m' l' => m' = m ∧ l' = l) m l :=
    Cmd.wlp_of_wp ((getPropValFound_reads planeId .plane name).wp kmsOp_unlogged m l)
  unfold readPlacement
  rw [Cmd.wlp_bind]
  apply Cmd.wlp_mono (hprop _ m l)
  rintro _ _ _ ⟨rfl, rfl⟩
  rw [Cmd.wlp_bind]
  apply Cmd.wlp_mono (hprop _ _ _)
  rintro _ _ _ ⟨rfl, rfl⟩
  rw [Cmd.wlp_bind]
  apply Cmd.wlp_mono (hprop _ _ _)
  rintro _ _ _ ⟨rfl, rfl⟩
  rw [Cmd.wlp_bind]
  apply Cmd.wlp_mono (hprop _ _ _)
  rintro _ _ _ ⟨rfl, rfl⟩
  exact ⟨rfl, rfl, rfl⟩

/-- A direct read ends with what the plane showed, unless the helper is asked. -/
theorem getCursorDirect_sample :
    Cmd.wlp cursorEnv getCursorDirect (fun r m' l' => r.1 = 0 →
      FromHelper m' l' r.2 ∨ (l'.asked = l.asked ∧ FromPlane m' l' r.2)) m l := by
  have hreads {β : Type} {c : M β} (hc : Cmd.Reads KmsOp c) (m₁ : Machine) (l₁ : CursorLog) :
      Cmd.wlp cursorEnv c (fun _ m' l' => m' = m₁ ∧ l' = l₁) m₁ l₁ :=
    Cmd.wlp_of_wp (hc.wp kmsOp_unlogged m₁ l₁)
  have hhelper (m₁ : Machine) (l₁ : CursorLog) :
      Cmd.wlp cursorEnv drmtapHelperGetCursor (fun r m' l' => r.1 = 0 →
        FromHelper m' l' r.2 ∨ (l'.asked = l.asked ∧ FromPlane m' l' r.2)) m₁ l₁ :=
    Cmd.wlp_mono drmtapHelperGetCursor_replied fun _ _ _ h h0 => .inl (h h0)
  unfold getCursorDirect
  rw [Cmd.wlp_bind]
  apply Cmd.wlp_mono (hreads findCursorPlane_reads m l)
  rintro planeId m l ⟨rfl, rfl⟩
  rw [Cmd.wlp_ite]
  refine ⟨fun _ => fun _ => .inr ⟨rfl, .absent⟩, fun _ => ?_⟩
  rw [Cmd.wlp_bind]
  apply cursorEnv_call
  rintro (_ | plane) -
  · have hnodev : (- ENODEV : ℤ) ≠ 0 := by decide
    exact fun h => absurd h hnodev
  · rw [Cmd.wlp_ite]
    refine ⟨fun _ => fun _ => .inr ⟨rfl, .absent⟩, fun _ => ?_⟩
    rw [Cmd.wlp_bind]
    apply Cmd.wlp_mono (readPlacement_visible planeId)
    rintro cursor m l ⟨hv, rfl, rfl⟩
    unfold readCursorFb
    rw [Cmd.wlp_bind]
    apply cursorEnv_call
    rintro (e | fb2) -
    · rw [Cmd.wlp_ite]
      exact ⟨fun _ => hhelper _ _, fun _ => fun _ => .inr ⟨rfl, .unread _ hv rfl⟩⟩
    · rw [Cmd.wlp_bind]
      apply Cmd.wlp_mono (exportCursor_packed fb2)
      intro pixels m₁ l₁ hpacked
      have hend (l₂ : CursorLog) (hl₂ : l₂ = l₁) : Cmd.wlp cursorEnv
          (if pixels.isNone && drmtapCursorNeedsHelper true 0 (fb2.handles 0 ≠ 0) then
            drmtapHelperGetCursor
          else pure (0, { cursor with width := fb2.width, height := fb2.height, pixels := pixels }))
          (fun r m' l' => r.1 = 0 →
            FromHelper m' l' r.2 ∨ (l'.asked = l.asked ∧ FromPlane m' l' r.2)) m₁ l₂ := by
        subst hl₂
        rw [Cmd.wlp_ite]
        refine ⟨fun _ => hhelper _ _, fun _ => fun _ => .inr ⟨hpacked.1, ?_⟩⟩
        cases hp : pixels with
        | none => exact .unread _ hv rfl
        | some p => exact .pixels _ hv p rfl (hpacked.2 p hp)
      rw [Cmd.wlp_bind]
      unfold drmtapGemClose
      rw [Cmd.wlp_ite]
      refine ⟨fun _ => hend _ rfl, fun _ => ?_⟩
      apply cursorEnv_call
      exact fun _ _ => hend _ rfl

theorem drmtapGetCursor_sample :
    Cmd.wlp cursorEnv drmtapGetCursor (fun r m' l' => r.1 = 0 →
      FromHelper m' l' r.2 ∨ (l'.asked = l.asked ∧ FromPlane m' l' r.2)) m l := by
  unfold drmtapGetCursor
  rw [Cmd.wlp_bind, wlp_getCtx, Cmd.wlp_ite]
  constructor
  · intro _
    apply Cmd.wlp_mono drmtapHelperGetCursor_replied
    exact fun _ _ _ h h0 => .inl (h h0)
  · intro _
    exact getCursorDirect_sample

end Direct

/-! The pixels and the size -/

/-- The bytes that were written behind a cursor's pointer: what was received after the record,
or what was copied out of the mapping. -/
inductive CursorInfo.Written (l : CursorLog) (cursor : CursorInfo) : List UInt8 → Prop where
  | received (extended : Bool) (h : l.asked = some extended) :
      Written l cursor (l.body extended)
  | copied (h : l.asked = none) (stride : ℕ) :
      Written l cursor
        (packedRows l.mapped cursor.width.toNat cursor.height.toNat stride)

/-- As many bytes as the cursor has were written behind its pointer, if it has one. -/
def CursorInfo.Covered (cursor : CursorInfo) (m : Machine) (l : CursorLog) : Prop :=
  ∀ p, cursor.pixels = some p → ∃ bytes, cursor.Written l bytes ∧
    m.heap.load p 0 bytes.length = some bytes ∧
      cursor.width.toNat * cursor.height.toNat * 4 ≤ bytes.length

/-- A record whose pixels are kept has at least as many as its size. -/
def CursorWire.Tight (w : CursorWire) : Prop :=
  w.Small → w.width.toNat * w.height.toNat * 4 ≤ w.dataSize.toNat

instance (w : CursorWire) : Decidable w.Tight := by
  unfold CursorWire.Tight CursorWire.Small
  infer_instance

/-- The pixels of a cursor cover it exactly if the record says so that they came with. -/
theorem cursor_covered_iff {m m' : Machine} {l' : CursorLog} {cursor : CursorInfo}
    (hr : Cmd.Runs cursorEnv drmtapGetCursor m .start (0, cursor) m' l') :
    cursor.Covered m' l' ↔ ∀ extended, l'.asked = some extended → (l'.record extended).Tight := by
  have hsample := Cmd.wlp_runs drmtapGetCursor_sample hr rfl
  rcases hsample with ⟨extended, hasked, hlen, hreply⟩ | ⟨hasked, hplane⟩
  · have hrecord : (∀ extended, l'.asked = some extended → (l'.record extended).Tight) ↔
        (l'.record extended).Tight := by
      simp [hasked]
    rw [hrecord]
    cases hreply with
    | bare h =>
      refine iff_of_true (fun p hp => by cases hp) fun hs => ?_
      rcases h with h | h
      · exact absurd h hs.1
      · exact absurd h (UInt32.pos_iff_ne_zero.mp hs.2.1)
    | large h hbig =>
      exact iff_of_true (fun p hp => by cases hp) fun hs => absurd hs.2.2 (not_le.mpr hbig)
    | pixels hs p hplen hload =>
      have hbody : (l'.body extended).length = (l'.record extended).dataSize.toNat := by
        rw [(Heap.load_isSome hload).2, hplen]
      constructor
      · intro hcov _
        obtain ⟨bytes, hw, -, hle⟩ := hcov p rfl
        cases hw with
        | received ext hext =>
          obtain rfl : extended = ext := Option.some.inj (hasked.symm.trans hext)
          exact hle.trans hbody.le
        | copied hnone => cases hasked.symm.trans hnone
      · rintro htight _ ⟨⟩
        refine ⟨_, .received extended hasked, ?_, ?_⟩
        · rw [hbody, ← hplen]
          exact hload
        · rw [hbody]
          exact htight hs
  · have hnone : l'.asked = none := hasked
    refine iff_of_true (fun p hp => ?_) (by simp [hnone])
    cases hplane with
    | absent => cases hp
    | unread _ _ hp' => cases hp'.symm.trans hp
    | pixels _ _ p' hp' hload =>
      obtain rfl : p' = p := Option.some.inj (hp'.symm.trans hp)
      obtain ⟨stride, hload⟩ := hload
      refine ⟨_, .copied hnone stride, ?_, ?_⟩
      · rw [packedRows_length]
        exact hload
      · rw [packedRows_length]

/-! Replies to one CMD_GET_CURSOR2 -/

/-- A library with a helper at hand. -/
def Machine.helped : Machine := ⟨(Ctx.opened "i915" 0).withHelper 3 7, .empty⟩

/-- A peer that answers a command with `reply`. -/
def replyingPeer (reply : List UInt8) (l : CursorLog) : Device
  | .helperSpawn => .ok (3, 7)
  | .send _ bytes => .ok bytes.length
  | .recv _ len => .ok ((reply.drop l.heard.length).take len)
  | .malloc _ => some fun _ => 0
  | o => Device.blank o

def replyingRun (reply : List UInt8) (l : CursorLog) (o : Op) : Option (Ans o × CursorLog) :=
  some (replyingPeer reply l o, l.note o (replyingPeer reply l o))

theorem replyingRun_step {reply : List UInt8} {l l' : CursorLog} {o : Op} {r : Ans o}
    (h : replyingRun reply l o = some (r, l')) : cursorEnv.step l o r l' := by
  obtain ⟨rfl, rfl⟩ := Prod.mk.inj (Option.some.inj h)
  refine ⟨rfl, ?_⟩
  cases o with
  | recv fd len =>
    rintro _ ⟨⟩
    exact List.length_take_le _ _
  | _ => trivial

/-- A visible cursor of `side * side` pixels, of which `pixels` come. -/
def squareReply (side : UInt32) (pixels : List UInt8) : List UInt8 :=
  { CursorWire.zero with
    width := side, height := side, visible := 1,
    dataSize := UInt32.ofNat pixels.length }.encode true ++ pixels

theorem cursor_covered_iff_square : ∃ m' l' cursor,
    Cmd.Runs cursorEnv drmtapGetCursor .helped .start (0, cursor) m' l' ∧
      (cursor.Covered m' l' ↔
        ∀ extended, l'.asked = some extended → (l'.record extended).Tight) := by
  have hrun : ((drmtapGetCursor.exec 2 (replyingRun (squareReply 1 [1, 2, 3, 4])) .helped
      .start).map fun x => x.1.1.1) = some 0 := by
    decide +kernel
  obtain ⟨⟨⟨⟨_, cursor⟩, m'⟩, l'⟩, hexec, h0⟩ := Option.map_eq_some_iff.mp hrun
  cases h0
  have hr := Cmd.exec_runs (E := cursorEnv) (fun _ _ _ _ h => replyingRun_step h) hexec
  exact ⟨m', l', cursor, hr, cursor_covered_iff hr⟩

/-- Four bytes for 64 * 64 pixels. -/
theorem cursor_uncovered : ¬ ∀ m m' l' cursor,
    Cmd.Runs cursorEnv drmtapGetCursor m .start (0, cursor) m' l' → cursor.Covered m' l' := by
  have hrun : ((drmtapGetCursor.exec 2 (replyingRun (squareReply 64 [1, 2, 3, 4])) .helped
      .start).map fun x => (x.1.1.1, x.1.1.2.pixels.map Slice.len, x.1.1.2.width,
        x.1.1.2.height)) = some (0, some 4, 64, 64) := by
    decide +kernel
  obtain ⟨⟨⟨⟨_, cursor⟩, m'⟩, l'⟩, hexec, heq⟩ := Option.map_eq_some_iff.mp hrun
  obtain ⟨rfl, hpixels, hwidth, hheight⟩ : _ = (0 : ℤ) ∧ cursor.pixels.map Slice.len = some 4 ∧
      cursor.width = 64 ∧ cursor.height = 64 := by simpa using heq
  intro hall
  have hcov := hall _ _ _ _ (Cmd.exec_runs (E := cursorEnv) (fun _ _ _ _ h => replyingRun_step h) hexec)
  obtain ⟨p, hp, hlen⟩ := Option.map_eq_some_iff.mp hpixels
  obtain ⟨bytes, -, hload, hle⟩ := hcov p hp
  have hin := (Heap.load_isSome hload).1
  rw [hwidth, hheight] at hle
  have hsize : (64 : UInt32).toNat * (64 : UInt32).toNat * 4 = 16384 := by decide
  omega

end Drmtap
