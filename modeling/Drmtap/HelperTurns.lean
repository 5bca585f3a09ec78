import Drmtap.CursorHidden
import Drmtap.HelperStream
import Drmtap.WireFrames

/-! What the helper makes of its input: one reply for each command, and nothing after the first
frame that is none. -/
namespace Drmtap

open Memory Effect

/-! The socket -/

/-- What passes the helper's end of the socket. -/
inductive Traffic where
  | heard (byte : UInt8)
  | said (cell : Cell)
  | hungUp

/-- The helper's end of the socket. -/
structure Line where
  /-- what is sent to the helper, and was not received yet -/
  input : List UInt8
  traffic : List Traffic
  /-- a call on the socket has failed -/
  broken : Bool

namespace Line

def start (input : List UInt8) : Line := ⟨input, [], false⟩

def hear (s : Line) (bytes : List UInt8) : Line :=
  { s with input := s.input.drop bytes.length, traffic := s.traffic ++ bytes.map .heard }

def say (s : Line) (cells : List Cell) : Line :=
  { s with traffic := s.traffic ++ cells.map .said }

def hangUp (s : Line) : Line := { s with traffic := s.traffic ++ [.hungUp] }

def fails (s : Line) (e : Errno) : Line := if e.interrupted then s else { s with broken := true }

def note (sock : ℤ) (s : Line) : (o : Op) → Ans o → Line
  | .recv _ _, .ok bytes => s.hear bytes
  | .recv _ _, .error e => s.fails e
  | .send _ bytes, .ok n => s.say (plainCells (bytes.take n))
  | .send _ _, .error e => s.fails e
  | .sendmsg _ bytes fd, .ok n => s.say (passedCells fd (bytes.take n))
  | .sendmsg _ _ _, .error e => s.fails e
  | .close fd, _ => if fd = sock then s.hangUp else s
  | _, _ => s

/-- What the socket is relied on for: it gives out what was sent to it, in order, in any pieces,
and ends where that ends; it takes something of what the helper sends, and nothing once it is
broken; and it shares its number with no other descriptor. -/
def Carries (sock : ℤ) (s : Line) : (o : Op) → Ans o → Prop
  | .recv _ len, (r : Except Errno (List UInt8)) => ∀ bytes, r = .ok bytes →
    bytes.length ≤ len ∧ bytes <+: s.input ∧ (bytes = [] → s.input = [])
  | .send _ bytes, (r : Except Errno ℕ) | .sendmsg _ bytes _, r => ∀ n, r = .ok n →
    s.broken = false ∧ 0 < n ∧ n ≤ bytes.length
  | .primeHandleToFD _, (r : Except Errno ℕ) => ∀ fd, r = .ok fd → (fd : ℤ) ≠ sock
  | _, _ => True

end Line

abbrev lineEnv (sock : ℤ) : Env := (Effect.Env.noting (Line.note sock)).restrict (Line.Carries sock)

/-! Replies -/

/-- The whole reply to a grab: that it failed, a record with the descriptor, or a record with the
pixels. -/
inductive GrabReplied : List Cell → Prop where
  | refused : GrabReplied (plainCells GrabWire.zero.encode)
  | passed (wire : GrabWire) (fd : ℕ) (hflags : wire.flags &&& helperFlagHasDmabuf ≠ 0)
      (hsize : wire.dataSize = 0) : GrabReplied (passedCells fd wire.encode)
  | pixels (wire : GrabWire) (bytes : List UInt8) (hflags : wire.flags = 0)
      (hlen : bytes.length = wire.dataSize.toNat) (hpos : 0 < bytes.length)
      (hsize : wire.dataSize.toNat = wire.stride.toNat * wire.height.toNat) :
      GrabReplied (plainCells (wire.encode ++ bytes))

/-- The whole reply to a cursor command. -/
inductive CursorReplied (extended : Bool) : List Cell → Prop where
  | hidden (record : CursorWire) (hvisible : record.visible = 0) (hsize : record.dataSize = 0) :
      CursorReplied extended (plainCells (record.encode extended))
  | visible (record : CursorWire) (pixels : List UInt8) (hvisible : record.visible = 1)
      (hlen : pixels.length = record.dataSize.toNat)
      (hsize : record.dataSize.toNat = record.width.toNat * record.height.toNat * 4) :
      CursorReplied extended (plainCells (record.encode extended ++ pixels))

def WholeReply (type : UInt16) (reply : List Cell) : Prop :=
  if type = cmdGrab then GrabReplied reply else CursorReplied (type = cmdGetCursor2) reply

/-- A command, the reply to it, and as much of the reply as the socket took. -/
structure Turn where
  command : List UInt8
  reply : List Cell
  said : List Cell

namespace Turn

def traffic (t : Turn) : List Traffic := t.command.map .heard ++ t.said.map .said

def cmd (t : Turn) : HelperCmd := .decode t.command

end Turn

/-- A frame that is dispatched. -/
def Dispatched (frame : List UInt8) : Prop :=
  wireCmdValid (.decode frame) = true ∧ (HelperCmd.decode frame).type ≠ cmdQuit

instance (frame : List UInt8) : Decidable (Dispatched frame) := by
  unfold Dispatched
  infer_instance

/-- The frames before the first one that is cut off or is not dispatched. -/
def dispatchedFrames (input : List UInt8) : List (List UInt8) :=
  if _h : sizeofHelperCmd ≤ input.length ∧ Dispatched (input.take sizeofHelperCmd) then
    input.take sizeofHelperCmd :: dispatchedFrames (input.drop sizeofHelperCmd)
  else []
termination_by input.length
decreasing_by
  have h16 : 0 < sizeofHelperCmd := by decide
  rw [List.length_drop]
  omega

/-- As much of `cells` as the socket takes is said: all of them, unless it breaks. -/
structure Line.Says (s : Line) (cells said : List Cell) (s' : Line) : Prop where
  taken : said <+: cells
  input : s'.input = s.input
  traffic : s'.traffic = s.traffic ++ said.map .said
  silent : s.broken = true → said = [] ∧ s'.broken = true
  whole : s'.broken = false → said = cells

namespace Line.Says
variable {s s' s'' : Line} {cells cells' said said' : List Cell}

theorem nil (s : Line) : s.Says [] [] s where
  taken := List.prefix_rfl
  input := rfl
  traffic := by simp
  silent h := ⟨rfl, h⟩
  whole _ := rfl

theorem append (h : s.Says cells said s') (h' : s'.Says cells' said' s'') :
    s.Says (cells ++ cells') (said ++ said') s'' where
  taken := by
    by_cases hb : s'.broken = true
    · rw [(h'.silent hb).1, List.append_nil]
      exact h.taken.trans (List.prefix_append _ _)
    · rw [h.whole (by simpa using hb)]
      exact (List.prefix_append_right_inj cells).mpr h'.taken
  input := h'.input.trans h.input
  traffic := by rw [h'.traffic, h.traffic, List.map_append, List.append_assoc]
  silent hb := by
    obtain ⟨rfl, hb'⟩ := h.silent hb
    obtain ⟨rfl, hb''⟩ := h'.silent hb'
    exact ⟨rfl, hb''⟩
  whole hb := by
    have hb' : s'.broken = false := by
      by_contra hbroken
      have hsilent := h'.silent (by simpa using hbroken)
      simp [hsilent.2] at hb
    rw [h.whole hb', h'.whole hb]

/-- What comes after a break is not said. -/
theorem cut (h : s.Says cells said s') (hb : s'.broken = true) (cells' : List Cell) :
    s.Says (cells ++ cells') said s' where
  taken := h.taken.trans (List.prefix_append _ _)
  input := h.input
  traffic := h.traffic
  silent := h.silent
  whole hw := by simp [hw] at hb

theorem fails {e : Errno} (he : e.interrupted = false) (s : Line) (cells : List Cell) :
    s.Says cells [] (s.fails e) where
  taken := List.nil_prefix
  input := by simp [Line.fails, he]
  traffic := by simp [Line.fails, he]
  silent _ := by simp [Line.fails, he]
  whole hw := by simp [Line.fails, he] at hw

theorem say (hb : s.broken = false) (cells : List Cell) : s.Says cells cells (s.say cells) where
  taken := List.prefix_rfl
  input := rfl
  traffic := rfl
  silent h := by simp [hb] at h
  whole _ := rfl

end Line.Says

section Sends
variable {S : Type} {st : S} {s : Line} {sock : ℤ}

theorem lineEnv_call {o : Op} {Q : Ans o → S → Line → Prop}
    (h : ∀ r, s.Carries sock o r → Q r st (s.note sock o r)) :
    Cmd.wlp (lineEnv sock) (sys o) Q st s := by
  rw [Cmd.wlp_call]
  refine ⟨trivial, ?_⟩
  rintro r _ ⟨rfl, hr⟩
  exact h r hr

theorem wireSendAll_replies (buf : List UInt8) :
    Cmd.wlp (lineEnv sock) (wireSendAll sock buf : Cmd S Op Ans Bool) (fun sent st' s' => st' = st ∧
      ∃ said, s.Says (plainCells buf) said s' ∧ (sent = false → s'.broken = true)) st s := by
  unfold wireSendAll
  apply Cmd.wlp_loop fun rest st' s' => st' = st ∧
    ∃ start said, buf = start ++ rest ∧ s.Says (plainCells start) said s'
  · exact ⟨rfl, [], [], rfl, .nil s⟩
  · rintro rest _ s' ⟨rfl, start, said, rfl, hsaid⟩
    have hbuf (bytes : List UInt8) : plainCells (start ++ bytes) =
        plainCells start ++ plainCells bytes := List.map_append
    simp only [Cmd.wlp_ite, Cmd.wlp_pure, Cmd.wlp_bind]
    constructor
    · rintro rfl
      rw [List.append_nil]
      exact ⟨trivial, said, hsaid, fun h => by cases h⟩
    · intro _
      apply lineEnv_call
      rintro (e | n) hcarries
      · simp only [Cmd.wlp_ite, Cmd.wlp_pure, Line.note]
        constructor
        · intro he
          have hsame : s'.fails e = s' := if_pos he
          rw [hsame]
          exact ⟨trivial, start, said, rfl, hsaid⟩
        · intro he
          have he' : e.interrupted = false := by simpa using he
          rw [hbuf]
          refine ⟨trivial, said ++ [], hsaid.append (.fails he' s' _), fun _ => ?_⟩
          simp [Line.fails, he']
      · obtain ⟨hb, hpos, -⟩ := hcarries n rfl
        simp only [Cmd.wlp_ite, Cmd.wlp_pure, Line.note]
        refine ⟨fun h0 => absurd h0 hpos.ne', fun _ => ⟨trivial, start ++ rest.take n,
          said ++ plainCells (rest.take n), ?_, ?_⟩⟩
        · rw [List.append_assoc, List.take_append_drop]
        · rw [hbuf]
          exact hsaid.append (.say hb _)

theorem wireSendFd_replies (fd : ℤ) (buf : List UInt8) :
    Cmd.wlp (lineEnv sock) (wireSendFd sock fd buf : Cmd S Op Ans Bool) (fun _ st' s' => st' = st ∧
      ∃ said, s.Says (passedCells fd buf) said s') st s := by
  unfold wireSendFd
  rw [Cmd.wlp_bind]
  apply Cmd.wlp_loop fun _ st' s' => st' = st ∧ s' = s
  · exact ⟨rfl, rfl⟩
  · rintro _ _ _ ⟨rfl, rfl⟩
    rw [Cmd.wlp_bind]
    apply lineEnv_call
    rintro (e | n) hcarries
    · simp only [Cmd.wlp_ite, Cmd.wlp_pure, Line.note]
      constructor
      · intro he
        exact ⟨trivial, if_pos he⟩
      · intro he
        exact ⟨rfl, [], .fails (by simpa using he) _ _⟩
    · obtain ⟨hb, hpos, -⟩ := hcarries n rfl
      have hsay := Line.Says.say hb (passedCells fd (buf.take n))
      have hbuf : passedCells fd buf = passedCells fd (buf.take n) ++ plainCells (buf.drop n) := by
        rw [passedCells_take, passedCells_drop hpos, List.take_append_drop]
      simp only [Cmd.wlp_pure, Sum.elim_inr, Cmd.wlp_ite, Line.note]
      constructor
      · intro _
        apply Cmd.wlp_mono (wireSendAll_replies _)
        rintro _ _ s' ⟨rfl, said, hsaid, -⟩
        rw [hbuf]
        exact ⟨rfl, _, hsay.append hsaid⟩
      · intro hfull
        rw [List.take_of_length_le (not_lt.mp hfull)] at hsay ⊢
        exact ⟨trivial, _, hsay⟩

end Sends

/-! What is done without the socket -/

/-- Nothing passes the socket. -/
def Silent (x y : Helper × Line) : Prop := y.2 = x.2

instance : IsPreorder (Helper × Line) Silent where
  refl _ := rfl
  trans _ _ _ h h' := h'.trans h

section Silent
variable {α : Type} {sock : ℤ} {isVirtio : Bool}

theorem silent_reads {c : H α} (hc : Cmd.Reads KmsOp c) : Cmd.Follows (lineEnv sock) Silent c := by
  apply Cmd.Follows.of_reads hc
  intro _ s o ho
  refine ⟨trivial, ?_⟩
  rintro r s' ⟨hs, -⟩
  cases o <;> first
    | exact ho.elim
    | exact hs

theorem silent_onHeap (f : Heap → Option (α × Heap)) :
    Cmd.Follows (lineEnv sock) Silent (onHeap f : H α) := by
  intro _ _
  rw [wlp_onHeap]
  exact fun _ _ _ => rfl

/-- A call that is none on the socket. -/
theorem silent_call {o : Op} (ho : ∀ s r, Line.note sock s o r = s) :
    Cmd.Follows (lineEnv sock) Silent (sys o : H (Ans o)) :=
  .call fun _ s => ⟨trivial, fun r _ hs => hs.1.trans (ho s r)⟩

theorem silent_close {fd : ℕ} (hfd : (fd : ℤ) ≠ sock) :
    Cmd.Follows (lineEnv sock) Silent (sys (.close fd) : H Unit) :=
  silent_call fun _ _ => if_neg hfd

theorem silent_gemClose (handle : UInt32) :
    Cmd.Follows (lineEnv sock) Silent (helperGemClose handle) :=
  .ite (.pure ()) (silent_call fun _ _ => rfl)

theorem silent_mmap (src : MapSource) (size off : ℕ) :
    Cmd.Follows (lineEnv sock) Silent (mmap src size off : H (Except Errno Slice)) := by
  apply Cmd.Follows.bind (silent_call fun _ r => by cases r <;> rfl)
  intro r
  cases r with
  | error e => exact .pure _
  | ok bytes => exact silent_onHeap _

theorem silent_munmap (mapped : Slice) :
    Cmd.Follows (lineEnv sock) Silent (munmap mapped : H Unit) :=
  .bind (silent_call fun _ _ => rfl) fun _ => silent_onHeap _

/-- A descriptor that an export gives is not the socket. -/
theorem silent_export {handle : UInt32} {f : Except Errno ℕ → H α}
    (herror : ∀ e, Cmd.Follows (lineEnv sock) Silent (f (.error e)))
    (hok : ∀ fd : ℕ, (fd : ℤ) ≠ sock → Cmd.Follows (lineEnv sock) Silent (f (.ok fd))) :
    Cmd.Follows (lineEnv sock) Silent (do
      let r ← sys (.primeHandleToFD handle)
      f r) := by
  intro p s
  rw [Cmd.wlp_bind]
  apply lineEnv_call
  intro r hr
  cases r with
  | error e => exact herror e p s
  | ok fd => exact hok fd (hr fd rfl) p s

theorem silent_planeIsPrimary (id : UInt32) :
    Cmd.Follows (lineEnv sock) Silent (planeIsPrimary id) := by
  apply Cmd.Follows.bind .get
  intro p
  cases p.primaryIds with
  | some ids => exact .pure _
  | none =>
    apply Cmd.Follows.bind (silent_reads probePrimaryIds_reads)
    intro ids
    exact .bind (.modify fun _ _ => rfl) fun _ => .pure _

theorem silent_matchFramebuffer (targetCrtc : UInt32) (ids : List UInt32)
    (found : UInt32 × UInt32) :
    Cmd.Follows (lineEnv sock) Silent (matchFramebuffer targetCrtc ids found) := by
  induction ids generalizing found with
  | nil => exact .pure found
  | cons id ids ih =>
    apply Cmd.Follows.bind (silent_call fun _ r => by cases r <;> rfl)
    intro r
    cases r with
    | none => exact ih found
    | some plane =>
      apply Cmd.Follows.ite (ih found)
      apply Cmd.Follows.bind (silent_planeIsPrimary _)
      intro isPrimary
      apply Cmd.Follows.ite (.pure _)
      exact .ite (ih _) (ih found)

theorem silent_refreshVirtio (fb2 : Fb2) :
    Cmd.Follows (lineEnv sock) Silent (refreshVirtio isVirtio fb2) := by
  apply Cmd.Follows.ite
  · apply Cmd.Follows.bind (silent_call fun _ r => by cases r <;> rfl)
    intro r
    cases r with
    | some _ => exact .pure ()
    | none => exact .bind (silent_call fun _ r => by cases r <;> rfl) fun _ => .pure ()
  · exact .pure ()

theorem silent_detectVirtio : Cmd.Follows (lineEnv sock) Silent (detectVirtio isVirtio) := by
  apply Cmd.Follows.bind .get
  intro p
  apply Cmd.Follows.ite
  · exact .bind (silent_call fun _ r => by cases r <;> rfl) fun _ => .modify fun _ _ => rfl
  · exact .pure ()

theorem silent_buildMeta (fbId matchedCrtc : UInt32) (fb2 : Fb2) :
    Cmd.Follows (lineEnv sock) Silent (buildMeta fbId matchedCrtc fb2) := by
  have hbump : Cmd.Follows (lineEnv sock) Silent (modify Helper.bumpSeq : H PUnit) :=
    .modify fun _ _ => rfl
  apply Cmd.Follows.bind (silent_reads (readHdr_reads _))
  intro hdr
  apply Cmd.Follows.bind hbump
  intro _
  apply Cmd.Follows.bind (silent_call fun _ _ => rfl)
  intro timestamp
  exact .bind .get fun p => .pure _

theorem silent_readCursor (mapped : Slice) (fd : ℕ) (fb2 : Fb2) :
    Cmd.Follows (lineEnv sock) Silent (readCursor mapped fd fb2) := by
  apply Cmd.Follows.bind (silent_call fun _ _ => rfl)
  intro started
  apply Cmd.Follows.bind (silent_onHeap _)
  intro pixels
  exact .ite (.bind (silent_call fun _ _ => rfl) fun _ => .pure _) (.pure _)

theorem silent_lookFb (placement : CursorPlacement) (fb2 : Fb2) :
    Cmd.Follows (lineEnv sock) Silent (lookFb placement fb2) := by
  unfold lookFb
  split
  · exact .bind (silent_gemClose _) fun _ => .pure _
  · unfold mapCursor
    simp only [bind_assoc]
    apply silent_export
    · intro e
      simp only [pure_bind]
      exact .bind (silent_gemClose _) fun _ => .pure _
    · intro fd hfd
      simp only [bind_assoc]
      apply Cmd.Follows.bind (silent_mmap _ _ _)
      intro r
      cases r with
      | error e =>
        simp only [bind_assoc, pure_bind]
        apply Cmd.Follows.bind (silent_close hfd)
        intro _
        exact .bind (silent_gemClose _) fun _ => .pure _
      | ok mapped =>
        simp only [pure_bind]
        apply Cmd.Follows.bind (silent_readCursor mapped fd fb2)
        intro pixels
        apply Cmd.Follows.bind (silent_munmap mapped)
        intro _
        apply Cmd.Follows.bind (silent_close hfd)
        intro _
        exact .bind (silent_gemClose _) fun _ => .pure _

theorem silent_lookCursor (targetCrtc : UInt32) :
    Cmd.Follows (lineEnv sock) Silent (lookCursor targetCrtc) := by
  apply Cmd.Follows.bind (silent_call fun _ r => by cases r <;> rfl)
  intro r
  cases r with
  | error e => exact .pure _
  | ok planes =>
    apply Cmd.Follows.bind (silent_reads (matchCursor_reads targetCrtc planes))
    intro found
    apply Cmd.Follows.ite (.pure _)
    apply Cmd.Follows.bind (silent_reads (lookPlacement_reads _))
    intro placement
    apply Cmd.Follows.bind (silent_call fun _ r => by cases r <;> rfl)
    intro r
    cases r with
    | error e => exact .pure _
    | ok fb2 => exact .ite (.pure _) (silent_lookFb placement fb2)

end Silent

/-! What is said -/

/-- A reply of a shape is said, as far as the socket takes it. -/
def Line.Replies (s : Line) (shape : List Cell → Prop) (s' : Line) : Prop :=
  ∃ reply said, shape reply ∧ s.Says reply said s'

/-- Code that says one reply of a shape. -/
abbrev SaysOne {α : Type} (sock : ℤ) (shape : List Cell → Prop) (c : H α) : Prop :=
  ∀ p s, Cmd.wlp (lineEnv sock) c (fun _ _ s' => s.Replies shape s') p s

section Replies
variable {α β : Type} {sock : ℤ} {isVirtio : Bool} {shape : List Cell → Prop}

/-- What is silent may be done before. -/
theorem SaysOne.after {c : H α} {f : α → H β} {P : α → Prop}
    (hc : Cmd.Follows (lineEnv sock) Silent c) (hy : Cmd.Yields c P)
    (hf : ∀ a, P a → SaysOne sock shape (f a)) : SaysOne sock shape (c >>= f) := by
  intro p s
  rw [Cmd.wlp_bind]
  apply Cmd.wlp_mono (hy.wlp (hc p s))
  rintro a p' _ ⟨ha, rfl⟩
  exact hf a ha p' _

theorem SaysOne.silent_bind {c : H α} {f : α → H β} (hc : Cmd.Follows (lineEnv sock) Silent c)
    (hf : ∀ a, SaysOne sock shape (f a)) : SaysOne sock shape (c >>= f) :=
  .after (P := fun _ => True) hc (fun _ _ _ _ _ _ _ => trivial) fun a _ => hf a

/-- And after. -/
theorem SaysOne.before {c : H α} {f : α → H β} (hc : SaysOne sock shape c)
    (hf : ∀ a, Cmd.Follows (lineEnv sock) Silent (f a)) : SaysOne sock shape (c >>= f) := by
  intro p s
  rw [Cmd.wlp_bind]
  apply Cmd.wlp_mono (hc p s)
  intro a p' s' hs
  apply Cmd.wlp_mono (hf a p' s')
  rintro b p'' _ rfl
  exact hs

theorem SaysOne.ite {c : Prop} [Decidable c] {m m' : H α} (hm : c → SaysOne sock shape m)
    (hm' : ¬ c → SaysOne sock shape m') : SaysOne sock shape (if c then m else m') := by
  split
  next h => exact hm h
  next h => exact hm' h

theorem sendError_replies : SaysOne sock GrabReplied (sendError sock) := by
  intro p s
  unfold sendError
  rw [Cmd.wlp_bind]
  apply Cmd.wlp_mono (wireSendAll_replies _)
  rintro sent _ s' ⟨-, said, hsaid, -⟩
  exact ⟨_, said, .refused, hsaid⟩

/-- A record of a framebuffer, before it is said how its pixels come. -/
structure GrabWire.Describes (wire : GrabWire) (fb2 : Fb2) : Prop where
  stride : wire.stride = fb2.pitches 0
  height : wire.height = fb2.height

theorem buildMeta_describes (fbId matchedCrtc : UInt32) (fb2 : Fb2) :
    Cmd.Yields (buildMeta fbId matchedCrtc fb2) fun wire => wire.Describes fb2 := by
  apply Cmd.Yields.call_bind
  intro hdr
  apply Cmd.Yields.call_bind
  intro _
  apply Cmd.Yields.call_bind
  intro timestamp
  apply Cmd.Yields.call_bind
  intro p
  exact .pure ⟨rfl, rfl⟩

theorem sendPixels_replies {wire : GrabWire} {fb2 : Fb2} (hwire : wire.Describes fb2)
    (hgood : ¬ badFramebuffer fb2) (handle : UInt32) :
    SaysOne sock GrabReplied
      (sendPixels sock handle ((fb2.pitches 0).toNat * fb2.height.toNat) wire) := by
  obtain ⟨hpitch, hheight, hmax⟩ : fb2.pitches 0 ≠ 0 ∧ fb2.height ≠ 0 ∧
      fb2.height.toNat ≤ drmtapMaxFbBytes / (fb2.pitches 0).toNat := by
    simpa [badFramebuffer] using hgood
  have hpitch0 : 0 < (fb2.pitches 0).toNat := Nat.pos_of_ne_zero fun h =>
    hpitch (UInt32.toNat_inj.mp h)
  have hheight0 : 0 < fb2.height.toNat := Nat.pos_of_ne_zero fun h =>
    hheight (UInt32.toNat_inj.mp h)
  have hpos : 0 < (fb2.pitches 0).toNat * fb2.height.toNat := Nat.mul_pos hpitch0 hheight0
  have hle : (fb2.pitches 0).toNat * fb2.height.toNat ≤ drmtapMaxFbBytes := by
    rw [Nat.mul_comm]
    exact (Nat.le_div_iff_mul_le hpitch0).mp hmax
  have hmax32 : drmtapMaxFbBytes < UInt32.size := by decide
  have hsize : (UInt32.ofNat ((fb2.pitches 0).toNat * fb2.height.toNat)).toNat =
      (fb2.pitches 0).toNat * fb2.height.toNat :=
    UInt32.toNat_ofNat_of_lt' (hle.trans_lt hmax32)
  have hshape (pixels : List UInt8)
      (hlen : pixels.length = (fb2.pitches 0).toNat * fb2.height.toNat) :
      GrabReplied (plainCells ({ wire with
        flags := 0, dataSize := UInt32.ofNat ((fb2.pitches 0).toNat * fb2.height.toNat) }
          : GrabWire).encode ++ plainCells pixels) := by
    have hcells := GrabReplied.pixels { wire with
      flags := 0, dataSize := UInt32.ofNat ((fb2.pitches 0).toNat * fb2.height.toNat) } pixels rfl
      (hlen.trans hsize.symm) (hpos.trans_eq hlen.symm)
      (by rw [hwire.stride, hwire.height]; exact hsize)
    rwa [plainCells, List.map_append] at hcells
  apply SaysOne.silent_bind (silent_call fun _ r => by cases r <;> rfl)
  intro r
  cases r with
  | error e => exact sendError_replies
  | ok off =>
    apply SaysOne.silent_bind (silent_mmap _ _ _)
    intro r
    cases r with
    | error e => exact sendError_replies
    | ok mapped =>
      intro p s
      rw [Cmd.wlp_bind]
      apply Cmd.wlp_mono (wireSendAll_replies _)
      rintro sent _ s₁ ⟨rfl, said, hsaid, hfailed⟩
      rw [Cmd.wlp_ite]
      constructor
      · intro _
        rw [Cmd.wlp_bind, wlp_onHeap]
        intro pixels h hload
        obtain ⟨bytes, hbytes, heq⟩ := Option.map_eq_some_iff.mp hload
        cases heq
        rw [Cmd.wlp_bind]
        apply Cmd.wlp_mono (wireSendAll_replies pixels)
        rintro sent' _ s₂ ⟨rfl, said', hsaid', -⟩
        apply Cmd.wlp_mono (Cmd.Follows.bind (silent_munmap mapped) (fun _ => .pure _) _ _)
        rintro _ _ _ rfl
        exact ⟨_, _, hshape pixels (Heap.load_isSome hbytes).2, hsaid.append hsaid'⟩
      · intro hsent
        have hbroken : s₁.broken = true := hfailed (by simpa using hsent)
        apply Cmd.wlp_mono (Cmd.Follows.bind (silent_munmap mapped) (fun _ => .pure _) _ _)
        rintro _ _ _ rfl
        exact ⟨_, said, hshape (List.replicate _ 0) List.length_replicate, hsaid.cut hbroken _⟩

theorem sendFramebuffer_replies {wire : GrabWire} {fb2 : Fb2} (hwire : wire.Describes fb2)
    (hgood : ¬ badFramebuffer fb2) (handle : UInt32) :
    SaysOne sock GrabReplied (sendFramebuffer sock isVirtio handle
      ((fb2.pitches 0).toNat * fb2.height.toNat) wire) := by
  have hflag : helperFlagHasDmabuf &&& helperFlagHasDmabuf ≠ 0 := by decide
  have hflags : (helperFlagHasDmabuf ||| helperFlagVirgl) &&& helperFlagHasDmabuf ≠ 0 := by decide
  apply SaysOne.ite
  · intro _
    apply SaysOne.silent_bind .get
    intro p' p s
    rw [Cmd.wlp_bind]
    apply lineEnv_call
    intro r hr
    cases r with
    | error e =>
      have hrest : SaysOne sock GrabReplied (if p'.virtioVirgl then sendError sock
          else sendPixels sock handle ((fb2.pitches 0).toNat * fb2.height.toNat) wire) :=
        .ite (fun _ => sendError_replies) fun _ => sendPixels_replies hwire hgood handle
      exact hrest p s
    | ok fd =>
      show Cmd.wlp _ _ _ p s
      rw [Cmd.wlp_bind]
      apply Cmd.wlp_mono (wireSendFd_replies _ _)
      rintro sent _ s' ⟨rfl, said, hsaid⟩
      apply Cmd.wlp_mono (Cmd.Follows.bind (silent_close (hr fd rfl)) (fun _ => .pure _) _ _)
      rintro _ _ _ rfl
      refine ⟨_, said, .passed _ fd ?_ rfl, hsaid⟩
      dsimp only
      split
      · exact hflags
      · exact hflag
  · intro _
    exact sendPixels_replies hwire hgood handle

theorem serveFramebuffer_replies (fbId matchedCrtc : UInt32) {fb2 : Fb2}
    (hgood : ¬ badFramebuffer fb2) :
    SaysOne sock GrabReplied (serveFramebuffer sock isVirtio fbId matchedCrtc fb2) := by
  apply SaysOne.silent_bind (silent_refreshVirtio fb2)
  intro _
  apply SaysOne.silent_bind silent_detectVirtio
  intro _
  apply SaysOne.after (silent_buildMeta _ _ _) (buildMeta_describes fbId matchedCrtc fb2)
  intro wire hwire
  exact sendFramebuffer_replies hwire hgood _

theorem grabFramebuffer_replies (fbId matchedCrtc : UInt32) :
    SaysOne sock GrabReplied (grabFramebuffer sock isVirtio fbId matchedCrtc) := by
  apply SaysOne.silent_bind (silent_call fun _ r => by cases r <;> rfl)
  intro r
  cases r with
  | error e => exact sendError_replies
  | ok fb2 =>
    apply SaysOne.ite (fun _ => sendError_replies)
    intro _
    apply SaysOne.ite
    · intro _
      exact .silent_bind (silent_gemClose _) fun _ => sendError_replies
    · intro hgood
      exact .before (serveFramebuffer_replies fbId matchedCrtc hgood) fun _ =>
        .bind (silent_gemClose _) fun _ => .pure _

theorem grabAndSend_replies (targetCrtc : UInt32) :
    SaysOne sock GrabReplied (grabAndSend sock targetCrtc isVirtio) := by
  apply SaysOne.silent_bind (silent_call fun _ r => by cases r <;> rfl)
  intro r
  cases r with
  | error e => exact sendError_replies
  | ok planes =>
    apply SaysOne.silent_bind (silent_matchFramebuffer _ _ _)
    intro found
    exact .ite (fun _ => sendError_replies) fun _ => grabFramebuffer_replies _ _

/-! Cursors -/

/-- What was read of a cursor is all of its pixels. -/
def CursorLook.Packed : CursorLook → Prop
  | .read _ fb2 pixels _ => pixels.length = fb2.width.toNat * fb2.height.toNat * 4
  | _ => True

theorem packCursor_length {mapped : Slice} {width height stride : ℕ} {h : Heap}
    {packed : List UInt8} (hpack : packCursor mapped width height stride h = some packed) :
    packed.length = width * height * 4 := by
  have hrows (rows : List ℕ) : ∀ start packed, rows.foldlM (fun packed y =>
      (h.load mapped (y * stride) (width * 4)).map (packed ++ ·)) start = some packed →
      packed.length = start.length + rows.length * (width * 4) := by
    induction rows with
    | nil =>
      intro start packed hfold
      cases hfold
      simp
    | cons y rows ih =>
      intro start packed hfold
      rw [List.foldlM_cons] at hfold
      obtain ⟨next, hrow, hrest⟩ := Option.bind_eq_some_iff.mp hfold
      obtain ⟨row, hload, rfl⟩ := Option.map_eq_some_iff.mp hrow
      rw [ih _ _ hrest, List.length_append, (Heap.load_isSome hload).2, List.length_cons]
      ring
  rw [hrows _ _ _ hpack, List.length_range, List.length_nil]
  ring

theorem readCursor_packed (mapped : Slice) (fd : ℕ) (fb2 : Fb2) :
    Cmd.Yields (readCursor mapped fd fb2) fun pixels =>
      pixels.length = fb2.width.toNat * fb2.height.toNat * 4 := by
  have hpack : Cmd.Yields (onHeap fun h => (packCursor mapped fb2.width.toNat fb2.height.toNat
      (fb2.pitches 0).toNat h).map (·, h) : H (List UInt8)) fun pixels =>
        pixels.length = fb2.width.toNat * fb2.height.toNat * 4 := by
    intro E p s pixels p' s' hr
    have hwlp : Cmd.wlp E (onHeap fun h => (packCursor mapped fb2.width.toNat fb2.height.toNat
        (fb2.pitches 0).toNat h).map (·, h) : H (List UInt8)) (fun pixels _ _ =>
          pixels.length = fb2.width.toNat * fb2.height.toNat * 4) p s := by
      rw [wlp_onHeap]
      intro pixels h hpack
      obtain ⟨packed, hpacked, heq⟩ := Option.map_eq_some_iff.mp hpack
      cases heq
      exact packCursor_length hpacked
    exact Cmd.wlp_runs hwlp hr
  unfold readCursor
  apply Cmd.Yields.call_bind
  intro started
  refine Cmd.Yields.bind hpack fun pixels hlen => ?_
  exact .ite (.call_bind fun _ => .pure hlen) (.pure hlen)

theorem lookCursor_packed (targetCrtc : UInt32) :
    Cmd.Yields (lookCursor targetCrtc) CursorLook.Packed := by
  unfold lookCursor
  apply Cmd.Yields.call_bind
  intro r
  cases r with
  | error e => exact .pure trivial
  | ok planes =>
    apply Cmd.Yields.call_bind
    intro found
    refine Cmd.Yields.ite (.pure trivial) ?_
    apply Cmd.Yields.call_bind
    intro placement
    apply Cmd.Yields.call_bind
    intro r
    cases r with
    | error e => exact .pure trivial
    | ok fb2 =>
      refine Cmd.Yields.ite (.pure trivial) ?_
      unfold lookFb
      split
      · exact .call_bind fun _ => .pure trivial
      · apply Cmd.Yields.call_bind
        intro found
        rcases found with _ | ⟨mapped, fd⟩
        · exact .call_bind fun _ => .pure trivial
        · refine Cmd.Yields.bind (readCursor_packed mapped fd fb2) fun pixels hlen => ?_
          exact .call_bind fun _ => .call_bind fun _ => .call_bind fun _ => .pure hlen

theorem sendLook_replies {extended : Bool} {look : CursorLook} (hlook : look.Packed) :
    SaysOne sock (CursorReplied extended) (sendLook sock extended look) := by
  intro p s
  unfold sendLook sendCursorMeta
  rw [Cmd.wlp_bind]
  apply Cmd.wlp_mono (wireSendAll_replies _)
  rintro sent _ s₁ ⟨rfl, said, hsaid, -⟩
  cases look with
  | absent => exact ⟨_, said, .hidden _ rfl rfl, hsaid⟩
  | unread placement => exact ⟨_, said, .hidden _ rfl rfl, hsaid⟩
  | unmapped placement fb2 => exact ⟨_, said, .hidden _ rfl rfl, hsaid⟩
  | read placement fb2 pixels hgood =>
    obtain ⟨hwidth, hheight, -, -⟩ : fb2.width ≤ 256 ∧ fb2.height ≤ 256 ∧ fb2.pitches 0 ≠ 0 ∧
        fb2.width * 4 ≤ fb2.pitches 0 := not_not.mp hgood
    have hwidth' : fb2.width.toNat ≤ 256 := hwidth
    have hheight' : fb2.height.toNat ≤ 256 := hheight
    have hmul : fb2.width.toNat * fb2.height.toNat ≤ 256 * 256 := Nat.mul_le_mul hwidth' hheight'
    have hsize : (UInt32.ofNat (fb2.width.toNat * fb2.height.toNat * 4)).toNat =
        fb2.width.toNat * fb2.height.toNat * 4 := by
      apply UInt32.toNat_ofNat_of_lt'
      have h32 : 256 * 256 * 4 < UInt32.size := by decide
      omega
    rw [Cmd.wlp_bind]
    apply Cmd.wlp_mono (wireSendAll_replies pixels)
    rintro sent' _ s₂ ⟨rfl, said', hsaid', -⟩
    have hcells : CursorReplied extended (plainCells
        ((CursorLook.read placement fb2 pixels hgood).record.encode extended ++ pixels)) :=
      .visible _ pixels rfl (hlook.trans hsize.symm) hsize
    rw [plainCells, List.map_append] at hcells
    exact ⟨_, _, hcells, hsaid.append hsaid'⟩

theorem cursorAndSend_replies (targetCrtc : UInt32) (extended : Bool) :
    SaysOne sock (CursorReplied extended) (cursorAndSend sock targetCrtc extended) := by
  rw [cursorAndSend_eq]
  apply SaysOne.after (silent_lookCursor targetCrtc) (lookCursor_packed targetCrtc)
  exact fun look hlook => sendLook_replies hlook

end Replies

/-! The loop -/

section Loop
variable {sock : ℤ} {isVirtio : Bool} {input : List UInt8}

/-- Bytes are heard: as many as were asked for, unless the stream ends or fails before. -/
theorem wireRecvAll_hears_line {S : Type} {st : S} {s : Line} {len : ℕ} :
    Cmd.wlp (lineEnv sock) (wireRecvAll sock len : Cmd S Op Ans _) (fun r st' s' => st' = st ∧
      ∃ got, got <+: s.input ∧ got.length ≤ len ∧ s'.input = s.input.drop got.length ∧
        s'.traffic = s.traffic ++ got.map .heard ∧
        (∀ bytes, r = some bytes → bytes = got ∧ got.length = len ∧ s'.broken = s.broken) ∧
        (r = none → s'.broken = false → s.broken = false ∧ got = s.input ∧ got.length < len))
      st s := by
  unfold wireRecvAll
  apply Cmd.wlp_loop fun got st' s' => st' = st ∧ got <+: s.input ∧ got.length ≤ len ∧
    s' = s.hear got
  · exact ⟨rfl, List.nil_prefix, Nat.zero_le len, by simp [Line.hear]⟩
  · rintro got _ _ ⟨rfl, hgot, hlen, rfl⟩
    simp only [Cmd.wlp_ite, Cmd.wlp_pure, Cmd.wlp_bind]
    constructor
    · intro hfull
      refine ⟨trivial, got, hgot, hlen, rfl, rfl, ?_, by simp⟩
      rintro bytes ⟨rfl⟩
      exact ⟨rfl, by omega, rfl⟩
    · intro hshort
      apply lineEnv_call
      rintro (e | bytes) hcarries
      · simp only [Cmd.wlp_ite, Cmd.wlp_pure, Line.note]
        constructor
        · intro he
          exact ⟨trivial, hgot, hlen, if_pos he⟩
        · intro he
          have hfails : (s.hear got).fails e = { s.hear got with broken := true } := if_neg he
          rw [hfails]
          exact ⟨trivial, got, hgot, hlen, rfl, rfl, by simp, by simp⟩
      · obtain ⟨hbytes, hpre, hend⟩ := hcarries bytes rfl
        simp only [Cmd.wlp_ite, Cmd.wlp_pure, Line.note]
        constructor
        · rintro rfl
          have hnil : s.input.drop got.length = [] := hend rfl
          have hsame : (s.hear got).hear [] = s.hear got := by simp [Line.hear]
          rw [hsame]
          refine ⟨trivial, got, hgot, hlen, rfl, rfl, by simp, fun _ hb => ⟨hb, ?_, by omega⟩⟩
          exact hgot.eq_of_length_le (List.drop_eq_nil_iff.mp hnil)
        · intro _
          obtain ⟨rest, hrest⟩ := hgot
          have hdrop : (s.hear got).input = rest := by
            show s.input.drop got.length = rest
            rw [← hrest, List.drop_left]
          refine ⟨trivial, ?_, ?_, ?_⟩
          · rw [← hrest]
            rw [hdrop] at hpre
            exact (List.prefix_append_right_inj got).mpr hpre
          · rw [List.length_append]
            omega
          · simp [Line.hear, List.drop_drop]

/-- The frames that were served so far, and what was said to them. -/
structure Line.Served (input : List UInt8) (turns : List Turn) (s : Line) : Prop where
  input : input = turns.flatMap Turn.command ++ s.input
  traffic : s.traffic = turns.flatMap Turn.traffic
  frame : ∀ t ∈ turns, t.command.length = sizeofHelperCmd ∧ Dispatched t.command
  replied : ∀ t ∈ turns, WholeReply t.cmd.type t.reply
  inOrder : turns.flatMap Turn.said <+: turns.flatMap Turn.reply
  whole : s.broken = false → ∀ t ∈ turns, t.said = t.reply

theorem dispatchedFrames_append {turns : List Turn} (rest : List UInt8)
    (h : ∀ t ∈ turns, t.command.length = sizeofHelperCmd ∧ Dispatched t.command) :
    dispatchedFrames (turns.flatMap Turn.command ++ rest) =
      turns.map Turn.command ++ dispatchedFrames rest := by
  induction turns with
  | nil => rfl
  | cons t turns ih =>
    obtain ⟨hlen, hdisp⟩ := h t List.mem_cons_self
    have htake : ((t :: turns).flatMap Turn.command ++ rest).take sizeofHelperCmd = t.command := by
      rw [List.flatMap_cons, List.append_assoc, ← hlen, List.take_left]
    have hdrop : ((t :: turns).flatMap Turn.command ++ rest).drop sizeofHelperCmd =
        turns.flatMap Turn.command ++ rest := by
      rw [List.flatMap_cons, List.append_assoc, ← hlen, List.drop_left]
    have hle : sizeofHelperCmd ≤ ((t :: turns).flatMap Turn.command ++ rest).length := by
      simp [hlen]
    rw [dispatchedFrames, htake, hdrop, dif_pos ⟨hle, hdisp⟩,
      ih fun t ht => h t (List.mem_cons_of_mem _ ht)]
    rfl

/-- What is left of the input once the last frame was served: not a frame that is dispatched. -/
structure Line.Ended (input : List UInt8) (turns : List Turn) (tail : List UInt8) (s : Line) :
    Prop where
  traffic : s.traffic = turns.flatMap Turn.traffic ++ tail.map .heard
  heard : turns.flatMap Turn.command ++ tail <+: input
  tail : tail.length ≤ sizeofHelperCmd
  frames : turns.map Turn.command <+: dispatchedFrames input
  frame : ∀ t ∈ turns, t.command.length = sizeofHelperCmd ∧ Dispatched t.command
  replied : ∀ t ∈ turns, WholeReply t.cmd.type t.reply
  inOrder : turns.flatMap Turn.said <+: turns.flatMap Turn.reply
  whole : s.broken = false → turns.map Turn.command = dispatchedFrames input ∧
    ∀ t ∈ turns, t.said = t.reply

theorem Line.Served.ends {turns : List Turn} {s s' : Line} {got : List UInt8}
    (h : s.Served input turns) (hgot : got <+: s.input) (hlen : got.length ≤ sizeofHelperCmd)
    (htraffic : s'.traffic = s.traffic ++ got.map .heard)
    (hlast : s'.broken = false → s.broken = false ∧ dispatchedFrames s.input = []) :
    s'.Ended input turns got where
  traffic := by rw [htraffic, h.traffic]
  heard := by
    rw [h.input]
    exact (List.prefix_append_right_inj _).mpr hgot
  tail := hlen
  frames := by
    rw [h.input, dispatchedFrames_append s.input h.frame]
    exact List.prefix_append _ _
  frame := h.frame
  replied := h.replied
  inOrder := h.inOrder
  whole hb := by
    obtain ⟨hb', hnone⟩ := hlast hb
    refine ⟨?_, h.whole hb'⟩
    rw [h.input, dispatchedFrames_append s.input h.frame, hnone, List.append_nil]

theorem Line.Served.replies {turns : List Turn} {s s' s'' : Line} {command : List UInt8}
    (h : s.Served input turns) (hcommand : command <+: s.input)
    (hlen : command.length = sizeofHelperCmd) (hdisp : Dispatched command)
    (hinput : s'.input = s.input.drop command.length)
    (htraffic : s'.traffic = s.traffic ++ command.map .heard) (hbroken : s'.broken = s.broken)
    (hreplies : s'.Replies (WholeReply (HelperCmd.decode command).type) s'') :
    ∃ turn, s''.Served input (turns ++ [turn]) := by
  obtain ⟨reply, said, hreply, hsaid⟩ := hreplies
  refine ⟨⟨command, reply, said⟩, ?_⟩
  have hmem {P : Turn → Prop} (hall : ∀ t ∈ turns, P t) (hturn : P ⟨command, reply, said⟩) :
      ∀ t ∈ turns ++ [⟨command, reply, said⟩], P t := by
    intro t ht
    rcases List.mem_append.mp ht with ht | ht
    · exact hall t ht
    · rw [List.mem_singleton.mp ht]
      exact hturn
  constructor
  · obtain ⟨rest, hrest⟩ := hcommand
    rw [hsaid.input, hinput, ← hrest, List.drop_left, h.input, ← hrest]
    simp
  · rw [hsaid.traffic, htraffic, h.traffic]
    simp [Turn.traffic]
  · exact hmem h.frame ⟨hlen, hdisp⟩
  · exact hmem h.replied hreply
  · simp only [List.flatMap_append, List.flatMap_cons, List.flatMap_nil, List.append_nil]
    by_cases hb : s.broken = true
    · obtain ⟨rfl, -⟩ := hsaid.silent (hbroken.trans hb)
      rw [List.append_nil]
      exact h.inOrder.trans (List.prefix_append _ _)
    · have hsame : turns.flatMap Turn.said = turns.flatMap Turn.reply := by
        apply List.flatMap_congr
        exact h.whole (by simpa using hb)
      rw [hsame]
      exact (List.prefix_append_right_inj _).mpr hsaid.taken
  · intro hb
    have hb' : s.broken = false := by
      by_contra hbroken'
      have hs : s'.broken = true := hbroken.trans (by simpa using hbroken')
      have h' := (hsaid.silent hs).2
      simp [hb] at h'
    exact hmem (h.whole hb') (hsaid.whole hb)

/-- The types that are dispatched, by what is sent in reply. -/
theorem wholeReply_grab : WholeReply cmdGrab = GrabReplied := by
  funext reply
  exact if_pos rfl

theorem wholeReply_cursor : WholeReply cmdGetCursor = CursorReplied false := by
  funext reply
  exact if_neg (by decide)

theorem wholeReply_cursor2 : WholeReply cmdGetCursor2 = CursorReplied true := by
  funext reply
  exact if_neg (by decide)

/-- One turn of the loop serves a frame, or ends it. -/
theorem serveOne_turn {turns : List Turn} {p : Helper} {s : Line} (h : s.Served input turns) :
    Cmd.wlp (lineEnv sock) (serveOne sock isVirtio) (fun r _ s' => r.elim
      (fun _ => ∃ turns, s'.Served input turns) fun _ => ∃ turns tail, s'.Ended input turns tail)
      p s := by
  unfold serveOne
  rw [Cmd.wlp_bind]
  apply Cmd.wlp_mono wireRecvAll_hears_line
  rintro r _ s' ⟨rfl, got, hgot, hlen, hinput, htraffic, hsome, hnone⟩
  cases r with
  | none =>
    refine ⟨turns, got, h.ends hgot hlen htraffic fun hb => ?_⟩
    obtain ⟨hb', rfl, hshort⟩ := hnone rfl hb
    refine ⟨hb', ?_⟩
    rw [dispatchedFrames, dif_neg]
    intro hfull
    omega
  | some bytes =>
    obtain ⟨rfl, hfull, hbroken⟩ := hsome bytes rfl
    have htake : s.input.take sizeofHelperCmd = bytes := by
      rw [← hfull]
      exact (List.prefix_iff_eq_take.mp hgot).symm
    have hends (hdisp : ¬ Dispatched bytes) : s'.Ended input turns bytes := by
      refine h.ends hgot hlen htraffic fun hb => ⟨hbroken.symm.trans hb, ?_⟩
      rw [dispatchedFrames, dif_neg]
      rw [htake]
      exact fun hfull => hdisp hfull.2
    have hserved {type : UInt16} (hvalid : wireCmdValid (.decode bytes) = true)
        (htype : (HelperCmd.decode bytes).type = type) (hne : type ≠ cmdQuit) {s'' : Line}
        (hreplies : s'.Replies (WholeReply type) s'') : ∃ turns, s''.Served input turns := by
      obtain ⟨turn, hturn⟩ := h.replies hgot hfull ⟨hvalid, htype ▸ hne⟩ hinput htraffic hbroken
        (htype ▸ hreplies)
      exact ⟨_, hturn⟩
    simp only [Cmd.wlp_ite, Cmd.wlp_bind, Cmd.wlp_pure]
    constructor
    · intro hvalid
      exact ⟨turns, bytes, hends fun hdisp => hvalid hdisp.1⟩
    · intro hvalid
      have hvalid' : wireCmdValid (.decode bytes) = true := not_not.mp hvalid
      refine ⟨fun hgrab => ?_, fun hgrab => ⟨fun hcursor => ?_, fun hcursor =>
        ⟨fun hcursor2 => ?_, fun hcursor2 => ?_⟩⟩⟩
      · apply Cmd.wlp_mono (grabAndSend_replies _ _ s')
        intro _ _ s'' hreplies
        exact hserved hvalid' hgrab (by decide) (wholeReply_grab ▸ hreplies)
      · apply Cmd.wlp_mono (cursorAndSend_replies _ false _ s')
        intro _ _ s'' hreplies
        exact hserved hvalid' hcursor (by decide) (wholeReply_cursor ▸ hreplies)
      · apply Cmd.wlp_mono (cursorAndSend_replies _ true _ s')
        intro _ _ s'' hreplies
        exact hserved hvalid' hcursor2 (by decide) (wholeReply_cursor2 ▸ hreplies)
      · have hquit : (HelperCmd.decode bytes).type = cmdQuit := by
          simp only [wireCmdValid, Bool.and_eq_true, Bool.or_eq_true, decide_eq_true_eq] at hvalid'
          tauto
        exact ⟨turns, bytes, hends fun hdisp => hdisp.2 hquit⟩

/-- The helper serves what it is sent, and hangs up. -/
theorem helperMain_serves {p : Helper} :
    Cmd.wlp (lineEnv sock) (helperMain sock isVirtio) (fun _ _ s' =>
      ∃ (s : Line) (turns : List Turn) (tail : List UInt8),
        s' = s.hangUp ∧ s.Ended input turns tail) p (.start input) := by
  unfold helperMain
  rw [Cmd.wlp_bind]
  apply Cmd.wlp_loop fun _ _ (s : Line) => ∃ turns, s.Served input turns
  · refine ⟨[], rfl, rfl, ?_, ?_, List.prefix_rfl, ?_⟩ <;> simp
  · rintro _ p s ⟨turns, hs⟩
    apply Cmd.wlp_mono (serveOne_turn hs)
    rintro (_ | _) p' s' hs'
    · exact hs'
    · obtain ⟨turns', tail, hended⟩ := hs'
      rw [Sum.elim_inr]
      apply lineEnv_call
      rintro _ -
      exact ⟨s', turns', tail, if_pos rfl, hended⟩

end Loop

/-- A device that shows no planes, on a socket that moves all it can. -/
def barrenDevice (s : Line) : (o : Op) → Option (Ans o)
  | .recv _ len => if len = 0 then none else some (.ok (s.input.take len))
  | .send _ bytes => if s.broken ∨ bytes = [] then none else some (.ok bytes.length)
  | .getPlaneResources => some (.ok [])
  | .close _ => some ()
  | _ => none

def barrenStep (sock : ℤ) (s : Line) (o : Op) : Option (Ans o × Line) :=
  (barrenDevice s o).map fun r => (r, s.note sock o r)

theorem barrenStep_carries {sock : ℤ} {s s' : Line} {o : Op} {r : Ans o}
    (h : barrenStep sock s o = some (r, s')) : (lineEnv sock).step s o r s' := by
  obtain ⟨r', hr, heq⟩ := Option.map_eq_some_iff.mp h
  obtain ⟨rfl, rfl⟩ := Prod.mk.inj heq
  refine ⟨rfl, ?_⟩
  cases o with
  | recv fd len =>
    replace hr : (if len = 0 then none else some (.ok (s.input.take len))) = some r' := hr
    split_ifs at hr with hlen
    cases hr
    rintro bytes ⟨rfl⟩
    refine ⟨List.length_take_le _ _, List.take_prefix _ _, fun hnil => ?_⟩
    exact (List.take_eq_nil_iff.mp hnil).resolve_left hlen
  | send fd bytes =>
    replace hr : (if s.broken ∨ bytes = [] then none else some (.ok bytes.length)) = some r' := hr
    split_ifs at hr with hbad
    cases hr
    rintro n ⟨rfl⟩
    obtain ⟨hb, hne⟩ := not_or.mp hbad
    exact ⟨by simpa using hb, List.length_pos_iff.mpr hne, le_rfl⟩
  | sendmsg => cases hr
  | primeHandleToFD => cases hr
  | _ => trivial

/-- A grab, a cursor, and a frame that is none. -/
def threeFrames : List UInt8 :=
  (wireCmd cmdGrab 1).encode ++ (wireCmd cmdGetCursor 1).encode ++ List.replicate 16 0

theorem barrenDevice_serves : ((helperMain 3 false).exec 100 (barrenStep 3) .start
    (.start threeFrames)).map (fun x => (x.2.broken, x.2.traffic.length)) =
      some (false, 16 + 64 + 16 + 32 + 16 + 1) := by
  decide +kernel

theorem barrenDevice_runs : ∃ (p : Helper) (s : Line), s.broken = false ∧
    Cmd.Runs (lineEnv 3) (helperMain 3 false) .start (.start threeFrames) () p s := by
  obtain ⟨⟨⟨_, p⟩, s⟩, he, heq⟩ := Option.map_eq_some_iff.mp barrenDevice_serves
  refine ⟨p, s, (Prod.mk.inj heq).1, Cmd.exec_runs (E := lineEnv 3) ?_ he⟩
  exact fun _ _ _ _ => barrenStep_carries

/-- A peer is sent frames, one after another, and answers each of them. -/
inductive Stream.Serves : Stream → List (List UInt8) → Stream → Prop where
  | nil (s : Stream) : Serves s [] s
  | cons {s t u : Stream} {frame : List UInt8} {frames : List (List UInt8)}
      (h : Served s (s.inbox ++ frame) t) (ht : Serves t frames u) : Serves s (frame :: frames) u

def Traffic.saidByte : Traffic → Option UInt8
  | .said cell => some cell.byte
  | _ => none

/-- What was said, as bytes. -/
def Line.saidBytes (s : Line) : List UInt8 := s.traffic.filterMap Traffic.saidByte

theorem CursorWire.payload_decode (w : CursorWire) (extended : Bool) :
    (CursorWire.decode (w.encode extended)).payload = w.payload := by
  cases extended with
  | true =>
    have h := CursorWire.decode_encode w []
    rw [List.append_nil] at h
    rw [h]
  | false =>
    rw [CursorWire.decode_encode_legacy]
    rfl

/-- A whole reply is a head, and the body that it announces. -/
theorem WholeReply.split {type : UInt16} {reply : List Cell} (h : WholeReply type reply) :
    ∃ head body, reply.map Cell.byte = head ++ body ∧ head.length = replyHead type ∧
      body.length = replyBody type head := by
  have hdecode (w : GrabWire) : GrabWire.decode w.encode = w := by
    have h := GrabWire.decode_encode w []
    rwa [List.append_nil] at h
  have hgrab : GrabReplied reply → ∃ head body, reply.map Cell.byte = head ++ body ∧
      head.length = sizeofGrabWire ∧ body.length = (GrabWire.decode head).payload := by
    intro hreply
    cases hreply with
    | refused =>
      refine ⟨GrabWire.zero.encode, [], by simp, GrabWire.encode_length _, ?_⟩
      rw [hdecode]
      rfl
    | passed wire fd hflags hsize =>
      refine ⟨wire.encode, [], by simp, GrabWire.encode_length _, ?_⟩
      rw [hdecode, GrabWire.payload, if_pos hflags]
      rfl
    | pixels wire bytes hflags hlen hpos hsize =>
      refine ⟨wire.encode, bytes, by simp, GrabWire.encode_length _, ?_⟩
      rw [hdecode, GrabWire.payload, hflags, if_neg (by decide), hlen]
  have hcursor (extended : Bool) : CursorReplied extended reply →
      ∃ head body, reply.map Cell.byte = head ++ body ∧
        head.length = CursorWire.size extended ∧
          body.length = (CursorWire.decode head).payload := by
    intro hreply
    cases hreply with
    | hidden record hvisible hsize =>
      refine ⟨record.encode extended, [], by simp, CursorWire.encode_length _ _, ?_⟩
      rw [CursorWire.payload_decode, CursorWire.payload, hvisible]
      rfl
    | visible record pixels hvisible hlen hsize =>
      refine ⟨record.encode extended, pixels, by simp, CursorWire.encode_length _ _, ?_⟩
      rw [CursorWire.payload_decode, CursorWire.payload, hvisible, if_pos (by decide), hlen]
  unfold WholeReply at h
  unfold replyHead replyBody
  split_ifs at h ⊢ with htype'
  · exact hgrab h
  · exact hcursor _ h

theorem dispatched_type {frame : List UInt8} (h : Dispatched frame) :
    (HelperCmd.decode frame).type ∈ commandTypes := by
  obtain ⟨hvalid, hquit⟩ := h
  simp only [wireCmdValid, Bool.and_eq_true, Bool.or_eq_true, decide_eq_true_eq] at hvalid
  simp only [commandTypes, List.mem_cons, List.not_mem_nil, or_false]
  tauto

/-- Turns that were answered whole are what a peer makes of their commands. -/
theorem serves_turns {turns : List Turn}
    (hframe : ∀ t ∈ turns, t.command.length = sizeofHelperCmd ∧ Dispatched t.command)
    (hreplied : ∀ t ∈ turns, WholeReply t.cmd.type t.reply) (hwhole : ∀ t ∈ turns, t.said = t.reply)
    {s : Stream} (hs : s.inbox = []) : ∃ t : Stream, s.Serves (turns.map Turn.command) t ∧
      t.inbox = [] ∧ t.closed = s.closed ∧
        t.pending = s.pending ++ (turns.flatMap Turn.said).map Cell.byte := by
  induction turns generalizing s with
  | nil => exact ⟨s, .nil s, hs, rfl, by simp⟩
  | cons turn turns ih =>
    obtain ⟨hlen, hdisp⟩ := hframe turn List.mem_cons_self
    have htype := dispatched_type hdisp
    obtain ⟨head, body, hbytes, hhead, hbody⟩ :=
      (hreplied turn List.mem_cons_self).split
    have hserved : Served s (s.inbox ++ turn.command) _ := .answers head body
      (by simp [hs, hlen]) (by rw [hs]; exact hdisp.1) (by rw [hs]; exact htype)
      (by rw [hs]; exact hhead) (by rw [hs]; exact hbody)
    obtain ⟨u, hu, hinbox, hclosed, hpending⟩ :=
      ih (fun t ht => hframe t (List.mem_cons_of_mem _ ht))
        (fun t ht => hreplied t (List.mem_cons_of_mem _ ht))
        (fun t ht => hwhole t (List.mem_cons_of_mem _ ht))
        (s := { s with
          inbox := (s.inbox ++ turn.command).drop sizeofHelperCmd
          pending := s.pending ++ (head ++ body)
          drain := replyDrain (HelperCmd.decode (s.inbox ++ turn.command)).type head })
        (by simp [hs, hlen])
    refine ⟨u, .cons hserved hu, hinbox, hclosed, ?_⟩
    rw [hpending, List.flatMap_cons, List.map_append, hwhole turn List.mem_cons_self, hbytes,
      List.append_assoc]

theorem saidByte_heard (bytes : List UInt8) :
    (bytes.map Traffic.heard).filterMap Traffic.saidByte = [] := by
  induction bytes with
  | nil => rfl
  | cons b bytes ih => exact ih

theorem saidByte_said (cells : List Cell) :
    (cells.map Traffic.said).filterMap Traffic.saidByte = cells.map Cell.byte := by
  induction cells with
  | nil => rfl
  | cons cell cells ih => simpa [Traffic.saidByte] using ih

theorem saidByte_turns (turns : List Turn) :
    (turns.flatMap Turn.traffic).filterMap Traffic.saidByte =
      (turns.flatMap Turn.said).map Cell.byte := by
  induction turns with
  | nil => rfl
  | cons t turns ih =>
    simp only [List.flatMap_cons, List.filterMap_append, List.map_append, Turn.traffic,
      saidByte_heard, saidByte_said, List.nil_append, ih]

theorem Line.Ended.saidBytes {input : List UInt8} {turns : List Turn} {tail : List UInt8} {s : Line}
    (h : s.Ended input turns tail) :
    s.hangUp.saidBytes = (turns.flatMap Turn.said).map Cell.byte := by
  show (s.traffic ++ [Traffic.hungUp]).filterMap Traffic.saidByte = _
  rw [h.traffic, List.filterMap_append, List.filterMap_append, saidByte_heard, saidByte_turns,
    List.append_nil]
  exact List.append_nil _

/-- A run of the helper on which no call on the socket fails is one of the peer that the library's
end is verified against: to the same frames, it answers the same bytes. -/
theorem helper_is_peer {sock : ℤ} {isVirtio : Bool} {p p' : Helper} {input : List UInt8} {s : Line}
    (hr : Cmd.Runs (lineEnv sock) (helperMain sock isVirtio) p (.start input) () p' s)
    (hb : s.broken = false) (again : Bool) :
    ∃ t : Stream, (Stream.fresh again).Serves (dispatchedFrames input) t ∧ t.inbox = [] ∧
      t.closed = false ∧ t.pending = s.saidBytes := by
  obtain ⟨last, turns, tail, rfl, hended⟩ := Cmd.wlp_runs helperMain_serves hr
  obtain ⟨hframes, hwhole⟩ := hended.whole hb
  obtain ⟨t, ht, hinbox, hclosed, hpending⟩ :=
    serves_turns hended.frame hended.replied hwhole (s := .fresh again) rfl
  rw [hframes] at ht
  exact ⟨t, ht, hinbox, hclosed, hpending.trans hended.saidBytes.symm⟩

theorem helper_is_peer_barren : ∃ (s : Line) (t : Stream),
    (Stream.fresh false).Serves (dispatchedFrames threeFrames) t ∧ t.pending = s.saidBytes := by
  obtain ⟨p, s, hb, hr⟩ := barrenDevice_runs
  obtain ⟨t, ht, -, -, hpending⟩ := helper_is_peer hr hb false
  exact ⟨s, t, ht, hpending⟩

end Drmtap
