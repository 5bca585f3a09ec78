import Drmtap.HelperClient

/-! The byte stream between the library and its helper, and what keeps its two ends in step. -/
namespace Drmtap

open Memory Effect

/-- The connection as the peer left it. -/
structure Stream where
  /-- the part of a command the peer still waits to see whole -/
  inbox : List UInt8
  /-- what it has answered and the library has not received yet -/
  pending : List UInt8
  /-- the payload of that answer if it is a cursor too large to keep, else 0 -/
  drain : ℕ
  closed : Bool
  /-- the next command is the second try at one -/
  again : Bool
deriving DecidableEq

namespace Stream

def fresh (again : Bool) : Stream := ⟨[], [], 0, false, again⟩

def close (s : Stream) : Stream := { s with closed := true }

/-- The bytes of a CMD_QUIT, which is not tried again. -/
def quit : List UInt8 := (wireCmd cmdQuit 0).encode

/-- A command was tried. -/
def tried (s : Stream) (bytes : List UInt8) (whole : Bool) : Stream :=
  if bytes = quit then s else { s with again := !whole && !s.again }

def received (s : Stream) (bytes : List UInt8) : Stream :=
  { s with pending := s.pending.drop bytes.length }

end Stream

/-! Replies: a head of fixed size, which says how much body follows. -/

def replyHead (type : UInt16) : ℕ :=
  if type = cmdGrab then sizeofGrabWire else CursorWire.size (type = cmdGetCursor2)

def replyBody (type : UInt16) (head : List UInt8) : ℕ :=
  if type = cmdGrab then (GrabWire.decode head).payload else (CursorWire.decode head).payload

def replyDrain (type : UInt16) (head : List UInt8) : ℕ :=
  if type ≠ cmdGrab ∧ maxCursorBytes < replyBody type head then replyBody type head else 0

def commandTypes : List UInt16 := [cmdGrab, cmdGetCursor, cmdGetCursor2]

/-- What the peer makes of the bytes it has: it waits for the rest of a command, or answers it
with one whole reply, or hangs up at any point of that. -/
inductive Served (s : Stream) (bytes : List UInt8) : Stream → Prop where
  | waits (h : bytes.length < sizeofHelperCmd) : Served s bytes { s with inbox := bytes }
  | answers (head body : List UInt8) (h : sizeofHelperCmd ≤ bytes.length)
      (hcmd : wireCmdValid (HelperCmd.decode bytes))
      (htype : (HelperCmd.decode bytes).type ∈ commandTypes)
      (hhead : head.length = replyHead (HelperCmd.decode bytes).type)
      (hbody : body.length = replyBody (HelperCmd.decode bytes).type head) :
      Served s bytes
        { s with
          inbox := bytes.drop sizeofHelperCmd
          pending := s.pending ++ (head ++ body)
          drain := replyDrain (HelperCmd.decode bytes).type head }
  | hangsUp (pending : List UInt8) : Served s bytes ({ s with pending := pending }).close

/-- A reception: some of what is pending, an interruption, or the end of the stream. -/
inductive Received (s : Stream) (len : ℕ) : Except Errno (List UInt8) → Stream → Prop where
  | bytes (b : List UInt8) (hb : b ≠ []) (hlen : b.length ≤ len) (hp : b <+: s.pending) :
      Received s len (.ok b) (s.received b)
  | interrupted (e : Errno) (he : e.interrupted) : Received s len (.error e) s
  | failed (e : Errno) (he : ¬ e.interrupted) : Received s len (.error e) s.close
  | ended (hp : s.pending = []) : Received s len (.ok []) s.close

/-- A command may only be sent when the peer has nothing left of earlier ones. -/
def Stream.Clean (s : Stream) : Prop := s.closed = true ∨ (s.inbox = [] ∧ s.pending = [])

/-- What is left is of a cursor too large to keep. -/
def Stream.Draining (s : Stream) : Prop := s.pending ≠ [] ∧ s.pending.length ≤ s.drain

inductive Moves (s : Stream) : (o : Op) → Ans o → Stream → Prop where
  | sent (fd : ℤ) (b : List UInt8) (n : ℕ) (hn : n ≤ b.length) (ho : s.closed = false) (t : Stream)
      (ht : Served (s.tried b (n = b.length)) (s.inbox ++ b.take n) t) :
      Moves s (.send fd b) (.ok n) t
  | unsent (fd : ℤ) (b : List UInt8) (e : Errno) : Moves s (.send fd b) (.error e) (s.tried b false)
  | refused (fd : ℤ) (b : List UInt8) (e : Errno) :
      Moves s (.send fd b) (.error e) (s.tried b false).close
  | recv (fd : ℤ) (len : ℕ) (r : Except Errno (List UInt8)) (t : Stream) (hr : Received s len r t) :
      Moves s (.recv fd len) r t
  | recvmsg (fd : ℤ) (len : ℕ) (b : List UInt8) (control : List ControlBlock) (ctrunc : Bool)
      (t : Stream) (hr : Received s len (.ok b) t) :
      Moves s (.recvmsg fd len) (.ok ⟨b, control, ctrunc⟩) t
  | recvmsgFailed (fd : ℤ) (len : ℕ) (e : Errno) (t : Stream) (hr : Received s len (.error e) t) :
      Moves s (.recvmsg fd len) (.error e) t
  | spawned (fd pid : ℕ) : Moves s .helperSpawn (.ok (fd, pid)) (.fresh s.again)
  | notSpawned (e : Errno) : Moves s .helperSpawn (.error e) { s with again := false }
  | reaped : Moves s .helperReap () s
  | closed (fd : ℤ) : Moves s (.close fd) () s
  | malloc (size : ℕ) (r : Option (ℕ → UInt8)) : Moves s (.malloc size) r s
  | free (addr : Slice) : Moves s (.free addr) () s

def commandLegal (s : Stream) : Op → Prop
  | .send _ b => b = Stream.quit ∨ s.Clean
  | _ => True

abbrev streamEnv : Env where
  State := Stream
  legal := commandLegal
  step := Moves

/-- The answers that do not make the library leave a reply half read: a second try at a command
is sent whole or not at all; a reply is not interrupted where `recvmsg` reads it, and a message
with too many descriptors is all of it; the pixels of a cursor find memory, and those of one too
large come in full chunks. -/
def Benign (s : Stream) : (o : Op) → Ans o → Prop
  | .send _ b, .ok n => s.again = true → b ≠ Stream.quit → n = 0 ∨ n = b.length
  | .recvmsg _ _, .error e => e.interrupted → s.closed = true
  | .recvmsg _ _, .ok msg =>
    (msg.ctrunc ∨ 1 < msg.fds.length) → s.closed = true ∨ msg.bytes = s.pending
  | .malloc _, r => r = none → s.closed = true
  | .recv _ _, .error e => s.Draining → e.interrupted → s.closed = true
  | .recv _ len, .ok b => s.Draining → s.closed = true ∨ b.length = min len s.pending.length
  | _, _ => True

abbrev benignEnv : Env := streamEnv.restrict Benign

/-! What is still to be received of a reply. -/

/-- The peer is gone, or owes exactly these bytes and awaits a new command. -/
def Stream.Owes (s : Stream) (l : List UInt8) : Prop :=
  s.closed = true ∨ (s.inbox = [] ∧ s.pending = l)

/-- The body of a reply with this head is all that is still to come. -/
def Stream.OwesBody (s : Stream) (type : UInt16) (head : List UInt8) : Prop :=
  ∃ body, s.Owes body ∧ body.length = replyBody type head ∧
    (s.closed = true ∨ s.drain = replyDrain type head)

/-- A whole reply is still to come. -/
def Stream.OwesReply (s : Stream) (type : UInt16) : Prop :=
  ∃ head body, s.Owes (head ++ body) ∧ head.length = replyHead type ∧
    body.length = replyBody type head ∧ (s.closed = true ∨ s.drain = replyDrain type head)

namespace Stream
variable {s : Stream} {type : UInt16} {l : List UInt8}

theorem Owes.clean (h : s.Owes []) : s.Clean := h

theorem Clean.close (s : Stream) : s.close.Clean := .inl rfl

theorem clean_fresh (again : Bool) : (fresh again).Clean := .inr ⟨rfl, rfl⟩

theorem OwesBody.of_closed (h : s.closed = true) (head : List UInt8) : s.OwesBody type head :=
  ⟨List.replicate (replyBody type head) 0, .inl h, List.length_replicate, .inl h⟩

theorem OwesReply.of_closed (h : s.closed = true) : s.OwesReply type :=
  ⟨List.replicate (replyHead type) 0, List.replicate (replyBody type _) 0, .inl h,
    List.length_replicate, List.length_replicate, .inl h⟩

theorem Owes.received (h : s.Owes l) (b : List UInt8) :
    (s.received b).Owes (l.drop b.length) := by
  rcases h with hc | ⟨hi, rfl⟩
  · exact .inl hc
  · exact .inr ⟨hi, rfl⟩

theorem Owes.prefix (h : s.Owes l) {b : List UInt8} (hb : b <+: s.pending) :
    s.closed = true ∨ b = l.take b.length := by
  rcases h with hc | ⟨-, rfl⟩
  · exact .inl hc
  · exact .inr (List.prefix_iff_eq_take.mp hb)

theorem OwesBody.clean {head : List UInt8} (h : s.OwesBody type head)
    (h0 : replyBody type head = 0) : s.Clean := by
  obtain ⟨body, ho, hl, -⟩ := h
  obtain rfl : body = [] := List.eq_nil_of_length_eq_zero (hl.trans h0)
  exact ho.clean

end Stream

/-- What a reception may change: what is pending, and whether the stream has ended. -/
structure Stream.Receives (s s' : Stream) : Prop where
  drain : s'.drain = s.drain
  again : s'.again = s.again
  closed : s.closed = true → s'.closed = true

namespace Stream.Receives
variable {s s' s'' : Stream}

theorem refl (s : Stream) : s.Receives s := ⟨rfl, rfl, id⟩

theorem trans (h : s.Receives s') (h' : s'.Receives s'') : s.Receives s'' :=
  ⟨h'.drain.trans h.drain, h'.again.trans h.again, h'.closed ∘ h.closed⟩

theorem close (s : Stream) : s.Receives s.close := ⟨rfl, rfl, fun _ => rfl⟩

theorem received (s : Stream) (b : List UInt8) : s.Receives (s.received b) := ⟨rfl, rfl, id⟩

end Stream.Receives

section Client
variable {m : Machine} {s : Stream} {fd : ℤ} {len : ℕ}

theorem recv_spec {Q : Except Errno (List UInt8) → Machine → Stream → Prop}
    (hint : ∀ e, e.interrupted → (s.Draining → s.closed = true) → Q (.error e) m s)
    (hfail : ∀ e, ¬ e.interrupted → Q (.error e) m s.close) (hend : Q (.ok []) m s.close)
    (hok : ∀ b, b ≠ [] → b.length ≤ len → b <+: s.pending →
      (s.Draining → s.closed = true ∨ b.length = min len s.pending.length) →
      Q (.ok b) m (s.received b)) :
    Cmd.wp benignEnv (sys (.recv fd len)) Q m s := by
  rw [Cmd.wp_call]
  constructor
  · trivial
  · intro r t ⟨hmove, hb⟩
    cases hmove with
    | recv _ _ _ _ hr =>
      cases hr with
      | bytes b hne hlen hp => exact hok b hne hlen hp hb
      | interrupted e he => exact hint e he fun hd => hb hd he
      | failed e he => exact hfail e he
      | ended hp => exact hend

theorem wireRecvAll_spec {a l : List UInt8} (h : s.Owes (a ++ l)) :
    Cmd.wp benignEnv (wireRecvAll fd a.length) (fun r m' s' => m' = m ∧ s.Receives s' ∧
      ((r = none ∧ s'.closed = true) ∨ ∃ bytes, r = some bytes ∧ bytes.length = a.length ∧
        s'.Owes l ∧ (s'.closed = true ∨ bytes = a))) m s := by
  unfold wireRecvAll
  refine Cmd.wp_loop (fun got m' s' => m' = m ∧ s.Receives s' ∧ got.length ≤ a.length ∧
    s'.Owes ((a ++ l).drop got.length) ∧
      (s'.closed = true ∨ got = (a ++ l).take got.length)) ?_ ?_
  · exact ⟨rfl, .refl s, Nat.zero_le _, h, .inr rfl⟩
  · intro got m' s' ⟨hm, hs, hlen, ho, hgot⟩
    rw [Cmd.wp_ite]
    constructor
    · intro hle
      have heq : got.length = a.length := le_antisymm hlen hle
      refine ⟨hm, hs, .inr ⟨got, rfl, heq, ?_, ?_⟩⟩
      · rwa [heq, List.drop_left] at ho
      · rwa [heq, List.take_left] at hgot
    · intro hlt
      rw [Cmd.wp_bind]
      apply recv_spec
      · intro e he _
        simp only [he, if_true]
        exact ⟨hm, hs, hlen, ho, hgot⟩
      · intro e he
        simp only [he]
        exact ⟨hm, hs.trans (.close s'), .inl ⟨rfl, rfl⟩⟩
      · exact ⟨hm, hs.trans (.close s'), .inl ⟨rfl, rfl⟩⟩
      · intro b hne hb hp _
        simp only [hne, if_false]
        refine ⟨hm, hs.trans (.received s' b), ?_, ?_, ?_⟩
        · rw [List.length_append]
          omega
        · rw [List.length_append, ← List.drop_drop]
          exact ho.received b
        · rcases hgot with hc | hgot
          · exact .inl hc
          · rcases ho.prefix hp with hc | hb'
            · exact .inl hc
            · right
              rw [List.length_append, List.take_add, ← hgot, ← hb']

/-- The head of a reply. -/
theorem recvHead_spec {type : UInt16} (h : s.OwesReply type) :
    Cmd.wp benignEnv (wireRecvAll fd (replyHead type)) (fun r m' s' => m' = m ∧
      s'.again = s.again ∧ ((r = none ∧ s'.closed = true) ∨
        ∃ bytes, r = some bytes ∧ s'.OwesBody type bytes)) m s := by
  obtain ⟨head, body, ho, hhead, hbody, hdrain⟩ := h
  rw [← hhead]
  apply Cmd.wp_mono (wireRecvAll_spec ho)
  intro r m' s' ⟨hm, hs, hr⟩
  refine ⟨hm, hs.again, ?_⟩
  rcases hr with hnone | ⟨bytes, hsome, -, ho', hb⟩
  · exact .inl hnone
  · refine .inr ⟨bytes, hsome, ?_⟩
    rcases hb with hc | rfl
    · exact .of_closed hc bytes
    · exact ⟨body, ho', hbody, hdrain.imp hs.closed hs.drain.trans⟩

/-- The body of a reply, read whole. -/
theorem recvBody_spec {type : UInt16} {head : List UInt8} (h : s.OwesBody type head) :
    Cmd.wp benignEnv (wireRecvAll fd (replyBody type head)) (fun r m' s' => m' = m ∧
      s'.again = s.again ∧ s'.Clean ∧
        ∀ bytes, r = some bytes → bytes.length = replyBody type head) m s := by
  obtain ⟨body, ho, hbody, -⟩ := h
  rw [← hbody]
  rw [← List.append_nil body] at ho
  apply Cmd.wp_mono (wireRecvAll_spec ho)
  intro r m' s' ⟨hm, hs, hr⟩
  rcases hr with ⟨rfl, hc⟩ | ⟨bytes, rfl, hlen, ho', -⟩
  · exact ⟨hm, hs.again, .inl hc, fun _ h => by cases h⟩
  · refine ⟨hm, hs.again, ho'.clean, ?_⟩
    rintro _ ⟨rfl⟩
    exact hlen

theorem Stream.wp_close {Q : Unit → Machine → Stream → Prop} (hQ : Q () m s) :
    Cmd.wp benignEnv (sys (.close fd)) Q m s := by
  rw [Cmd.wp_call]
  constructor
  · trivial
  · intro r t ⟨hmove, _⟩
    cases hmove
    exact hQ

theorem Stream.wp_reap {Q : Unit → Machine → Stream → Prop} (hQ : Q () m s) :
    Cmd.wp benignEnv (sys .helperReap) Q m s := by
  rw [Cmd.wp_call]
  constructor
  · trivial
  · intro r t ⟨hmove, _⟩
    cases hmove
    exact hQ

theorem closeFd_spec {Q : Unit → Machine → Stream → Prop} (hQ : Q () m s) :
    Cmd.wp benignEnv (closeFd fd) Q m s := by
  unfold closeFd
  rw [Cmd.wp_ite]
  exact ⟨fun _ => Stream.wp_close hQ, fun _ => hQ⟩

theorem closeAll_spec {fds : List ℕ} {Q : Unit → Machine → Stream → Prop} (hQ : Q () m s) :
    Cmd.wp benignEnv (closeAll fds) Q m s := by
  induction fds with
  | nil => exact hQ
  | cons fd fds ih =>
    rw [closeAll, Cmd.wp_bind]
    exact Stream.wp_close ih

/-- The reply to a grab, with its descriptor. -/
theorem wireRecvFd_spec (h : s.OwesReply cmdGrab) :
    Cmd.wp benignEnv (wireRecvFd fd sizeofGrabWire) (fun r m' s' => m' = m ∧
      s'.again = s.again ∧ ((r = none ∧ s'.Clean) ∨
        ∃ bytes dmabufFd, r = some (bytes, dmabufFd) ∧ s'.OwesBody cmdGrab bytes)) m s := by
  obtain ⟨head, body, ho, hhead, hbody, hdrain⟩ := h
  have hsize : sizeofGrabWire = head.length := hhead.symm
  have hin : s.closed = true ∨ s.inbox = [] := ho.imp_right And.left
  rw [wireRecvFd_eq, Cmd.wp_bind, Cmd.wp_call]
  constructor
  · trivial
  · intro r t ⟨hmove, hbenign⟩
    cases hmove with
    | recvmsgFailed _ _ e _ hr =>
      cases hr with
      | interrupted _ he => exact ⟨rfl, rfl, .inl ⟨rfl, .inl (hbenign he)⟩⟩
      | failed _ he => exact ⟨rfl, rfl, .inl ⟨rfl, .close s⟩⟩
    | recvmsg _ _ b control ctrunc _ hr =>
      cases hr with
      | ended hp => exact ⟨rfl, rfl, .inl ⟨rfl, .close s⟩⟩
      | bytes _ hne hlen hp =>
        have hle : b.length ≤ head.length := hlen.trans_eq hsize
        have hrest : (s.received b).Owes (head.drop b.length ++ body) := by
          rw [← List.drop_append_of_le_length hle]
          exact ho.received b
        have hb : s.closed = true ∨ b = head.take b.length := by
          rw [← List.take_append_of_le_length hle]
          exact ho.prefix hp
        simp only [hne, if_false]
        rw [Cmd.wp_bind]
        apply closeAll_spec
        rw [Cmd.wp_ite]
        constructor
        · intro hbad
          rw [Cmd.wp_bind]
          apply closeFd_spec
          refine ⟨rfl, rfl, .inl ⟨rfl, ?_⟩⟩
          rcases hbenign hbad with hc | hall
          · exact .inl hc
          · rcases hin with hc | hi
            · exact .inl hc
            · exact .inr ⟨hi, by simp [Stream.received, ← hall]⟩
        · intro _
          rw [Cmd.wp_ite]
          constructor
          · intro hshort
            rw [Cmd.wp_bind, hsize, ← List.length_drop]
            apply Cmd.wp_mono (wireRecvAll_spec hrest)
            intro r m' s' ⟨hm, hs, hr⟩
            rcases hr with ⟨rfl, hc⟩ | ⟨rest, rfl, -, ho', hrest'⟩
            · rw [Cmd.wp_bind]
              apply Stream.wp_close
              exact ⟨hm, hs.again, .inl ⟨rfl, .inl hc⟩⟩
            · refine ⟨hm, hs.again, .inr ⟨_, _, rfl, ?_⟩⟩
              rcases hb with hc | hb
              · exact .of_closed (hs.closed hc) _
              · rcases hrest' with hc | rfl
                · exact .of_closed hc _
                · have hwhole : b ++ head.drop b.length = head := by
                    conv_lhs => rw [hb]
                    rw [List.length_take_of_le (by omega), List.take_append_drop]
                  rw [hwhole]
                  exact ⟨body, ho', hbody, hdrain.imp hs.closed hs.drain.trans⟩
          · intro hlong
            have hk : b.length = head.length := by omega
            refine ⟨rfl, rfl, .inr ⟨_, _, rfl, ?_⟩⟩
            rcases hb with hc | hb
            · exact Stream.OwesBody.of_closed (s := s.received b) hc b
            · rw [hk, List.take_length] at hb
              rw [hk, List.drop_length, List.nil_append] at hrest
              exact ⟨body, hrest, hbody.trans (by rw [hb]), hdrain.imp_right (by rw [hb]; exact id)⟩

/-! Commands -/

theorem Served.again {s t : Stream} {b : List UInt8} (h : Served s b t) : t.again = s.again := by
  cases h <;> rfl

theorem encode_ne_quit {type : UInt16} {crtcId : UInt32} (h : type ≠ cmdQuit) :
    (wireCmd type crtcId).encode ≠ Stream.quit := by
  intro he
  have hd := congrArg (fun b => HelperCmd.decode (b ++ [])) he
  simp only [Stream.quit, HelperCmd.decode_encode] at hd
  exact h (congrArg HelperCmd.type hd)

theorem ne_cmdQuit {type : UInt16} (h : type ∈ commandTypes) : type ≠ cmdQuit := by
  rintro rfl
  exact absurd h (by decide)

/-- A whole command on a clean stream is answered for itself. -/
theorem Served.owesReply {s t : Stream} {cmd : HelperCmd} (hp : s.pending = [])
    (h : Served s cmd.encode t) : t.OwesReply cmd.type := by
  have hdec : HelperCmd.decode cmd.encode = cmd := by
    rw [← List.append_nil cmd.encode, HelperCmd.decode_encode]
  cases h with
  | waits h => simp at h
  | hangsUp => exact .of_closed rfl
  | answers head body _ _ _ hhead hbody =>
    rw [hdec] at hhead hbody
    refine ⟨head, body, .inr ⟨List.drop_of_length_le (HelperCmd.encode_length cmd).le, by simp [hp]⟩, hhead,
      hbody, .inr ?_⟩
    rw [hdec]

/-- Nothing of a command on a clean stream leaves it clean. -/
theorem Served.clean {s t : Stream} (hp : s.pending = []) (h : Served s [] t) : t.Clean := by
  cases h with
  | waits h => exact .inr ⟨rfl, hp⟩
  | hangsUp => exact .inl rfl
  | answers head body h => exact absurd h (by decide)

theorem Stream.tried_of_ne {b : List UInt8} (h : b ≠ Stream.quit) (s : Stream) (whole : Bool) :
    s.tried b whole = { s with again := !whole && !s.again } := if_neg h

theorem trySend_spec {type : UInt16} (htype : type ∈ commandTypes) (hs : s.Clean) :
    Cmd.wp benignEnv (trySend type) (fun sent m' s' => m' = m ∧
      ((sent = true ∧ s'.again = false ∧ s'.OwesReply type) ∨
        (sent = false ∧ s'.again = !s.again ∧ (s.again = true → s'.Clean)))) m s := by
  unfold trySend
  rw [Cmd.wp_bind, wp_getCtx, Cmd.wp_bind, Cmd.wp_call]
  have hne : (wireCmd type m.ctx.crtcId).encode ≠ Stream.quit := encode_ne_quit (ne_cmdQuit htype)
  have htried := Stream.tried_of_ne hne s
  constructor
  · exact .inr hs
  · intro r t ⟨hmove, hbenign⟩
    cases hmove with
    | unsent _ _ e =>
      rw [htried]
      exact ⟨rfl, .inr ⟨rfl, rfl, fun _ => hs⟩⟩
    | refused _ _ e =>
      rw [htried]
      exact ⟨rfl, .inr ⟨rfl, rfl, fun _ => .inl rfl⟩⟩
    | sent _ _ n hn hopen _ ht =>
      have hclean : s.inbox = [] ∧ s.pending = [] := hs.resolve_left (by simp [hopen])
      rw [htried, hclean.1, List.nil_append] at ht
      have hsize : (wireCmd type m.ctx.crtcId).encode.length = sizeofHelperCmd :=
        HelperCmd.encode_length _
      by_cases hwhole : n = (wireCmd type m.ctx.crtcId).encode.length
      · refine ⟨rfl, .inl ⟨?_, ?_, ?_⟩⟩
        · simpa using hwhole
        · rw [ht.again]
          simp [hwhole]
        · rw [hwhole, List.take_length] at ht
          exact ht.owesReply (by exact hclean.2)
      · refine ⟨rfl, .inr ⟨?_, ?_, ?_⟩⟩
        · simpa using hwhole
        · rw [ht.again]
          simp only [hwhole, decide_false, Bool.not_false, Bool.true_and]
        · intro hagain
          have hzero : n = 0 := (hbenign hagain hne).resolve_right hwhole
          rw [hzero, List.take_zero] at ht
          exact ht.clean (by exact hclean.2)

theorem hangUp_spec {Q : Unit → Machine → Stream → Prop} (hneg : fd < 0 → Q () m s)
    (hQ : ∀ s', s'.again = s.again → Q () { m with ctx := m.ctx.withoutHelperFd } s') :
    Cmd.wp benignEnv (hangUp fd) Q m s := by
  unfold hangUp
  rw [Cmd.wp_ite]
  constructor
  · intro _
    rw [Cmd.wp_bind, Cmd.wp_call]
    constructor
    · exact .inl rfl
    · intro r t ⟨hmove, _⟩
      have hagain : t.again = s.again := by
        have htried : ∀ whole, s.tried (wireCmd cmdQuit 0).encode whole = s := fun _ => if_pos rfl
        cases hmove with
        | unsent => rw [htried]
        | refused =>
          rw [htried]
          rfl
        | sent _ _ n _ _ _ ht => rw [ht.again, htried]
      rw [Cmd.wp_bind]
      apply Stream.wp_close
      exact hQ t hagain
  · intro hlt
    exact hneg (not_le.mp hlt)

theorem drmtapHelperStop_spec : Cmd.wp benignEnv drmtapHelperStop (fun _ m' s' =>
    m'.heap = m.heap ∧ m'.ctx.helperFd < 0 ∧ s'.again = s.again) m s := by
  have htail : ∀ m' s', m'.heap = m.heap → m'.ctx.helperFd < 0 → s'.again = s.again →
      Cmd.wp benignEnv (if 0 < m.ctx.helperPid then do
          sys .helperReap
          modifyCtx Ctx.withoutHelperPid
        else pure () : M Unit) (fun _ m' s' =>
        m'.heap = m.heap ∧ m'.ctx.helperFd < 0 ∧ s'.again = s.again) m' s' := by
    intro m' s' hheap hfd hagain
    rw [Cmd.wp_ite]
    constructor
    · intro _
      rw [Cmd.wp_bind]
      apply Stream.wp_reap
      exact ⟨hheap, hfd, hagain⟩
    · intro _
      exact ⟨hheap, hfd, hagain⟩
  unfold drmtapHelperStop
  rw [Cmd.wp_bind, wp_getCtx, Cmd.wp_bind]
  apply hangUp_spec
  · intro hfd
    exact htail m s rfl hfd rfl
  · intro s' hagain
    exact htail _ s' rfl (show (-1 : ℤ) < 0 by decide) hagain

theorem drmtapHelperSpawn_spec {Q : ℤ → Machine → Stream → Prop}
    (hrun : 0 ≤ m.ctx.helperFd → Q 0 m s)
    (hfail : m.ctx.helperFd < 0 → ∀ e : Errno, Q e.neg m { s with again := false })
    (hok : ∀ fd pid : ℕ, Q 0 { m with ctx := m.ctx.withHelper fd pid } (.fresh s.again)) :
    Cmd.wp benignEnv drmtapHelperSpawn Q m s := by
  unfold drmtapHelperSpawn
  rw [Cmd.wp_bind, wp_getCtx, Cmd.wp_ite]
  constructor
  · exact hrun
  · intro hlt
    rw [Cmd.wp_bind, Cmd.wp_call]
    constructor
    · trivial
    · intro r t ⟨hmove, _⟩
      cases hmove with
      | spawned fd pid => exact hok fd pid
      | notSpawned e => exact hfail (not_le.mp hlt) e

end Client

/-- The peer is gone, or has answered every command and been heard out. -/
def Synced (m : Machine) (s : Stream) : Prop := m.ctx.helperFd < 0 ∨ s.Clean

section Calls
variable {m : Machine} {s : Stream} {fd : ℤ} {type : UInt16} {respawnError : ℤ → ℤ}

/-- What sending a command comes to: its reply is awaited, or nothing is. -/
def Commanded (type : UInt16) (m : Machine) (r : ℤ) (m' : Machine) (s' : Stream) : Prop :=
  m'.heap = m.heap ∧ s'.again = false ∧
    ((r = 0 ∧ s'.OwesReply type) ∨ (r < 0 ∧ Synced m' s'))

theorem resend_spec (htype : type ∈ commandTypes) (hneg : ∀ r, r < 0 → respawnError r < 0)
    (ha : s.again = true) :
    Cmd.wp benignEnv (resend type respawnError) (Commanded type m) m s := by
  unfold resend
  rw [Cmd.wp_bind]
  apply Cmd.wp_mono drmtapHelperStop_spec
  intro _ m₁ s₁ ⟨hheap, hfd, hagain⟩
  rw [Cmd.wp_bind]
  apply drmtapHelperSpawn_spec
  · intro hle
    exact absurd hle (not_le.mpr hfd)
  · intro _ e
    rw [if_pos e.neg_lt_zero]
    exact ⟨hheap, rfl, .inr ⟨hneg _ e.neg_lt_zero, .inl hfd⟩⟩
  · intro fd pid
    rw [if_neg (lt_irrefl 0), Cmd.wp_bind]
    apply Cmd.wp_mono (trySend_spec htype (Stream.clean_fresh _))
    intro sent m₂ s₂ ⟨hm, hsent⟩
    rcases hsent with ⟨rfl, ha₂, ho⟩ | ⟨rfl, ha₂, hclean⟩
    · exact ⟨by rw [hm, hheap], ha₂, .inl ⟨rfl, ho⟩⟩
    · have hfresh : (Stream.fresh s₁.again).again = true := hagain.trans ha
      refine ⟨by rw [hm, hheap], ?_, .inr ⟨show - EIO < 0 by decide, .inr (hclean hfresh)⟩⟩
      rw [ha₂, hfresh]
      rfl

theorem sendOrResend_spec (htype : type ∈ commandTypes) (hneg : ∀ r, r < 0 → respawnError r < 0)
    (hs : s.Clean) (ha : s.again = false) :
    Cmd.wp benignEnv (sendOrResend type respawnError) (Commanded type m) m s := by
  unfold sendOrResend
  rw [Cmd.wp_bind]
  apply Cmd.wp_mono (trySend_spec htype hs)
  intro sent m₁ s₁ ⟨hm, hsent⟩
  subst hm
  rcases hsent with ⟨rfl, ha₁, ho⟩ | ⟨rfl, ha₁, -⟩
  · exact ⟨rfl, ha₁, .inl ⟨rfl, ho⟩⟩
  · exact resend_spec htype hneg (by rw [ha₁, ha]; rfl)

theorem sendCommand_spec (htype : type ∈ commandTypes) (hneg : ∀ r, r < 0 → respawnError r < 0)
    (hs : Synced m s) (ha : s.again = false) :
    Cmd.wp benignEnv (sendCommand type respawnError) (Commanded type m) m s := by
  unfold sendCommand
  rw [Cmd.wp_bind]
  apply drmtapHelperSpawn_spec
  · intro hle
    rw [if_neg (lt_irrefl 0)]
    exact sendOrResend_spec htype hneg (hs.resolve_left (not_lt.mpr hle)) ha
  · intro hlt e
    rw [if_pos e.neg_lt_zero]
    exact ⟨rfl, rfl, .inr ⟨e.neg_lt_zero, .inl hlt⟩⟩
  · intro fd pid
    rw [if_neg (lt_irrefl 0)]
    exact sendOrResend_spec htype hneg (Stream.clean_fresh _) ha

end Calls

end Drmtap
