import Drmtap.CursorReply
import Drmtap.HelperLedger

/-! What a hidden cursor carries, when the helper that answers is the one of this tree. -/
namespace Drmtap

open Memory Effect

/-! What the helper sees, apart from what it sends -/

/-- Where a cursor plane is. -/
structure CursorPlacement where
  x : Int32
  y : Int32
  hotX : Int32
  hotY : Int32
  hotFromProperty : UInt32

def CursorPlacement.wire (p : CursorPlacement) : CursorWire :=
  { CursorWire.zero with
    x := p.x, y := p.y, hotX := p.hotX, hotY := p.hotY, hotFromProperty := p.hotFromProperty }

/-- What comes of a look at the cursor of a CRTC. -/
inductive CursorLook where
  /-- no cursor plane of the CRTC shows a framebuffer -/
  | absent
  /-- the framebuffer cannot be had, or has no handle -/
  | unread (placement : CursorPlacement)
  /-- it is too large, or cannot be exported or mapped -/
  | unmapped (placement : CursorPlacement) (fb2 : Fb2)
  | read (placement : CursorPlacement) (fb2 : Fb2) (pixels : List UInt8) (fits : ¬ badCursor fb2)

namespace CursorLook

def record : CursorLook → CursorWire
  | absent => .zero
  | unread p => p.wire
  | unmapped p fb2 => { p.wire with width := fb2.width, height := fb2.height }
  | read p fb2 _ _ =>
    { p.wire with
      width := fb2.width, height := fb2.height, visible := 1,
      dataSize := UInt32.ofNat (fb2.width.toNat * fb2.height.toNat * 4) }

def pixels : CursorLook → List UInt8
  | read _ _ pixels _ => pixels
  | _ => []

def reply (look : CursorLook) (extended : Bool) : List UInt8 :=
  look.record.encode extended ++ look.pixels

end CursorLook

def lookPlacement (plane : UInt32) : H CursorPlacement := do
  let x ← getPropVal plane .plane "CRTC_X"
  let y ← getPropVal plane .plane "CRTC_Y"
  let (hotX, haveHotX) ← getPropValFound plane .plane "HOTSPOT_X"
  let (hotY, haveHotY) ← getPropValFound plane .plane "HOTSPOT_Y"
  pure ⟨.ofUInt32 x.toUInt32, .ofUInt32 y.toUInt32, .ofUInt32 hotX.toUInt32,
    .ofUInt32 hotY.toUInt32, wireHotMeasured haveHotX haveHotY⟩

/-- The look at a framebuffer that gave out its handle. -/
def lookFb (placement : CursorPlacement) (fb2 : Fb2) : H CursorLook :=
  if hbad : badCursor fb2 then do
    helperGemClose (fb2.handles 0)
    pure (.unmapped placement fb2)
  else do
    match ← mapCursor (fb2.handles 0) ((fb2.pitches 0).toNat * fb2.height.toNat) with
    | none => do
      helperGemClose (fb2.handles 0)
      pure (.unmapped placement fb2)
    | some (mapped, fd) => do
      let pixels ← readCursor mapped fd fb2
      munmap mapped
      sys (.close fd)
      helperGemClose (fb2.handles 0)
      pure (.read placement fb2 pixels hbad)

def lookCursor (targetCrtc : UInt32) : H CursorLook := do
  match ← sys .getPlaneResources with
  | .error _ => pure .absent
  | .ok planes => do
    let (fb, plane) ← matchCursor targetCrtc planes
    if fb = 0 then pure .absent
    else do
      let placement ← lookPlacement plane
      match ← sys (.getFB2 fb) with
      | .error _ => pure (.unread placement)
      | .ok fb2 => if fb2.handles 0 = 0 then pure (.unread placement) else lookFb placement fb2

/-- The reply to a look: its record, and its pixels if there are any. -/
def sendLook (sock : ℤ) (extended : Bool) (look : CursorLook) : H Unit := do
  let _ ← sendCursorMeta sock look.record extended
  match look with
  | .read _ _ pixels _ => do
    let _ ← wireSendAll sock pixels
    pure ()
  | _ => pure ()

theorem cursorPlacement_eq (plane : UInt32) :
    cursorPlacement plane = (do
      let p ← lookPlacement plane
      pure p.wire) := by
  simp [cursorPlacement, lookPlacement, CursorPlacement.wire]

theorem sendCursor_eq (sock : ℤ) (extended : Bool) (p : CursorPlacement) (fb2 : Fb2) :
    sendCursor sock extended p.wire fb2 = (do
      let look ← lookFb p fb2
      sendLook sock extended look) := by
  unfold sendCursor lookFb
  split
  · simp [sendLook, CursorLook.record]
  · simp only [bind_assoc]
    congr! 1
    funext r
    rcases r with _ | ⟨mapped, fd⟩
    · simp [sendLook, CursorLook.record]
    · simp [sendLook, CursorLook.record]

/-- The helper looks first, and sends last. -/
theorem cursorAndSend_eq (sock : ℤ) (targetCrtc : UInt32) (extended : Bool) :
    cursorAndSend sock targetCrtc extended = (do
      let look ← lookCursor targetCrtc
      sendLook sock extended look) := by
  unfold cursorAndSend lookCursor
  simp only [bind_assoc]
  congr! 1
  funext r
  rcases r with e | planes
  · simp [sendLook, CursorLook.record]
  · simp only [bind_assoc]
    congr! 1
    funext found
    split
    · simp [sendLook, CursorLook.record]
    · simp only [cursorPlacement_eq, bind_assoc, pure_bind]
      congr! 1
      funext placement
      congr! 1
      funext fb2
      rcases fb2 with e | fb2
      · simp [sendLook, CursorLook.record]
      · dsimp only
        split
        · simp [sendLook, CursorLook.record]
        · exact sendCursor_eq sock extended placement fb2

/-! What it puts on the connection -/

/-- The bytes that the socket took. -/
def noteSent (sent : List UInt8) : (o : Op) → Ans o → List UInt8
  | .send _ bytes, .ok n => sent ++ bytes.take n
  | _, _ => sent

abbrev sentEnv : Env := .noting noteSent

/-- What a helper of this tree saw, and what it sent in reply. -/
structure HelperAnswer (targetCrtc : UInt32) (extended : Bool) where
  look : CursorLook
  bytes : List UInt8
  sends : ∃ sock st st₁ st₂, Cmd.Runs sentEnv (lookCursor targetCrtc) st [] look st₁ [] ∧
    Cmd.Runs sentEnv (sendLook sock extended look) st₁ [] () st₂ bytes

namespace HelperAnswer
variable {targetCrtc : UInt32} {extended : Bool}

/-- The reply was sent as far as it was, with nothing left out before its end. -/
def Intact (a : HelperAnswer targetCrtc extended) : Prop := a.bytes <+: a.look.reply extended

instance (a : HelperAnswer targetCrtc extended) : Decidable a.Intact := by
  unfold Intact
  infer_instance

end HelperAnswer

/-- Nothing is put on the connection. -/
def Unsent (x y : Helper × List UInt8) : Prop := y.2 = x.2

instance : IsPreorder (Helper × List UInt8) Unsent where
  refl _ := rfl
  trans _ _ _ h h' := h'.trans h

section Unsent
variable {α : Type}

theorem unsent_reads {c : H α} (hc : Cmd.Reads KmsOp c) : Cmd.Follows sentEnv Unsent c := by
  refine .of_reads hc fun st s o ho => ⟨trivial, fun r s' hs => ?_⟩
  cases o <;> first
    | exact ho.elim
    | exact hs

theorem unsent_onHeap (f : Heap → Option (α × Heap)) : Cmd.Follows sentEnv Unsent (onHeap f : H α) := by
  intro st s
  rw [wlp_onHeap]
  exact fun _ _ _ => rfl

/-- A call that is no send. -/
theorem unsent_call {o : Op} (ho : ∀ sent r, noteSent sent o r = sent) :
    Cmd.Follows sentEnv Unsent (sys o : H (Ans o)) :=
  .call fun _ s => ⟨trivial, fun r _ hs => hs.trans (ho s r)⟩

theorem unsent_gemClose (handle : UInt32) : Cmd.Follows sentEnv Unsent (helperGemClose handle) :=
  .ite (.pure ()) (unsent_call fun _ _ => rfl)

theorem unsent_mapCursor (handle : UInt32) (size : ℕ) :
    Cmd.Follows sentEnv Unsent (mapCursor handle size) := by
  apply Cmd.Follows.bind (unsent_call fun _ r => by cases r <;> rfl)
  rintro (e | fd)
  · exact .pure none
  · apply Cmd.Follows.bind
    · apply Cmd.Follows.bind (unsent_call fun _ r => by cases r <;> rfl)
      rintro (e | bytes)
      · exact .pure _
      · exact unsent_onHeap _
    · rintro (e | mapped)
      · exact .bind (unsent_call fun _ _ => rfl) fun _ => .pure none
      · exact .pure _

theorem unsent_readCursor (mapped : Slice) (fd : ℕ) (fb2 : Fb2) :
    Cmd.Follows sentEnv Unsent (readCursor mapped fd fb2) := by
  refine .bind (unsent_call fun _ _ => rfl) fun started => .bind (unsent_onHeap _) fun pixels => ?_
  exact .ite (.bind (unsent_call fun _ _ => rfl) fun _ => .pure _) (.pure _)

theorem unsent_lookFb (placement : CursorPlacement) (fb2 : Fb2) :
    Cmd.Follows sentEnv Unsent (lookFb placement fb2) := by
  unfold lookFb
  split
  · exact .bind (unsent_gemClose _) fun _ => .pure _
  · apply Cmd.Follows.bind (unsent_mapCursor _ _)
    rintro (_ | ⟨mapped, fd⟩)
    · exact .bind (unsent_gemClose _) fun _ => .pure _
    · refine .bind (unsent_readCursor _ _ _) fun pixels => .bind ?_ fun _ => ?_
      · exact .bind (unsent_call fun _ _ => rfl) fun _ => unsent_onHeap _
      · exact .bind (unsent_call fun _ _ => rfl) fun _ => .bind (unsent_gemClose _) fun _ => .pure _

theorem lookPlacement_reads (plane : UInt32) : Cmd.Reads KmsOp (lookPlacement plane) :=
  .bind (getPropVal_reads _ _ _) fun _ => .bind (getPropVal_reads _ _ _) fun _ =>
    .bind (getPropValFound_reads _ _ _) fun _ => .bind (getPropValFound_reads _ _ _) fun _ =>
      .pure _

theorem unsent_lookCursor (targetCrtc : UInt32) :
    Cmd.Follows sentEnv Unsent (lookCursor targetCrtc) := by
  apply Cmd.Follows.bind (unsent_call fun _ r => by cases r <;> rfl)
  rintro (e | planes)
  · exact .pure _
  · refine .bind (unsent_reads (matchCursor_reads targetCrtc planes)) fun found =>
      .ite (.pure _) (.bind (unsent_reads (lookPlacement_reads _)) fun placement => .bind ?_ ?_)
    · exact unsent_call fun _ r => by cases r <;> rfl
    · rintro (e | fb2)
      · exact .pure _
      · exact .ite (.pure _) (unsent_lookFb placement fb2)

end Unsent

/-- Whatever the helper sends to a cursor command is such an answer. -/
theorem HelperAnswer.of_run {targetCrtc : UInt32} {extended : Bool} {sock : ℤ} {st st' : Helper}
    {bytes : List UInt8}
    (h : Cmd.Runs sentEnv (cursorAndSend sock targetCrtc extended) st [] () st' bytes) :
    ∃ a : HelperAnswer targetCrtc extended, a.bytes = bytes := by
  rw [cursorAndSend_eq] at h
  obtain ⟨look, st₁, sent₁, hlook, hsend⟩ := Cmd.runs_bind h
  have hunsent : sent₁ = [] := Cmd.wlp_runs (unsent_lookCursor targetCrtc st []) hlook
  rw [hunsent] at hlook hsend
  exact ⟨⟨look, bytes, sock, st, st₁, st', hlook, hsend⟩, rfl⟩

/-! The client's end -/

/-- A cursor command that was answered, on a connection with `leftover` of earlier answers. -/
structure Question where
  targetCrtc : UInt32
  extended : Bool
  leftover : List UInt8
  answer : HelperAnswer targetCrtc extended

/-- The connection, on which the `count`-th cursor command is answered with `answers count`. -/
structure Connection where
  log : CursorLog
  count : ℕ
  /-- what was put on it and not received -/
  stream : List UInt8
  question : Option Question

/-- What a helper answers to each command, in order. -/
abbrev HelperAnswers := ℕ → (targetCrtc : UInt32) → (extended : Bool) →
  HelperAnswer targetCrtc extended

namespace Connection

def start (leftover : List UInt8) : Connection := ⟨.start, 0, leftover, none⟩

def ask (answers : HelperAnswers) (s : Connection) (cmd : HelperCmd) : Connection :=
  match CursorLog.shape cmd.type with
  | none => { s with question := none }
  | some extended =>
    { s with
      count := s.count + 1
      stream := s.stream ++ (answers s.count cmd.crtcId extended).bytes
      question := some ⟨cmd.crtcId, extended, s.stream, answers s.count cmd.crtcId extended⟩ }

def peer (answers : HelperAnswers) (s : Connection) : (o : Op) → Ans o → Connection
  | .helperSpawn, .ok _ => { s with stream := [], question := none }
  | .send _ bytes, .ok n =>
    if n = sizeofHelperCmd then s.ask answers (.decode bytes) else { s with question := none }
  | .send _ _, .error _ => { s with question := none }
  | .recv _ _, .ok bytes => { s with stream := s.stream.drop bytes.length }
  | _, _ => s

def note (answers : HelperAnswers) (s : Connection) (o : Op) (r : Ans o) : Connection :=
  { s.peer answers o r with log := s.log.note o r }

end Connection

/-- What is received was put on the connection. -/
def Streams (s : Connection) : (o : Op) → Ans o → Prop
  | .recv _ len, (r : Except Errno (List UInt8)) =>
    ∀ bytes, r = .ok bytes → bytes.length ≤ len ∧ bytes <+: s.stream
  | _, _ => True

/-- A helper of this tree at the other end, which may die at any point of its answers. -/
abbrev connectedEnv (answers : HelperAnswers) : Env :=
  (Effect.Env.noting (Connection.note answers)).restrict Streams

namespace Question

def source (q : Question) : List UInt8 := q.leftover ++ q.answer.bytes

/-- The record that stands first on the connection once the command is answered. -/
def head (q : Question) : CursorWire := .decode (q.source.take (CursorWire.size q.extended))

end Question

/-- What has been received and what has not are the answer, behind what was left over. -/
structure Connection.Consistent (s : Connection) : Prop where
  asked : s.log.asked = s.question.map Question.extended
  source : ∀ q, s.question = some q → s.log.heard ++ s.stream = q.source

theorem Connection.Consistent.ask {answers : HelperAnswers} {s : Connection} {bytes : List UInt8} :
    Consistent { s.ask answers (.decode bytes) with log := s.log.sent bytes sizeofHelperCmd } := by
  have hasked : (s.log.sent bytes sizeofHelperCmd).asked =
      CursorLog.shape (HelperCmd.decode bytes).type := by simp [CursorLog.sent]
  unfold Connection.ask
  split
  next hnone => exact ⟨hasked.trans hnone, fun _ h => by cases h⟩
  next extended hsome =>
    refine ⟨hasked.trans hsome, ?_⟩
    rintro _ ⟨⟩
    rfl

theorem Connection.Consistent.step {answers : HelperAnswers} {s : Connection} {o : Op} {r : Ans o}
    (hs : s.Consistent) (hr : Streams s o r) : (s.note answers o r).Consistent := by
  have hsame : ∀ l : CursorLog, l.asked = s.log.asked → l.heard = s.log.heard →
      Consistent { s with log := l } := fun l ha hh =>
    ⟨ha.trans hs.asked, fun q hq => hh ▸ hs.source q hq⟩
  have hnone : ∀ l : CursorLog, l.asked = none → ∀ c stream,
      Consistent ⟨l, c, stream, none⟩ := fun l ha _ _ => ⟨ha, fun _ h => by cases h⟩
  cases o with
  | helperSpawn =>
    rcases r with e | p
    · exact hsame _ rfl rfl
    · exact hnone _ rfl _ _
  | send fd bytes =>
    rcases r with e | n
    · exact hnone _ rfl _ _
    · by_cases hn : n = sizeofHelperCmd
      · subst hn
        have he : s.note answers (.send fd bytes) (.ok sizeofHelperCmd) =
            { s.ask answers (.decode bytes) with log := s.log.sent bytes sizeofHelperCmd } := by
          simp [Connection.note, Connection.peer, CursorLog.note]
        rw [he]
        exact .ask
      · have he : s.note answers (.send fd bytes) (.ok n) =
            { s with question := none, log := s.log.sent bytes n } := by
          simp [Connection.note, Connection.peer, CursorLog.note, hn]
        rw [he]
        exact hnone _ (if_neg hn) _ _
  | recv fd len =>
    rcases r with e | bytes
    · exact hsame _ rfl rfl
    · refine ⟨hs.asked, fun q hq => ?_⟩
      obtain ⟨rest, hrest⟩ := (hr bytes rfl).2
      have hsource := hs.source q hq
      have hdrop : s.stream.drop bytes.length = rest := by rw [← hrest, List.drop_left]
      change (s.log.heard ++ bytes) ++ s.stream.drop bytes.length = q.source
      rw [hdrop, List.append_assoc, hrest, hsource]
  | mmap src size off =>
    rcases r with e | bytes
    · exact hsame _ rfl rfl
    · exact hsame _ rfl rfl
  | _ => exact hsame _ rfl rfl

/-- Consistency is kept. -/
def Connection.Keeps (s s' : Connection) : Prop := s.Consistent → s'.Consistent

instance : IsPreorder Connection Connection.Keeps where
  refl _ := id
  trans _ _ _ h h' := h' ∘ h

theorem Connection.Consistent.run {answers : HelperAnswers} {α : Type} {c : M α} {m m' : Machine}
    {s s' : Connection} {a : α} (h : Cmd.Runs (connectedEnv answers) c m s a m' s')
    (hs : s.Consistent) : s'.Consistent := by
  refine Cmd.wlp_runs (Cmd.Follows.of_env (E := connectedEnv answers) (T := Connection.Keeps)
    (fun _ _ => trivial) ?_ c m s) h hs
  rintro s₁ o r _ ⟨rfl, hr⟩ hs₁
  exact hs₁.step hr

/-- A run on a connection is one that hears what it delivers. -/
theorem connected_heard {answers : HelperAnswers} {α : Type} {c : M α} {m m' : Machine}
    {s s' : Connection} {a : α} (h : Cmd.Runs (connectedEnv answers) c m s a m' s') :
    Cmd.Runs cursorEnv c m s.log a m' s'.log := by
  refine Run.map (F := cursorEnv) h Connection.log ?_
  rintro s₁ o r _ ⟨rfl, hr⟩
  refine ⟨rfl, ?_⟩
  cases o with
  | recv fd len => exact fun bytes hb => (hr bytes hb).1
  | _ => trivial

/-! What is carried -/

/-- Nothing in a sample but that it is hidden. -/
structure CursorInfo.Blank (cursor : CursorInfo) : Prop where
  pixels : cursor.pixels = none
  place : cursor.x = 0 ∧ cursor.y = 0
  hotspot : cursor.hotX = 0 ∧ cursor.hotY = 0
  size : cursor.width = 0 ∧ cursor.height = 0

/-- Nothing in a record either. -/
structure CursorWire.Blank (w : CursorWire) : Prop where
  place : w.x = 0 ∧ w.y = 0
  hotspot : w.hotX = 0 ∧ w.hotY = 0
  size : w.width = 0 ∧ w.height = 0

/-- What a hidden cursor would carry was read before the helper gave it up, and is zero. -/
def CursorPlacement.Zero (p : CursorPlacement) : Prop :=
  (p.x = 0 ∧ p.y = 0) ∧ p.hotX = 0 ∧ p.hotY = 0

theorem pixelBytes_le {fb2 : Fb2} (h : ¬ badCursor fb2) :
    fb2.width.toNat * fb2.height.toNat * 4 ≤ maxCursorBytes := by
  obtain ⟨hw, hh, -⟩ := not_not.mp h
  have hw : fb2.width.toNat ≤ 256 := hw
  have hh : fb2.height.toNat ≤ 256 := hh
  exact Nat.mul_le_mul (Nat.mul_le_mul hw hh) le_rfl

/-- The answers of a device, with what is sent. -/
def sendingRun (d : Device) (sent : List UInt8) (o : Op) : Option (Ans o × List UInt8) :=
  some (d o, noteSent sent o (d o))

theorem sendingRun_step {d : Device} {sent sent' : List UInt8} {o : Op} {r : Ans o}
    (h : sendingRun d sent o = some (r, sent')) : sentEnv.step sent o r sent' := by
  obtain ⟨rfl, rfl⟩ := Prod.mk.inj (Option.some.inj h)
  rfl

/-- A socket that takes all, and no plane resources. -/
def planelessDevice : Device
  | .send _ bytes => .ok bytes.length
  | .getPlaneResources => .error ⟨22, by decide⟩
  | o => Device.blank o

def absentAnswer (targetCrtc : UInt32) (extended : Bool) : HelperAnswer targetCrtc extended where
  look := .absent
  bytes := CursorWire.zero.encode extended
  sends := by
    refine ⟨3, .start, .start, .start, ?_, ?_⟩
    · exact Cmd.exec_runs (h := sendingRun planelessDevice) (n := 1)
        (fun _ _ _ _ => sendingRun_step) rfl
    · refine Cmd.exec_runs (h := sendingRun planelessDevice) (n := 2)
        (fun _ _ _ _ => sendingRun_step) ?_
      cases extended <;> rfl

/-- A socket that takes each command and gives what was put on it. -/
def connectedDevice (s : Connection) : Device
  | .helperSpawn => .ok (3, 7)
  | .send _ bytes => .ok bytes.length
  | .recv _ len => .ok (s.stream.take len)
  | o => Device.blank o

def connectedRun (answers : HelperAnswers) (s : Connection) (o : Op) :
    Option (Ans o × Connection) :=
  some (connectedDevice s o, s.note answers o (connectedDevice s o))

theorem connectedRun_step {answers : HelperAnswers} {s s' : Connection} {o : Op} {r : Ans o}
    (h : connectedRun answers s o = some (r, s')) : (connectedEnv answers).step s o r s' := by
  obtain ⟨rfl, rfl⟩ := Prod.mk.inj (Option.some.inj h)
  refine ⟨rfl, ?_⟩
  cases o with
  | recv fd len =>
    rintro _ ⟨⟩
    exact ⟨List.length_take_le _ _, List.take_prefix _ _⟩
  | _ => trivial

end Drmtap
