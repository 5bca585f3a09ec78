import Drmtap.Wire

/-! privilege_helper.c: the library's end of the helper protocol. -/
namespace Drmtap

open Memory Effect

/-- `helper_grab_result_t` -/
structure HelperGrabResult where
  wire : GrabWire
  dmabufFd : ℤ

def HelperGrabResult.cleared : HelperGrabResult := ⟨.zero, -1⟩

/-- `drmtap_cursor_info`; `hot` is its private word: whether the hotspot was measured, once
somebody answered. -/
structure CursorInfo where
  x : Int32
  y : Int32
  hotX : Int32
  hotY : Int32
  width : UInt32
  height : UInt32
  pixels : Option Slice
  visible : Bool
  hot : Option Bool

def CursorInfo.cleared : CursorInfo := ⟨0, 0, 0, 0, 0, 0, none, false, none⟩

/-! Lifecycle -/

def Ctx.withHelper (ctx : Ctx) (fd pid : ℤ) : Ctx := { ctx with helperFd := fd, helperPid := pid }

def Ctx.withoutHelperFd (ctx : Ctx) : Ctx := { ctx with helperFd := -1 }

def Ctx.withoutHelperPid (ctx : Ctx) : Ctx := { ctx with helperPid := -1 }

def drmtapHelperSpawn : M ℤ := do
  let ctx ← getCtx
  if 0 ≤ ctx.helperFd then pure 0
  else
    match ← sys .helperSpawn with
    | .error e => pure e.neg
    | .ok (fd, pid) => do
      modifyCtx (·.withHelper fd pid)
      pure 0

/-- Asks the helper to quit, and hangs up. -/
def hangUp (fd : ℤ) : M Unit :=
  if 0 ≤ fd then do
    let _ ← sys (.send fd (wireCmd cmdQuit 0).encode)
    sys (.close fd)
    modifyCtx Ctx.withoutHelperFd
  else pure ()

def drmtapHelperStop : M Unit := do
  let ctx ← getCtx
  hangUp ctx.helperFd
  if 0 < ctx.helperPid then do
    sys .helperReap
    modifyCtx Ctx.withoutHelperPid
  else pure ()

/-! Commands -/

/-- One send of a command, true when the socket takes it whole. -/
def trySend (type : UInt16) : M Bool := do
  let ctx ← getCtx
  match ← sys (.send ctx.helperFd (wireCmd type ctx.crtcId).encode) with
  | .error _ => pure false
  | .ok n => pure (n = sizeofHelperCmd)

/-- Sends a command again, to a fresh helper. `respawnError` is what the caller makes of one
that cannot be had. -/
def resend (type : UInt16) (respawnError : ℤ → ℤ) : M ℤ := do
  drmtapHelperStop
  let ret ← drmtapHelperSpawn
  if ret < 0 then pure (respawnError ret)
  else do
    let sent ← trySend type
    pure (if sent then 0 else - EIO)

def sendOrResend (type : UInt16) (respawnError : ℤ → ℤ) : M ℤ := do
  let sent ← trySend type
  if sent then pure 0 else resend type respawnError

/-- Sends a command to the helper, spawned if there is none. -/
def sendCommand (type : UInt16) (respawnError : ℤ → ℤ) : M ℤ := do
  let ret ← drmtapHelperSpawn
  if ret < 0 then pure ret else sendOrResend type respawnError

/-! Grabs -/

/-- Throws away a payload that does not fit; false if the stream fails on the way. -/
def drainPixels (fd : ℤ) (dataSize : ℕ) : M Bool :=
  Cmd.loop (fun remaining =>
    if remaining = 0 then pure (.inr true)
    else do
      match ← sys (.recv fd (min remaining 4096)) with
      | .error _ => pure (.inr false)
      | .ok got =>
        if got = [] then pure (.inr false) else pure (.inl (remaining - got.length))) dataSize

/-- The pixels that follow a V2 reply. A buffer whose reception fails is left as it was here:
the callers free it unread. -/
def receivePixels (fd : ℤ) (pixelBuf : Slice) (bufSize dataSize : ℕ) : M ℤ := do
  if dataSize = 0 then pure (- EIO)
  else if bufSize < dataSize then do
    let drained ← drainPixels fd dataSize
    if drained then pure (- ENOSPC)
    else do
      drmtapHelperStop
      pure (- EIO)
  else
    match ← wireRecvAll fd dataSize with
    | none => pure (- EIO)
    | some pixels => do
      onHeap fun h => (h.store pixelBuf 0 pixels).map ((), ·)
      pure 0

/-- The reply to CMD_GRAB. -/
def receiveGrab (fd : ℤ) (pixelBuf : Slice) (bufSize : ℕ) : M (ℤ × HelperGrabResult) := do
  match ← wireRecvFd fd sizeofGrabWire with
  | none => pure (- EIO, .cleared)
  | some (bytes, dmabufFd) =>
    let wire := GrabWire.decode bytes
    if wire.flags &&& helperFlagHasDmabuf ≠ 0 then
      if dmabufFd < 0 then pure (- EIO, ⟨wire, -1⟩) else pure (0, ⟨wire, dmabufFd⟩)
    else do
      closeFd dmabufFd
      let ret ← receivePixels fd pixelBuf bufSize wire.dataSize.toNat
      pure (ret, ⟨wire, -1⟩)

def drmtapHelperGrab (pixelBuf : Slice) (bufSize : ℕ) : M (ℤ × HelperGrabResult) := do
  let ret ← sendCommand cmdGrab id
  if ret < 0 then pure (ret, .cleared)
  else do
    let ctx ← getCtx
    receiveGrab ctx.helperFd pixelBuf bufSize

/-! Cursors -/

def maxCursorBytes : ℕ := 256 * 256 * 4

/-- Throws away the payload of a cursor that is too large. Each round counts what it asked
for, not what it got. -/
def drainCursor (fd : ℤ) (dataSize : ℕ) : M Unit :=
  Cmd.loop (fun rem =>
    if rem = 0 then pure (.inr ())
    else do
      match ← sys (.recv fd (min rem 4096)) with
      | .error _ => pure (.inr ())
      | .ok got =>
        if got = [] then pure (.inr ()) else pure (.inl (rem - min rem 4096))) dataSize

def CursorInfo.ofWire (w : CursorWire) (extended : Bool) : CursorInfo where
  x := w.x
  y := w.y
  hotX := w.hotX
  hotY := w.hotY
  width := w.width
  height := w.height
  pixels := none
  visible := w.visible ≠ 0
  hot := if extended then some (w.hotFromProperty ≠ 0) else none

/-- The pixels of a cursor whose metadata has been read. -/
def receiveCursorPixels (fd : ℤ) (dataSize : ℕ) (cursor : CursorInfo) : M (ℤ × CursorInfo) := do
  if maxCursorBytes < dataSize then do
    drainCursor fd dataSize
    pure (0, { cursor with visible := false })
  else
    match ← malloc dataSize with
    | none => pure (- ENOMEM, cursor)
    | some pixels =>
      match ← wireRecvAll fd dataSize with
      | none => do
        free pixels
        pure (- EIO, cursor)
      | some bytes => do
        onHeap fun h => (h.store pixels 0 bytes).map ((), ·)
        pure (0, { cursor with pixels := some pixels })

def Ctx.knowsCursor2 (ctx : Ctx) (extended : Bool) : Ctx :=
  if extended then { ctx with helperCursor2Ok := true } else ctx

def receiveCursor (fd : ℤ) (extended : Bool) (w : CursorWire) : M (ℤ × CursorInfo) := do
  modifyCtx (·.knowsCursor2 extended)
  let cursor := CursorInfo.ofWire w extended
  if w.visible ≠ 0 ∧ 0 < w.dataSize then receiveCursorPixels fd w.dataSize.toNat cursor
  else pure (0, cursor)

/-- The first missing answer to the extended command is retried, the second one taken for an
old helper. -/
def Ctx.noteNoAnswer (ctx : Ctx) : Ctx :=
  if ctx.helperCursor2Retried then { ctx with helperNoCursor2 := true }
  else { ctx with helperCursor2Retried := true }

def cursorUnanswered (extended : Bool) : M (Unit ⊕ (ℤ × CursorInfo)) := do
  let ctx ← getCtx
  if extended ∧ ¬ ctx.helperCursor2Ok then do
    drmtapHelperStop
    let ret ← drmtapHelperSpawn
    if ret < 0 then pure (.inr (- EIO, .cleared))
    else do
      modifyCtx Ctx.noteNoAnswer
      pure (.inl ())
  else pure (.inr (- EIO, .cleared))

/-- One activation of `drmtap_helper_get_cursor`, which calls itself as its last act. -/
def getCursorOnce : M (Unit ⊕ (ℤ × CursorInfo)) := do
  let ctx ← getCtx
  let extended := !ctx.helperNoCursor2
  let ret ← sendCommand (if extended then cmdGetCursor2 else cmdGetCursor) fun _ => - EIO
  if ret < 0 then pure (.inr (ret, .cleared))
  else do
    let ctx ← getCtx
    match ← wireRecvAll ctx.helperFd (CursorWire.size extended) with
    | none => cursorUnanswered extended
    | some bytes => do
      let r ← receiveCursor ctx.helperFd extended (CursorWire.decode bytes)
      pure (.inr r)

def drmtapHelperGetCursor : M (ℤ × CursorInfo) := Cmd.loop (fun _ => getCursorOnce) ()

/-! What a conversation with the helper leaves alone -/

/-- The calls of a conversation are in `P`, and neither `I` nor `R` looks at the helper. -/
structure Converses (P : Op → Prop) (I : Machine → Prop) (R : Machine → Machine → Prop) : Prop where
  spawn : P .helperSpawn
  reap : P .helperReap
  send : ∀ fd bytes, P (.send fd bytes)
  recv : ∀ fd len, P (.recv fd len)
  recvmsg : ∀ fd len, P (.recvmsg fd len)
  close : ∀ fd, P (.close fd)
  keeps : ∀ m fd pid, I m → I { m with ctx := m.ctx.withHelper fd pid }
  moves : ∀ m fd pid, R m { m with ctx := m.ctx.withHelper fd pid }

namespace Converses
variable {P : Op → Prop} {I : Machine → Prop} {R : Machine → Machine → Prop} [IsPreorder Machine R]

theorem stays_getCtx : Cmd.Stays P I R getCtx fun _ => True :=
  .bind .get fun _ _ => .pure trivial

variable (h : Converses P I R)
include h

omit [IsPreorder Machine R] in
theorem setHelper {f : Ctx → Ctx} (hf : ∀ c, ∃ fd pid, f c = c.withHelper fd pid) :
    Cmd.Stays P I R (modifyCtx f) fun _ => True := by
  apply Cmd.Stays.modify
  · intro m hm
    obtain ⟨fd, pid, he⟩ := hf m.ctx
    rw [he]
    exact h.keeps m fd pid hm
  · intro m
    obtain ⟨fd, pid, he⟩ := hf m.ctx
    rw [he]
    exact h.moves m fd pid

theorem helperSpawn : Cmd.Stays P I R drmtapHelperSpawn fun _ => True := by
  apply Cmd.Stays.bind stays_getCtx
  intro ctx _
  apply Cmd.Stays.ite (.pure trivial)
  apply Cmd.Stays.bind (.call h.spawn)
  rintro (e | ⟨fd, pid⟩) -
  · exact .pure trivial
  · exact .bind (h.setHelper fun c => ⟨fd, pid, rfl⟩) fun _ _ => .pure trivial

theorem hangUp (fd : ℤ) : Cmd.Stays P I R (hangUp fd) fun _ => True := by
  apply Cmd.Stays.ite _ (.pure trivial)
  apply Cmd.Stays.bind (.call (h.send _ _))
  intro _ _
  exact .bind (.call (h.close _)) fun _ _ => h.setHelper fun c => ⟨-1, c.helperPid, rfl⟩

theorem helperStop : Cmd.Stays P I R drmtapHelperStop fun _ => True := by
  apply Cmd.Stays.bind stays_getCtx
  intro ctx _
  apply Cmd.Stays.bind (h.hangUp _)
  intro _ _
  apply Cmd.Stays.ite _ (.pure trivial)
  exact .bind (.call h.reap) fun _ _ => h.setHelper fun c => ⟨c.helperFd, -1, rfl⟩

theorem trySend (type : UInt16) : Cmd.Stays P I R (trySend type) fun _ => True := by
  apply Cmd.Stays.bind stays_getCtx
  intro ctx _
  apply Cmd.Stays.bind (.call (h.send _ _))
  rintro (e | n) - <;> exact .pure trivial

theorem sendCommand (type : UInt16) (respawnError : ℤ → ℤ) :
    Cmd.Stays P I R (sendCommand type respawnError) fun _ => True := by
  apply Cmd.Stays.bind h.helperSpawn
  intro ret _
  apply Cmd.Stays.ite (.pure trivial)
  apply Cmd.Stays.bind (h.trySend type)
  intro sent _
  apply Cmd.Stays.ite (.pure trivial)
  apply Cmd.Stays.bind h.helperStop
  intro _ _
  apply Cmd.Stays.bind h.helperSpawn
  intro ret _
  apply Cmd.Stays.ite (.pure trivial)
  exact .bind (h.trySend type) fun _ _ => .pure trivial

theorem drainPixels (fd : ℤ) (dataSize : ℕ) :
    Cmd.Stays P I R (drainPixels fd dataSize) fun _ => True := by
  apply Cmd.Stays.loop
  intro remaining
  apply Cmd.Stays.ite (.pure fun _ _ => trivial)
  apply Cmd.Stays.bind (.call (h.recv _ _))
  rintro (e | got) -
  · exact .pure fun _ _ => trivial
  · exact .ite (.pure fun _ _ => trivial) (.pure fun _ _ => trivial)

theorem wireRecvAll (sock : ℤ) (len : ℕ) :
    Cmd.Stays P I R (wireRecvAll sock len) fun _ => True := by
  apply Cmd.Stays.loop
  intro got
  apply Cmd.Stays.ite (.pure fun _ _ => trivial)
  apply Cmd.Stays.bind (.call (h.recv _ _))
  rintro (e | bytes) -
  · exact .ite (.pure fun _ _ => trivial) (.pure fun _ _ => trivial)
  · exact .ite (.pure fun _ _ => trivial) (.pure fun _ _ => trivial)

theorem closeFd (fd : ℤ) : Cmd.Stays P I R (closeFd fd) fun _ => True :=
  .ite (.call (h.close _)) (.pure trivial)

theorem closeAll (fds : List ℕ) : Cmd.Stays P I R (closeAll fds) fun _ => True := by
  induction fds with
  | nil => exact .pure trivial
  | cons fd fds ih => exact .bind (.call (h.close _)) fun _ _ => ih

theorem wireRecvFd (sock : ℤ) (len : ℕ) : Cmd.Stays P I R (wireRecvFd sock len) fun _ => True := by
  rw [wireRecvFd_eq]
  apply Cmd.Stays.bind (.call (h.recvmsg _ _))
  rintro (e | msg) -
  · exact .pure trivial
  · apply Cmd.Stays.ite (.pure trivial)
    apply Cmd.Stays.bind (h.closeAll _)
    intro _ _
    apply Cmd.Stays.ite
    · exact .bind (h.closeFd _) fun _ _ => .pure trivial
    · apply Cmd.Stays.ite _ (.pure trivial)
      apply Cmd.Stays.bind (h.wireRecvAll _ _)
      rintro (_ | rest) -
      · exact .bind (.call (h.close _)) fun _ _ => .pure trivial
      · exact .pure trivial

section Pixels
variable {pixelBuf : Slice} (hstore : ∀ bytes, Cmd.Stays P I R
  (onHeap fun heap => (heap.store pixelBuf 0 bytes).map ((), ·)) fun _ => True)
include hstore

theorem receivePixels (fd : ℤ) (bufSize dataSize : ℕ) :
    Cmd.Stays P I R (receivePixels fd pixelBuf bufSize dataSize) fun _ => True := by
  apply Cmd.Stays.ite (.pure trivial)
  apply Cmd.Stays.ite
  · apply Cmd.Stays.bind (h.drainPixels fd dataSize)
    intro drained _
    exact .ite (.pure trivial) (.bind h.helperStop fun _ _ => .pure trivial)
  · apply Cmd.Stays.bind (h.wireRecvAll fd dataSize)
    rintro (_ | pixels) -
    · exact .pure trivial
    · exact .bind (hstore pixels) fun _ _ => .pure trivial

theorem helperGrab (bufSize : ℕ) :
    Cmd.Stays P I R (drmtapHelperGrab pixelBuf bufSize) fun _ => True := by
  apply Cmd.Stays.bind (h.sendCommand cmdGrab id)
  intro ret _
  apply Cmd.Stays.ite (.pure trivial)
  apply Cmd.Stays.bind stays_getCtx
  intro ctx _
  apply Cmd.Stays.bind (h.wireRecvFd _ _)
  rintro (_ | ⟨bytes, dmabufFd⟩) -
  · exact .pure trivial
  · apply Cmd.Stays.ite (.ite (.pure trivial) (.pure trivial))
    apply Cmd.Stays.bind (h.closeFd _)
    intro _ _
    exact .bind (h.receivePixels hstore _ _ _) fun _ _ => .pure trivial

end Pixels

end Converses

end Drmtap
