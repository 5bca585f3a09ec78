import Drmtap.System

/-! wire.h: the frames on the socket between the library and its helper, and the loops that
move whole frames over a stream. Numbers are in the byte order of the host, little endian. -/
namespace Drmtap

open Effect

/-- The `n` low bytes of a number. -/
def leBytes : ℕ → ℕ → List UInt8
  | 0, _ => []
  | n + 1, v => UInt8.ofNat v :: leBytes n (v / 256)

def leNat (bytes : List UInt8) : ℕ := Nat.ofDigits 256 (bytes.map UInt8.toNat)

@[simp] theorem leBytes_length (n v : ℕ) : (leBytes n v).length = n := by
  induction n generalizing v with
  | zero => rfl
  | succ n ih => simp [leBytes, ih]

theorem leNat_leBytes (n v : ℕ) : leNat (leBytes n v) = v % 256 ^ n := by
  induction n generalizing v with
  | zero => simp [leBytes, leNat, Nat.mod_one]
  | succ n ih =>
    have hb : (UInt8.ofNat v).toNat = v % 256 := by simp
    have htail : Nat.ofDigits 256 ((leBytes n (v / 256)).map UInt8.toNat) = v / 256 % 256 ^ n :=
      ih (v / 256)
    simp only [leNat, leBytes, List.map_cons, Nat.ofDigits_cons, htail, hb]
    rw [Nat.pow_succ', Nat.mod_mul]

/-- The next `n` bytes as a number, and the rest. -/
def takeLE (n : ℕ) (bytes : List UInt8) : ℕ × List UInt8 := (leNat (bytes.take n), bytes.drop n)

theorem takeLE_append (n v : ℕ) (rest : List UInt8) :
    takeLE n (leBytes n v ++ rest) = (v % 256 ^ n, rest) := by
  rw [takeLE, List.take_left' (leBytes_length n v), List.drop_left' (leBytes_length n v),
    leNat_leBytes]

def putU32 (v : UInt32) : List UInt8 := leBytes 4 v.toNat

def putU64 (v : UInt64) : List UInt8 := leBytes 8 v.toNat

def getU32 (bytes : List UInt8) : UInt32 × List UInt8 :=
  (UInt32.ofNat (takeLE 4 bytes).1, (takeLE 4 bytes).2)

def getU64 (bytes : List UInt8) : UInt64 × List UInt8 :=
  (UInt64.ofNat (takeLE 8 bytes).1, (takeLE 8 bytes).2)

@[simp] theorem putU32_length (v : UInt32) : (putU32 v).length = 4 := leBytes_length _ _

@[simp] theorem putU64_length (v : UInt64) : (putU64 v).length = 8 := leBytes_length _ _

@[simp] theorem getU32_putU32 (v : UInt32) (rest : List UInt8) :
    getU32 (putU32 v ++ rest) = (v, rest) := by
  have hv : v.toNat % 256 ^ 4 = v.toNat := Nat.mod_eq_of_lt v.toNat_lt
  rw [getU32, putU32, takeLE_append, hv, UInt32.ofNat_toNat]

@[simp] theorem getU64_putU64 (v : UInt64) (rest : List UInt8) :
    getU64 (putU64 v ++ rest) = (v, rest) := by
  have hv : v.toNat % 256 ^ 8 = v.toNat := Nat.mod_eq_of_lt v.toNat_lt
  rw [getU64, putU64, takeLE_append, hv, UInt64.ofNat_toNat]

/-! Commands -/

def helperProtoMagic : UInt32 := 0x544D5244
def helperProtoVersion : UInt16 := 1
def cmdGrab : UInt16 := 0x01
def cmdGetCursor : UInt16 := 0x02
def cmdGetCursor2 : UInt16 := 0x03
def cmdQuit : UInt16 := 0xFF

/-- `sizeof(helper_cmd_grab_t)` -/
def sizeofHelperCmd : ℕ := 16

/-- `helper_cmd_grab_t` -/
structure HelperCmd where
  magic : UInt32
  version : UInt16
  type : UInt16
  length : UInt32
  crtcId : UInt32
deriving DecidableEq

def wireCmd (type : UInt16) (crtcId : UInt32) : HelperCmd where
  magic := helperProtoMagic
  version := helperProtoVersion
  type := type
  length := 16
  crtcId := crtcId

def wireCmdValid (c : HelperCmd) : Bool :=
  c.magic = helperProtoMagic && c.version = helperProtoVersion && c.length = 16 &&
    (c.type = cmdGrab || c.type = cmdGetCursor || c.type = cmdGetCursor2 || c.type = cmdQuit)

def HelperCmd.encode (c : HelperCmd) : List UInt8 :=
  putU32 c.magic ++ leBytes 2 c.version.toNat ++ leBytes 2 c.type.toNat ++ putU32 c.length ++
    putU32 c.crtcId

def HelperCmd.decode (bytes : List UInt8) : HelperCmd :=
  let (magic, bytes) := getU32 bytes
  let (version, bytes) := takeLE 2 bytes
  let (type, bytes) := takeLE 2 bytes
  let (length, bytes) := getU32 bytes
  let (crtcId, _) := getU32 bytes
  ⟨magic, UInt16.ofNat version, UInt16.ofNat type, length, crtcId⟩

@[simp] theorem HelperCmd.encode_length (c : HelperCmd) : c.encode.length = sizeofHelperCmd := by
  simp [encode, sizeofHelperCmd]

theorem HelperCmd.decode_encode (c : HelperCmd) (rest : List UInt8) :
    decode (c.encode ++ rest) = c := by
  have h16 (v : UInt16) : UInt16.ofNat (v.toNat % 256 ^ 2) = v := by
    have hv : v.toNat % 256 ^ 2 = v.toNat := Nat.mod_eq_of_lt v.toNat_lt
    rw [hv, UInt16.ofNat_toNat]
  simp only [decode, encode, List.append_assoc, getU32_putU32, takeLE_append, h16]

/-! Replies -/

def helperFlagHasDmabuf : UInt32 := 0x01
def helperFlagVirgl : UInt32 := 0x02

/-- `sizeof(helper_grab_wire_t)`, with 4 bytes of padding after `seq` and at the end -/
def sizeofGrabWire : ℕ := 64

/-- `helper_grab_wire_t`, which the helper calls `struct grab_metadata` -/
structure GrabWire where
  width : UInt32
  height : UInt32
  stride : UInt32
  format : UInt32
  fbId : UInt32
  dataSize : UInt32
  modifier : UInt64
  seq : UInt32
  timestampMs : UInt64
  flags : UInt32
  hdrEotf : UInt32
  hdrMaxNits : UInt32
deriving DecidableEq

namespace GrabWire

def zero : GrabWire := ⟨0, 0, 0, 0, 0, 0, 0, 0, 0, 0, 0, 0⟩

def encode (w : GrabWire) : List UInt8 :=
  putU32 w.width ++ putU32 w.height ++ putU32 w.stride ++ putU32 w.format ++ putU32 w.fbId ++
    putU32 w.dataSize ++ putU64 w.modifier ++ putU32 w.seq ++ putU32 0 ++ putU64 w.timestampMs ++
    putU32 w.flags ++ putU32 w.hdrEotf ++ putU32 w.hdrMaxNits ++ putU32 0

def decode (bytes : List UInt8) : GrabWire :=
  let (width, bytes) := getU32 bytes
  let (height, bytes) := getU32 bytes
  let (stride, bytes) := getU32 bytes
  let (format, bytes) := getU32 bytes
  let (fbId, bytes) := getU32 bytes
  let (dataSize, bytes) := getU32 bytes
  let (modifier, bytes) := getU64 bytes
  let (seq, bytes) := getU32 bytes
  let (_, bytes) := getU32 bytes
  let (timestampMs, bytes) := getU64 bytes
  let (flags, bytes) := getU32 bytes
  let (hdrEotf, bytes) := getU32 bytes
  let (hdrMaxNits, _) := getU32 bytes
  ⟨width, height, stride, format, fbId, dataSize, modifier, seq, timestampMs, flags, hdrEotf,
    hdrMaxNits⟩

@[simp] theorem encode_length (w : GrabWire) : w.encode.length = sizeofGrabWire := by
  simp [encode, sizeofGrabWire]

theorem decode_encode (w : GrabWire) (rest : List UInt8) : decode (w.encode ++ rest) = w := by
  simp only [decode, encode, List.append_assoc, getU32_putU32, getU64_putU64]

/-- A reply that is followed by pixels. -/
def payload (w : GrabWire) : ℕ :=
  if w.flags &&& helperFlagHasDmabuf ≠ 0 then 0 else w.dataSize.toNat

end GrabWire

def sizeofCursorWire : ℕ := 32
def sizeofCursorWire2 : ℕ := 36

/-- `helper_cursor_wire2_t`; the older reply is all of it but the last field -/
structure CursorWire where
  x : Int32
  y : Int32
  hotX : Int32
  hotY : Int32
  width : UInt32
  height : UInt32
  visible : UInt32
  dataSize : UInt32
  hotFromProperty : UInt32
deriving DecidableEq

namespace CursorWire

def zero : CursorWire := ⟨0, 0, 0, 0, 0, 0, 0, 0, 0⟩

/-- The reply in the shape the command asked for. -/
def encode (w : CursorWire) (extended : Bool) : List UInt8 :=
  putU32 w.x.toUInt32 ++ putU32 w.y.toUInt32 ++ putU32 w.hotX.toUInt32 ++
    putU32 w.hotY.toUInt32 ++ putU32 w.width ++ putU32 w.height ++ putU32 w.visible ++
    putU32 w.dataSize ++ if extended then putU32 w.hotFromProperty else []

def decode (bytes : List UInt8) : CursorWire :=
  let (x, bytes) := getU32 bytes
  let (y, bytes) := getU32 bytes
  let (hotX, bytes) := getU32 bytes
  let (hotY, bytes) := getU32 bytes
  let (width, bytes) := getU32 bytes
  let (height, bytes) := getU32 bytes
  let (visible, bytes) := getU32 bytes
  let (dataSize, bytes) := getU32 bytes
  let (hotFromProperty, _) := getU32 bytes
  ⟨.ofUInt32 x, .ofUInt32 y, .ofUInt32 hotX, .ofUInt32 hotY, width, height, visible, dataSize,
    hotFromProperty⟩

def size (extended : Bool) : ℕ := if extended then sizeofCursorWire2 else sizeofCursorWire

@[simp] theorem encode_length (w : CursorWire) (extended : Bool) :
    (w.encode extended).length = size extended := by
  cases extended <;> simp [encode, size, sizeofCursorWire, sizeofCursorWire2]

theorem decode_encode (w : CursorWire) (rest : List UInt8) :
    decode (w.encode true ++ rest) = w := by
  simp only [decode, encode, if_true, List.append_assoc, getU32_putU32]

/-- A legacy reply says nothing of where the hotspot came from. -/
theorem decode_encode_legacy (w : CursorWire) :
    decode (w.encode false) = { w with hotFromProperty := 0 } := by
  have hnil : getU32 [] = (0, []) := rfl
  have hsplit : w.encode false = putU32 w.x.toUInt32 ++ (putU32 w.y.toUInt32 ++
      (putU32 w.hotX.toUInt32 ++ (putU32 w.hotY.toUInt32 ++ (putU32 w.width ++
        (putU32 w.height ++ (putU32 w.visible ++ (putU32 w.dataSize ++ []))))))) := by
    simp [encode]
  simp only [hsplit, decode, getU32_putU32, hnil]

def payload (w : CursorWire) : ℕ := if w.visible ≠ 0 then w.dataSize.toNat else 0

end CursorWire

def wireHotMeasured (haveHotX haveHotY : Bool) : UInt32 := if haveHotX && haveHotY then 1 else 0

/-! The loops. A failed call is interrupted, and then made again, or failed for good. -/

def Errno.interrupted (e : Errno) : Bool := (e.code : ℤ) = EINTR

section Loops
variable {S : Type}

/-- Sends all of a buffer; false when the peer is gone. -/
def wireSendAll (sock : ℤ) (buf : List UInt8) : Cmd S Op Ans Bool :=
  Cmd.loop (fun rest =>
    if rest = [] then pure (.inr true)
    else do
      match ← sys (.send sock rest) with
      | .error e => if e.interrupted then pure (.inl rest) else pure (.inr false)
      | .ok n => if n = 0 then pure (.inr false) else pure (.inl (rest.drop n))) buf

/-- Receives exactly `len` bytes; none when the stream ends or fails before. -/
def wireRecvAll (sock : ℤ) (len : ℕ) : Cmd S Op Ans (Option (List UInt8)) :=
  Cmd.loop (fun got =>
    if len ≤ got.length then pure (.inr (some got))
    else do
      match ← sys (.recv sock (len - got.length)) with
      | .error e => if e.interrupted then pure (.inl got) else pure (.inr none)
      | .ok bytes => if bytes = [] then pure (.inr none) else pure (.inl (got ++ bytes))) []

def wireSendFd (sock fd : ℤ) (buf : List UInt8) : Cmd S Op Ans Bool := do
  let sent ← Cmd.loop (fun _ => do
    match ← sys (.sendmsg sock buf fd) with
    | .error e => if e.interrupted then pure (.inl ()) else pure (.inr none)
    | .ok n => pure (.inr (some n))) ()
  match sent with
  | none => pure false
  | some n => if n < buf.length then wireSendAll sock (buf.drop n) else pure true

def closeFd (fd : ℤ) : Cmd S Op Ans Unit := if 0 ≤ fd then sys (.close fd) else pure ()

def closeAll : List ℕ → Cmd S Op Ans Unit
  | [] => pure ()
  | fd :: fds => do
    sys (.close fd)
    closeAll fds

/-- Takes the descriptors of a block: the first of all is kept, the others are closed. -/
def scanFds : List ℕ → ℤ × ℕ → Cmd S Op Ans (ℤ × ℕ)
  | [], found => pure found
  | fd :: fds, (accepted, nfds) =>
    if nfds = 0 then scanFds fds (fd, nfds + 1)
    else do
      sys (.close fd)
      scanFds fds (accepted, nfds + 1)

/-- The first descriptor of a message, and how many there are. -/
def scanControl : List ControlBlock → ℤ × ℕ → Cmd S Op Ans (ℤ × ℕ)
  | [], found => pure found
  | b :: blocks, found =>
    if ¬ b.Rights then scanControl blocks found
    else do
      let found ← scanFds b.ints found
      scanControl blocks found

/-- `wire_recv_fd`, with what it leaves in `*out_fd`. -/
def wireRecvFdOut (sock : ℤ) (len : ℕ) : Cmd S Op Ans (Option (List UInt8) × ℤ) := do
  match ← sys (.recvmsg sock len) with
  | .error _ => pure (none, -1)
  | .ok msg =>
    if msg.bytes = [] then pure (none, -1)
    else do
      let (accepted, nfds) ← scanControl msg.control (-1, 0)
      if msg.ctrunc ∨ 1 < nfds then do
        closeFd accepted
        pure (none, -1)
      else if msg.bytes.length < len then do
        match ← wireRecvAll sock (len - msg.bytes.length) with
        | some rest => pure (some (msg.bytes ++ rest), accepted)
        | none => do
          sys (.close accepted)
          pure (none, -1)
      else pure (some msg.bytes, accepted)

/-- Receives `len` bytes and at most one descriptor, -1 when there is none, as the caller reads
it: `*out_fd` after a success only. -/
def wireRecvFd (sock : ℤ) (len : ℕ) : Cmd S Op Ans (Option (List UInt8 × ℤ)) := do
  let (bytes, fd) ← wireRecvFdOut sock len
  pure (bytes.map (·, fd))

/-! The scan of the control blocks, in one go. -/

/-- Once a descriptor is kept, the others are closed. -/
theorem scanFds_kept (fds : List ℕ) (accepted : ℤ) (n : ℕ) :
    scanFds (S := S) fds (accepted, n + 1) =
      (do closeAll fds
          pure (accepted, n + 1 + fds.length)) := by
  induction fds generalizing n with
  | nil => simp [scanFds, closeAll]
  | cons fd fds ih =>
    have hlen : n + 1 + 1 + fds.length = n + 1 + (fd :: fds).length := by
      rw [List.length_cons]
      omega
    simp only [scanFds, closeAll, Nat.add_one_ne_zero, if_false, ih, hlen, bind_assoc]

theorem closeAll_append (fds fds' : List ℕ) :
    closeAll (S := S) (fds ++ fds') =
      (do closeAll fds
          closeAll fds') := by
  induction fds with
  | nil => simp [closeAll]
  | cons fd fds ih => simp only [List.cons_append, closeAll, ih, bind_assoc]

theorem scanControl_kept (blocks : List ControlBlock) (accepted : ℤ) (n : ℕ) :
    scanControl (S := S) blocks (accepted, n + 1) =
      (do closeAll (blocks.flatMap ControlBlock.fds)
          pure (accepted, n + 1 + (blocks.flatMap ControlBlock.fds).length)) := by
  induction blocks generalizing n with
  | nil => simp [scanControl, closeAll]
  | cons b blocks ih =>
    by_cases hb : b.Rights
    · have hfds : b.fds = b.ints := if_pos hb
      have hn : n + 1 + b.ints.length = n + b.ints.length + 1 := by omega
      have hlen : n + b.ints.length + 1 + (blocks.flatMap ControlBlock.fds).length =
          n + 1 + (b.ints.length + (blocks.flatMap ControlBlock.fds).length) := by omega
      simp only [scanControl, hb, not_true_eq_false, if_false, scanFds_kept, bind_assoc, pure_bind,
        hn, ih, hlen, List.flatMap_cons, hfds, closeAll_append, List.length_append]
    · have hfds : b.fds = [] := if_neg hb
      simp only [scanControl, hb, not_false_eq_true, if_true, ih, List.flatMap_cons, hfds,
        List.nil_append]

/-- The first descriptor is kept and the others are closed, in whatever blocks they come. -/
theorem scanControl_eq (msg : Message) :
    scanControl (S := S) msg.control (-1, 0) =
      (do closeAll msg.fds.tail
          pure ((msg.fds.head?.map Nat.cast).getD (-1), msg.fds.length)) := by
  unfold Message.fds
  induction msg.control with
  | nil => simp [scanControl, closeAll]
  | cons b blocks ih =>
    by_cases hb : b.Rights
    · have hfds : b.fds = b.ints := if_pos hb
      simp only [scanControl, hb, not_true_eq_false, if_false, List.flatMap_cons, hfds]
      cases b.ints with
      | nil => simpa [scanFds] using ih
      | cons fd fds =>
        have hn : 0 + 1 + fds.length = fds.length + 1 := by omega
        have hlen : fds.length + 1 + (blocks.flatMap ControlBlock.fds).length =
            fds.length + (blocks.flatMap ControlBlock.fds).length + 1 := by omega
        simp only [scanFds, if_true, scanFds_kept, bind_assoc, pure_bind, hn, scanControl_kept,
          hlen, List.cons_append, List.head?_cons, List.tail_cons, Option.map_some,
          Option.getD_some, closeAll_append, List.length_cons, List.length_append]
    · have hfds : b.fds = [] := if_neg hb
      simp only [scanControl, hb, not_false_eq_true, if_true, ih, List.flatMap_cons, hfds,
        List.nil_append]

theorem wireRecvFd_eq (sock : ℤ) (len : ℕ) :
    wireRecvFd (S := S) sock len = (do
      match ← sys (.recvmsg sock len) with
      | .error _ => pure none
      | .ok msg =>
        if msg.bytes = [] then pure none
        else do
          let accepted : ℤ := (msg.fds.head?.map Nat.cast).getD (-1)
          closeAll msg.fds.tail
          if msg.ctrunc ∨ 1 < msg.fds.length then do
            closeFd accepted
            pure none
          else if msg.bytes.length < len then do
            match ← wireRecvAll sock (len - msg.bytes.length) with
            | some rest => pure (some (msg.bytes ++ rest, accepted))
            | none => do
              sys (.close accepted)
              pure none
          else pure (some (msg.bytes, accepted))) := by
  unfold wireRecvFd wireRecvFdOut
  simp only [bind_assoc]
  congr! 1
  funext r
  rcases r with e | msg
  · rfl
  · simp only [scanControl_eq, bind_assoc, pure_bind]
    split_ifs
    · rfl
    · simp
    · simp only [bind_assoc]
      congr! 3
      funext rest
      cases rest <;> simp
    · simp

def SendOp : Op → Prop
  | .send _ _ | .sendmsg _ _ _ => True
  | _ => False

theorem wireSendAll_reads (sock : ℤ) (buf : List UInt8) :
    Cmd.Reads SendOp (wireSendAll (S := S) sock buf) := by
  apply Cmd.Reads.loop
  intro rest
  apply Cmd.Reads.ite (.pure _)
  apply Cmd.Reads.bind (.call trivial)
  rintro (e | n)
  · exact .ite (.pure _) (.pure _)
  · exact .ite (.pure _) (.pure _)

theorem wireSendFd_reads (sock fd : ℤ) (buf : List UInt8) :
    Cmd.Reads SendOp (wireSendFd (S := S) sock fd buf) := by
  apply Cmd.Reads.bind
  · apply Cmd.Reads.loop
    intro _
    apply Cmd.Reads.bind (.call trivial)
    rintro (e | n)
    · exact .ite (.pure _) (.pure _)
    · exact .pure _
  · rintro (_ | n)
    · exact .pure _
    · exact .ite (wireSendAll_reads sock _) (.pure _)

end Loops

end Drmtap
