import Drmtap.ConvertDmabuf
import Drmtap.FrameOwnership
import Drmtap.WireDescriptors

/-! The pixels that a helper sends: where they are once a grab returns, and where they came from. -/
namespace Drmtap

open Memory Effect

/-- What was received since the last command. -/
structure GrabLog where
  /-- a whole CMD_GRAB was sent -/
  asked : Bool
  heard : List UInt8

namespace GrabLog

def start : GrabLog := ⟨false, []⟩

def hear (l : GrabLog) (bytes : List UInt8) : GrabLog := { l with heard := l.heard ++ bytes }

def note (l : GrabLog) : (o : Op) → Ans o → GrabLog
  | .helperSpawn, .ok _ => .start
  | .send _ bytes, .ok n => ⟨n = sizeofHelperCmd ∧ (HelperCmd.decode bytes).type = cmdGrab, []⟩
  | .send _ _, .error _ => .start
  | .recv _ _, .ok bytes => l.hear bytes
  | .recvmsg _ _, .ok msg => l.hear msg.bytes
  | _, _ => l

end GrabLog

/-- A reception gives no more than was asked for. -/
def WithinLength : (o : Op) → Ans o → Prop
  | .recv _ len, (r : Except Errno (List UInt8)) => ∀ bytes, r = .ok bytes → bytes.length ≤ len
  | .recvmsg _ len, (r : Except Errno Message) => ∀ msg, r = .ok msg → msg.bytes.length ≤ len
  | _, _ => True

abbrev heardEnv : Env := (Effect.Env.noting GrabLog.note).restrict fun _ => WithinLength

theorem GrabLog.hears : Hears GrabLog.note WithinLength GrabLog.hear where
  nil l := by simp [hear]
  append l b b' := by simp [hear]
  fails _ _ _ _ := rfl
  takes _ _ _ _ := rfl
  within _ _ b h := h b rfl

/-- The reply to the CMD_GRAB that was sent last is all that was received since: a record, and as
many bytes as it says, which are the first ones of a buffer. -/
structure PixelReply (m : Machine) (l : GrabLog) (wire : GrabWire) (payload : List UInt8)
    (b : Slice) : Prop where
  asked : l.asked = true
  heard : ∃ head, l.heard = head ++ payload ∧ head.length = sizeofGrabWire ∧ wire = .decode head
  size : payload.length = wire.dataSize.toNat
  load : m.heap.load b 0 payload.length = some payload

section Reply
variable {m : Machine} {l : GrabLog} {fd : ℤ}

theorem heardEnv_call {o : Op} {Q : Ans o → Machine → GrabLog → Prop}
    (h : ∀ r, WithinLength o r → Q r m (l.note o r)) : Cmd.wlp heardEnv (sys o) Q m l := by
  rw [Cmd.wlp_call]
  refine ⟨trivial, ?_⟩
  rintro r _ ⟨rfl, hr⟩
  exact h r hr

theorem heardEnv_any {α : Type} (c : M α) : Cmd.wlp heardEnv c (fun _ _ _ => True) m l :=
  Cmd.wlp_true (E := heardEnv) (fun _ _ => trivial) c m l

theorem trySend_grab : Cmd.wlp heardEnv (trySend cmdGrab)
    (fun sent _ l' => sent = true → l' = ⟨true, []⟩) m l := by
  unfold trySend
  rw [Cmd.wlp_bind, wlp_getCtx, Cmd.wlp_bind]
  apply heardEnv_call
  rintro (e | n) -
  · intro h
    simp at h
  · intro h
    have hn : n = sizeofHelperCmd := of_decide_eq_true h
    subst hn
    show GrabLog.note l (.send _ _) (.ok _) = _
    simp only [GrabLog.note]
    rw [← List.append_nil (HelperCmd.encode _), HelperCmd.decode_encode]
    rfl

theorem sendCommand_grab : Cmd.wlp heardEnv (sendCommand cmdGrab id)
    (fun r _ l' => ¬ r < 0 → l' = ⟨true, []⟩) m l := by
  have heio : (- EIO : ℤ) < 0 := by decide
  have hret (sent : Bool) (l' : GrabLog) (h : sent = true → l' = ⟨true, []⟩) :
      ¬ (if sent then (0 : ℤ) else - EIO) < 0 → l' = ⟨true, []⟩ := by
    cases sent with
    | true => exact fun _ => h rfl
    | false => exact fun hge => absurd heio hge
  unfold sendCommand sendOrResend resend
  rw [Cmd.wlp_bind]
  apply Cmd.wlp_mono (heardEnv_any _)
  intro ret m₁ l₁ _
  rw [Cmd.wlp_ite]
  refine ⟨fun hlt hge => absurd hlt hge, fun _ => ?_⟩
  rw [Cmd.wlp_bind]
  apply Cmd.wlp_mono trySend_grab
  intro sent m₂ l₂ hsent
  rw [Cmd.wlp_ite]
  refine ⟨fun h _ => hsent h, fun _ => ?_⟩
  rw [Cmd.wlp_bind]
  apply Cmd.wlp_mono (heardEnv_any _)
  intro _ m₃ l₃ _
  rw [Cmd.wlp_bind]
  apply Cmd.wlp_mono (heardEnv_any _)
  intro ret m₄ l₄ _
  rw [Cmd.wlp_ite]
  refine ⟨fun hlt hge => absurd hlt hge, fun _ => ?_⟩
  rw [Cmd.wlp_bind]
  apply Cmd.wlp_mono trySend_grab
  intro sent m₅ l₅ hsent
  exact hret sent l₅ hsent

/-- A record is the next bytes that are received. -/
theorem wireRecvFd_heard (len : ℕ) : Cmd.wlp heardEnv (wireRecvFd fd len)
    (fun r m' l' => m' = m ∧ ∀ bytes fd, r = some (bytes, fd) →
      bytes.length = len ∧ l' = l.hear bytes) m l := by
  have hclose (fd : ℤ) (l : GrabLog) {Q : Unit → Machine → GrabLog → Prop} (h : Q () m l) :
      Cmd.wlp heardEnv (closeFd fd) Q m l := by
    unfold closeFd
    rw [Cmd.wlp_ite]
    exact ⟨fun _ => heardEnv_call fun _ _ => h, fun _ => h⟩
  have hall (fds : List ℕ) (l : GrabLog) {Q : Unit → Machine → GrabLog → Prop} (h : Q () m l) :
      Cmd.wlp heardEnv (closeAll fds) Q m l := by
    induction fds with
    | nil => exact h
    | cons fd fds ih =>
      rw [closeAll, Cmd.wlp_bind]
      exact heardEnv_call fun _ _ => ih
  unfold wireRecvFd wireRecvFdOut
  rw [Cmd.wlp_bind, Cmd.wlp_bind]
  apply heardEnv_call
  rintro (e | msg) hmsg
  · exact ⟨rfl, by simp⟩
  · have hlen : msg.bytes.length ≤ len := hmsg msg rfl
    simp only [Cmd.wlp_ite, Cmd.wlp_pure, scanControl_eq, bind_assoc, pure_bind]
    refine ⟨fun _ => ⟨trivial, by simp⟩, fun _ => ?_⟩
    rw [Cmd.wlp_bind]
    apply hall
    simp only [Cmd.wlp_ite, Cmd.wlp_bind, Cmd.wlp_pure]
    refine ⟨fun _ => hclose _ _ ⟨rfl, by simp⟩, fun _ => ⟨fun hshort => ?_, fun hfull => ?_⟩⟩
    · apply Cmd.wlp_mono (wireRecvAll_hears GrabLog.hears fd _)
      rintro (_ | rest) _ _ ⟨rfl, got, rfl, hgot⟩
      · rw [Cmd.wlp_bind]
        exact heardEnv_call fun _ _ => ⟨rfl, by simp⟩
      · obtain ⟨rfl, hrest⟩ := hgot rest rfl
        refine ⟨rfl, ?_⟩
        rintro bytes fd' h
        obtain ⟨rfl, -⟩ : msg.bytes ++ rest = bytes ∧ _ = fd' := by simpa using h
        refine ⟨?_, GrabLog.hears.append l msg.bytes rest⟩
        rw [List.length_append]
        omega
    · refine ⟨trivial, ?_⟩
      rintro bytes fd' h
      obtain ⟨rfl, -⟩ : msg.bytes = bytes ∧ _ = fd' := by simpa using h
      exact ⟨by omega, rfl⟩

section Payload
variable {wire : GrabWire} {payload : List UInt8} {b : Slice}

/-- The reply stays where its buffer is left alone. -/
theorem PixelReply.moved {m' : Machine} (h : PixelReply m l wire payload b)
    (hb : m'.heap.block b.base = m.heap.block b.base) : PixelReply m' l wire payload b :=
  ⟨h.asked, h.heard, h.size, (Heap.load_congr hb 0 payload.length).trans h.load⟩

theorem PixelReply.live (h : PixelReply m l wire payload b) : m.heap.Live b := Heap.load_live h.load

/-- The bytes that came with a record, as a file. -/
def payloadBuf (payload : List UInt8) : DmaBuf := ⟨payload.length, fun i => payload.getD i 0⟩

theorem PixelReply.bytesAt_eq (h : PixelReply m l wire payload b) {off n : ℕ}
    (hin : off + n ≤ payload.length) :
    bytesAt m.heap b off n = (payloadBuf payload).bytes off n := by
  have hload := h.load
  rw [Heap.load_eq h.live (Heap.load_isSome h.load).1] at hload
  have hpayload := Option.some.inj hload
  apply List.map_congr_left
  intro i hi
  have hlt : off + i < payload.length := by
    have := List.mem_range.mp hi
    omega
  show m.heap.read b.base (off + i) = payload.getD (off + i) 0
  rw [← hpayload]
  simp [hlt]

end Payload

end Reply

/-! What a grab prepares -/

/-- The picture that a record describes, in rows of `width` pixels. -/
def GrabWire.desc (wire : GrabWire) (width : UInt32) : DmabufDesc where
  dmaBufFd := -1
  width := width
  height := wire.height
  format := wire.format
  modifier := wire.modifier
  fbId := wire.fbId
  numPlanes := 1
  offsets _ := 0
  pitches _ := wire.stride
  hdrEotf := wire.hdrEotf
  hdrMaxNits := wire.hdrMaxNits

/-- The pixels of a frame are those that came with a record: as they lie in the receive buffer, or
in an output buffer, reduced or read out of their tiles. What lies behind the pixels of a row that
was read out of tiles is nobody's. -/
inductive FrameInfo.Presents (frame : FrameInfo) (m : Machine) (wire : GrabWire)
    (payload : List UInt8) (b : Slice) : Prop where
  | received (hd : frame.data = some b) (hs : frame.stride = wire.stride)
      (hf : frame.format = wire.format)
  | reduced {out} (hd : frame.data = some out) (hl : RowMajor wire.modifier)
      (hs : frame.stride = frame.width * 4) (hf : frame.format = fmtXR24)
      (hout : Dest m (frame.width.toNat * frame.height.toNat * 4) out)
      (hpic : Shows m.heap out (4 * frame.width.toNat) frame.width.toNat frame.height.toNat
        ((wire.desc frame.width).linearPic (payloadBuf payload)))
  | untiled {out off} (hd : frame.data = some out) (hl : ¬ RowMajor wire.modifier)
      (hoff : cpuOffset wire.modifier = some off) (hs : frame.stride = wire.stride)
      (hf : frame.format = if isAr30 wire.format then fmtXR24 else wire.format)
      (hout : Dest m (wire.stride.toNat * frame.height.toNat) out)
      (hpic : Shows m.heap out wire.stride.toNat frame.width.toNat frame.height.toNat
        ((wire.desc frame.width).tiledPic (payloadBuf payload) off))

/-- The frame is the picture of the reply, which is in the receive buffer. -/
def FrameInfo.Received (frame : FrameInfo) (m : Machine) (l : GrabLog) : Prop :=
  ∃ wire payload b, m.ctx.pixelBuf = some b ∧ PixelReply m l wire payload b ∧
    wire.dataSize.toNat = wire.stride.toNat * wire.height.toNat ∧ frame.height = wire.height ∧
    frame.Presents m wire payload b

/-- A frame just filled from a record, in the receive buffer. -/
structure FrameInfo.Filled (frame : FrameInfo) (m : Machine) (wire : GrabWire) (b : Slice) :
    Prop where
  data : frame.data = some b
  height : frame.height = wire.height
  stride : frame.stride = wire.stride
  format : frame.format = wire.format
  modifier : frame.modifier = wire.modifier
  eotf : m.ctx.curHdrEotf = wire.hdrEotf
  maxNits : m.ctx.curHdrMaxNits = wire.hdrMaxNits

/-- And no conversion has touched it. -/
def FrameInfo.Holds (frame : FrameInfo) (m : Machine) (l : GrabLog) : Prop :=
  ∃ wire payload b, m.ctx.pixelBuf = some b ∧ PixelReply m l wire payload b ∧
    wire.dataSize.toNat = wire.stride.toNat * wire.height.toNat ∧ frame.Filled m wire b

theorem FrameInfo.Holds.received {frame : FrameInfo} {m : Machine} {l : GrabLog}
    (h : frame.Holds m l) : frame.Received m l := by
  obtain ⟨wire, payload, b, hpix, hreply, hsize, hf⟩ := h
  exact ⟨wire, payload, b, hpix, hreply, hsize, hf.height, .received hf.data hf.stride hf.format⟩

/-- A frame with a descriptor. -/
def Prepared.Exported : Prepared → Prop
  | .done _ _ => True
  | .ready _ frame _ => 0 ≤ frame.dmaBufFd
  | .unmapped _ frame _ _ => 0 ≤ frame.dmaBufFd

def Prepared.Received (m : Machine) (l : GrabLog) : Prepared → Prop
  | .done _ _ => True
  | .ready _ frame _ => 0 ≤ frame.dmaBufFd ∨ frame.Holds m l
  | .unmapped _ frame _ _ => 0 ≤ frame.dmaBufFd

theorem Prepared.Exported.received {prepared : Prepared} (h : prepared.Exported) (m : Machine)
    (l : GrabLog) : prepared.Received m l := by
  cases prepared with
  | done => trivial
  | ready => exact .inl h
  | unmapped => exact h

section Prepare
variable {m : Machine} {l : GrabLog} {n : ℕ}

end Prepare

/-! What it returns -/

section Returns
variable {egl : Prop} {m m' : Machine} {l l' : GrabLog} {held held' rest : Multiset Resource}
  {frame frame' : FrameInfo} {α : Type}

section Pictures
variable {wire : GrabWire} {payload : List UInt8} {b : Slice}

/-- Reduced from the receive buffer is reduced from what was received. -/
theorem FrameInfo.Filled.linearPic_eq (h : frame.Filled m wire b)
    (hr : PixelReply m l wire payload b)
    (hsize : payload.length = wire.stride.toNat * wire.height.toNat) {x y : ℕ}
    (hx : x < frame.width.toNat) (hy : y < frame.height.toNat)
    (hw : bytesPerPixel frame.format * frame.width.toNat ≤ frame.stride.toNat) :
    linearPic m.ctx m.heap frame b x y =
      (wire.desc frame.width).linearPic (payloadBuf payload) x y := by
  have hrow := row_end_le frame.stride.toNat hy
  have hcell := cell_end_le (bytesPerPixel frame.format) hx
  rw [h.height, h.stride, Nat.mul_comm wire.height.toNat] at hrow
  have hin : y * wire.stride.toNat + bytesPerPixel wire.format * x +
      bytesPerPixel wire.format ≤ payload.length := by
    rw [hsize]
    rw [h.format] at hcell hw
    rw [h.stride] at hw
    omega
  unfold linearPic DmabufDesc.linearPic
  rw [h.stride, h.format, h.eotf, h.maxNits, hr.bytesAt_eq hin]
  simp only [GrabWire.desc, DmabufDesc.pitch, UInt32.toNat_zero, Nat.zero_add]

/-- And so it is with what is read out of tiles. -/
theorem FrameInfo.Filled.tiledPic_eq (h : frame.Filled m wire b)
    (hr : PixelReply m l wire payload b)
    (hsize : payload.length = wire.stride.toNat * wire.height.toNat) (off : ℕ → ℕ → ℕ → ℕ) :
    tiledPic m.ctx m.heap frame b off =
      (wire.desc frame.width).tiledPic (payloadBuf payload) off := by
  have hbacked : ∀ x y, backedBytes m.heap b (wire.height.toNat * wire.stride.toNat)
      (off wire.stride.toNat x y) 4 =
        if off wire.stride.toNat x y + 4 ≤ wire.height.toNat * wire.stride.toNat then
          (payloadBuf payload).bytes (off wire.stride.toNat x y) 4
        else List.replicate 4 0 := by
    intro x y
    unfold backedBytes
    split
    next hin =>
      exact hr.bytesAt_eq (by rwa [hsize, Nat.mul_comm])
    · rfl
  funext x y
  unfold tiledPic DmabufDesc.tiledPic
  rw [h.stride, h.format, h.height, h.eotf, h.maxNits, hbacked]
  simp only [GrabWire.desc, DmabufDesc.pitch, UInt32.toNat_zero, Nat.zero_add]

end Pictures

/-- A conversion leaves the receive buffer alone, and shows what is there. -/
theorem FrameInfo.Holds.processed {force : Bool} (hm : m.Ready) (hfd : frame.dmaBufFd < 0)
    (h : frame.Holds m l) (hc : Converts m m')
    (hp : Processed egl m frame.data frame force frame' m') : frame'.Received m' l := by
  obtain ⟨wire, payload, b, hpix, hreply, hsize, hf⟩ := h
  obtain ⟨hwhole, hout⟩ := hm.pixel b hpix
  have hreply' : PixelReply m' l wire payload b :=
    hreply.moved (hc.keep _ hwhole.live.lt_next hout)
  have hpix' : m'.ctx.pixelBuf = some b := by
    rw [hc.ctx]
    exact hpix
  have hlen : payload.length = wire.stride.toNat * wire.height.toNat := hreply.size.trans hsize
  have hpresents (hp : frame'.height = wire.height ∧ frame'.Presents m' wire payload b) :
      frame'.Received m' l := ⟨wire, payload, b, hpix', hreply', hsize, hp⟩
  apply hpresents
  cases hp with
  | idle => exact ⟨hf.height, .received hf.data hf.stride hf.format⟩
  | passed => exact ⟨hf.height, .received hf.data hf.stride hf.format⟩
  | reduced hd _ hl _ hw hout hpic =>
    obtain rfl := Option.some.inj (hf.data.symm.trans hd)
    refine ⟨hf.height, .reduced rfl (hf.modifier ▸ hl) rfl rfl hout ?_⟩
    intro y hy x hx
    exact (hpic y hy x hx).trans (hf.linearPic_eq hreply hlen hx hy hw)
  | untiled hd _ hl _ hoff hw hout hpic =>
    obtain rfl := Option.some.inj (hf.data.symm.trans hd)
    rw [hf.stride] at hout hpic
    rw [hf.tiledPic_eq hreply hlen] at hpic
    rw [hf.modifier] at hl hoff
    refine ⟨hf.height, .untiled rfl hl hoff hf.stride ?_ hout hpic⟩
    simp only [hf.format]
  | gpu _ hgpu => omega

end Returns

/-- The reply of a helper that sends the four bytes of one pixel. -/
def pixelWire : GrabWire := { passedWire with flags := 0, dataSize := 4 }

def pixelDevice : Device
  | .recvmsg _ len => .ok ⟨pixelWire.encode.take len, [], false⟩
  | .recv _ len => .ok ([1, 2, 3, 4].take len)
  | o => passedDevice o

theorem pixelDevice_libAns (o : Op) : libAns False o (pixelDevice o) := by
  cases o with
  | recv fd len => exact List.length_take_le _ _
  | recvmsg fd len => exact fun _ => rfl
  | _ => exact passedDevice_libAns _

end Drmtap
