import Drmtap.Lib.Total
import Drmtap.Wire

/-! Frames on one stream: what is sent with `wire_send_all` and `wire_send_fd` at one end, in any
pieces, and received with `wire_recv_all` and `wire_recv_fd` at the other. -/
namespace Drmtap

open Effect

/-- A byte in flight, with the descriptor that travels with it. -/
structure Cell where
  byte : UInt8
  passed : Option ℤ

def plainCells (bytes : List UInt8) : List Cell := bytes.map (⟨·, none⟩)

/-- The descriptor travels with the first byte. -/
def passedCells (fd : ℤ) : List UInt8 → List Cell
  | [] => []
  | b :: bytes => ⟨b, some fd⟩ :: plainCells bytes

/-- The descriptors that come with some bytes, in order. -/
def carried (cells : List Cell) : List ℤ := cells.filterMap Cell.passed

@[simp] theorem plainCells_length (bytes : List UInt8) : (plainCells bytes).length = bytes.length :=
  List.length_map _

@[simp] theorem passedCells_length (fd : ℤ) (bytes : List UInt8) :
    (passedCells fd bytes).length = bytes.length := by
  cases bytes <;> simp [passedCells]

theorem plainCells_take (n : ℕ) (bytes : List UInt8) :
    plainCells (bytes.take n) = (plainCells bytes).take n := List.map_take

theorem plainCells_drop (n : ℕ) (bytes : List UInt8) :
    plainCells (bytes.drop n) = (plainCells bytes).drop n := List.map_drop

theorem passedCells_take (fd : ℤ) (n : ℕ) (bytes : List UInt8) :
    passedCells fd (bytes.take n) = (passedCells fd bytes).take n := by
  cases n with
  | zero => rfl
  | succ n =>
    cases bytes with
    | nil => rfl
    | cons b bytes => simp [passedCells, plainCells_take]

/-- Once the first byte is gone, so is the descriptor. -/
theorem passedCells_drop {fd : ℤ} {n : ℕ} (hn : 0 < n) (bytes : List UInt8) :
    plainCells (bytes.drop n) = (passedCells fd bytes).drop n := by
  obtain ⟨n, rfl⟩ := Nat.exists_eq_succ_of_ne_zero hn.ne'
  cases bytes with
  | nil => rfl
  | cons b bytes => simp [passedCells, plainCells_drop]

@[simp] theorem plainCells_bytes (bytes : List UInt8) :
    (plainCells bytes).map Cell.byte = bytes := by
  simp [plainCells, Function.comp_def]

@[simp] theorem passedCells_bytes (fd : ℤ) (bytes : List UInt8) :
    (passedCells fd bytes).map Cell.byte = bytes := by
  cases bytes <;> simp [passedCells]

@[simp] theorem carried_plain (bytes : List UInt8) : carried (plainCells bytes) = [] := by
  induction bytes with
  | nil => rfl
  | cons b bytes => simp [carried, plainCells]

/-- What is sent at once. A descriptor needs a byte to travel with. -/
structure Frame where
  bytes : List UInt8
  passed : Option ℤ
  carrier : passed ≠ none → bytes ≠ []

namespace Frame

def cells (f : Frame) : List Cell :=
  match f.passed with
  | none => plainCells f.bytes
  | some fd => passedCells fd f.bytes

def send (sock : ℤ) (f : Frame) : Cmd Unit Op Ans Bool :=
  match f.passed with
  | none => wireSendAll sock f.bytes
  | some fd => wireSendFd sock fd f.bytes

@[simp] theorem cells_length (f : Frame) : f.cells.length = f.bytes.length := by
  unfold cells
  split <;> simp

@[simp] theorem cells_bytes (f : Frame) : f.cells.map Cell.byte = f.bytes := by
  unfold cells
  split <;> simp

/-- The first bytes of a frame bring its descriptor. -/
theorem carried_take (f : Frame) {k : ℕ} (hk : 0 < k) :
    carried (f.cells.take k) = f.passed.toList := by
  obtain ⟨k, rfl⟩ := Nat.exists_eq_succ_of_ne_zero hk.ne'
  unfold cells
  split
  next hp =>
    rw [hp, ← plainCells_take, carried_plain]
    rfl
  next fd hp =>
    cases hb : f.bytes with
    | nil => exact absurd hb (f.carrier (by simp [hp]))
    | cons b bytes =>
      have hrest : carried ((plainCells bytes).take k) = [] := by
        rw [← plainCells_take, carried_plain]
      simp only [passedCells, List.take_succ_cons, hp]
      simpa [carried] using hrest

end Frame

/-- A reception: how many bytes, and whether a descriptor may come with them. -/
structure Reception where
  len : ℕ
  withFd : Bool

def Reception.receive (sock : ℤ) (w : Reception) : Cmd Unit Op Ans (Option (List UInt8 × ℤ)) :=
  if w.withFd then wireRecvFd sock w.len
  else do
    let bytes ← wireRecvAll sock w.len
    pure (bytes.map (·, -1))

/-- The reception is one for this frame: of its length, and by `wire_recv_fd` if a descriptor
comes with it. That function waits for a message, so the frame has a byte. -/
structure Frame.Suits (f : Frame) (w : Reception) : Prop where
  len : w.len = f.bytes.length
  passed : f.passed ≠ none → w.withFd = true
  bytes : w.withFd = true → f.bytes ≠ []

/-! One frame at the sending end -/

/-- What is still to be put on the stream, as the calls put it there. The kernel takes at least
a byte of a message that is not empty. -/
inductive PutsOf (rest : List Cell) : (o : Op) → Ans o → List Cell → Prop where
  | send (sock : ℤ) (b : List UInt8) (n : ℕ) (hn : n ≤ b.length) :
      PutsOf rest (.send sock b) (.ok n) (rest.drop n)
  | sendFailed (sock : ℤ) (b : List UInt8) (e : Errno) : PutsOf rest (.send sock b) (.error e) rest
  | sendmsg (sock : ℤ) (b : List UInt8) (fd : ℤ) (n : ℕ) (hn : n ≤ b.length) (h0 : b ≠ [] → 0 < n) :
      PutsOf rest (.sendmsg sock b fd) (.ok n) (rest.drop n)
  | sendmsgFailed (sock : ℤ) (b : List UInt8) (fd : ℤ) (e : Errno) :
      PutsOf rest (.sendmsg sock b fd) (.error e) rest

/-- Only what is still to be put there is offered to the socket. -/
def Offers (rest : List Cell) : Op → Prop
  | .send _ b => plainCells b = rest
  | .sendmsg _ b fd => passedCells fd b = rest
  | _ => False

abbrev puttingEnv : Env where
  State := List Cell
  legal := Offers
  step := PutsOf

section Sending
variable {sock : ℤ} {st : Unit}

theorem wireSendAll_puts (bytes : List UInt8) :
    Cmd.wp puttingEnv (wireSendAll sock bytes) (fun ok _ rest => ok = true → rest = []) st
      (plainCells bytes) := by
  apply Cmd.wp_loop (fun todo _ rest => rest = plainCells todo) rfl
  rintro todo _ _ rfl
  rw [Cmd.wp_ite]
  constructor
  · rintro rfl -
    rfl
  · intro _
    rw [Cmd.wp_bind, Cmd.wp_call]
    refine ⟨rfl, ?_⟩
    intro r rest hputs
    cases hputs with
    | send _ _ n hn =>
      refine Cmd.wp_ite.mpr ⟨fun _ => fun h => absurd h Bool.false_ne_true, fun _ => ?_⟩
      exact (plainCells_drop n todo).symm
    | sendFailed _ _ e =>
      exact Cmd.wp_ite.mpr ⟨fun _ => rfl, fun _ => fun h => absurd h Bool.false_ne_true⟩

theorem wireSendFd_puts (fd : ℤ) {bytes : List UInt8} (hne : bytes ≠ []) :
    Cmd.wp puttingEnv (wireSendFd sock fd bytes) (fun ok _ rest => ok = true → rest = []) st
      (passedCells fd bytes) := by
  unfold wireSendFd
  rw [Cmd.wp_bind]
  apply Cmd.wp_loop (fun _ _ rest => rest = passedCells fd bytes) rfl
  rintro _ st _ rfl
  rw [Cmd.wp_bind, Cmd.wp_call]
  refine ⟨rfl, ?_⟩
  intro r rest hputs
  cases hputs with
  | sendmsg _ _ _ n hn h0 =>
    have hrest : (passedCells fd bytes).drop n = plainCells (bytes.drop n) :=
      (passedCells_drop (h0 hne) bytes).symm
    show Cmd.wp puttingEnv (if n < bytes.length then wireSendAll sock (bytes.drop n) else pure true)
      (fun ok _ rest => ok = true → rest = []) st ((passedCells fd bytes).drop n)
    rw [hrest, Cmd.wp_ite]
    refine ⟨fun _ => wireSendAll_puts _, fun hge => fun _ => ?_⟩
    rw [List.drop_eq_nil_of_le (not_lt.mp hge)]
    rfl
  | sendmsgFailed _ _ _ e =>
    refine Cmd.wp_ite.mpr ⟨fun _ => rfl, fun _ => ?_⟩
    exact fun h => absurd h Bool.false_ne_true

/-- A frame that was sent was put on the stream whole. -/
theorem Frame.send_puts (f : Frame) :
    Cmd.wp puttingEnv (f.send sock) (fun ok _ rest => ok = true → rest = []) st f.cells := by
  unfold send cells
  split
  next => exact wireSendAll_puts f.bytes
  next fd hp => exact wireSendFd_puts fd (f.carrier (by simp [hp]))

end Sending

/-! One frame at the receiving end -/

/-- A reception in progress. -/
structure Intake where
  /-- what is still to come of the frame -/
  rest : List Cell
  /-- the descriptors that were installed, under the numbers they got here -/
  opened : List (ℕ × ℤ)
  /-- the stream has ended, or a call has failed for good -/
  broken : Bool

def Intake.start (f : Frame) : Intake := ⟨f.cells, [], false⟩

/-- The next `k` bytes are taken. -/
def Intake.take (s : Intake) (k : ℕ) : Intake := { s with rest := s.rest.drop k }

def Intake.broke (s : Intake) : Intake := { s with broken := true }

/-- The descriptors of a message, each under a number of the kernel's choice. -/
structure Installed (msg : Message) (cells : List Cell) : Prop where
  bytes : msg.bytes = cells.map Cell.byte
  ctrunc : msg.ctrunc = false
  fds : msg.fds.length = (carried cells).length

/-- A piece of what is to come, of any size, or the end of the stream, or an error. -/
inductive TakesOf (s : Intake) : (o : Op) → Ans o → Intake → Prop where
  | recv (sock : ℤ) (len k : ℕ) (h0 : 0 < k) (hk : k ≤ len) :
      TakesOf s (.recv sock len) (.ok ((s.rest.take k).map Cell.byte)) (s.take k)
  | recvEnd (sock : ℤ) (len : ℕ) : TakesOf s (.recv sock len) (.ok []) s.broke
  | recvInterrupted (sock : ℤ) (len : ℕ) (e : Errno) (he : e.interrupted = true) :
      TakesOf s (.recv sock len) (.error e) s
  | recvFailed (sock : ℤ) (len : ℕ) (e : Errno) (he : e.interrupted = false) :
      TakesOf s (.recv sock len) (.error e) s.broke
  | recvmsg (sock : ℤ) (len k : ℕ) (msg : Message) (h0 : 0 < k) (hk : k ≤ len)
      (hmsg : Installed msg (s.rest.take k)) :
      TakesOf s (.recvmsg sock len) (.ok msg)
        { s.take k with opened := msg.fds.zip (carried (s.rest.take k)) }
  | recvmsgEnd (sock : ℤ) (len : ℕ) (msg : Message) (hmsg : msg.bytes = []) :
      TakesOf s (.recvmsg sock len) (.ok msg) s.broke
  | recvmsgFailed (sock : ℤ) (len : ℕ) (e : Errno) : TakesOf s (.recvmsg sock len) (.error e) s.broke
  | close (fd : ℤ) : TakesOf s (.close fd) () s

/-- No more is asked for than is still to come of the frame. -/
def Within (s : Intake) : Op → Prop
  | .recv _ len | .recvmsg _ len => len ≤ s.rest.length ∧ s.rest ≠ [] ∧ s.broken = false
  | .close _ => True
  | _ => False

abbrev takingEnv : Env where
  State := Intake
  legal := Within
  step := TakesOf

/-- A descriptor that arrives with its frame. -/
def Frame.Brings (f : Frame) (fd : ℤ) (opened : List (ℕ × ℤ)) : Prop :=
  match f.passed with
  | none => fd = -1 ∧ opened = []
  | some d => ∃ n : ℕ, fd = n ∧ opened = [(n, d)]

/-- A reception gives the frame it was made for, all of it, or fails on a broken stream before
the end of the frame. -/
def Frame.Taken (f : Frame) (r : Option (List UInt8 × ℤ)) (s : Intake) : Prop :=
  match r with
  | some (bytes, fd) => s.rest = [] ∧ bytes = f.bytes ∧ f.Brings fd s.opened
  | none => s.broken = true ∧ s.rest ≠ []

section Receiving
variable {sock : ℤ} {st : Unit}

/-- All that is still to come is received in pieces. -/
theorem wireRecvAll_takes {s : Intake} (hb : s.broken = false) {len : ℕ} (hlen : len = s.rest.length) :
    Cmd.wp takingEnv (wireRecvAll sock len) (fun r _ s' => s'.opened = s.opened ∧
      ((r = some (s.rest.map Cell.byte) ∧ s'.rest = []) ∨
        (r = none ∧ s'.broken = true ∧ s'.rest ≠ []))) st s := by
  subst hlen
  apply Cmd.wp_loop (fun got _ (s' : Intake) => s'.opened = s.opened ∧ s'.broken = false ∧
    got ++ s'.rest.map Cell.byte = s.rest.map Cell.byte)
  · exact ⟨rfl, hb, rfl⟩
  rintro got _ s' ⟨hopened, hb', hgot⟩
  have hlen : got.length + s'.rest.length = s.rest.length := by
    have := congrArg List.length hgot
    simpa using this
  rw [Cmd.wp_ite]
  constructor
  · intro hle
    have hnil : s'.rest = [] := List.eq_nil_of_length_eq_zero (by omega)
    rw [hnil, List.map_nil, List.append_nil] at hgot
    exact ⟨hopened, .inl ⟨congrArg some hgot, hnil⟩⟩
  · intro hlt
    have hne : s'.rest ≠ [] := by
      intro hnil
      rw [hnil, List.length_nil] at hlen
      omega
    have hask : s.rest.length - got.length = s'.rest.length := by omega
    rw [Cmd.wp_bind, Cmd.wp_call]
    refine ⟨⟨hask.le, hne, hb'⟩, ?_⟩
    intro r s'' htakes
    cases htakes with
    | recv _ _ k h0 hk =>
      have hsome : (s'.rest.take k).map Cell.byte ≠ [] := by
        intro hnil
        rw [List.map_eq_nil_iff, List.take_eq_nil_iff] at hnil
        exact hnil.elim h0.ne' hne
      refine Cmd.wp_ite.mpr ⟨fun hnil => absurd hnil hsome, fun _ => ⟨hopened, hb', ?_⟩⟩
      rw [← hgot, List.append_assoc, Intake.take, ← List.map_append, List.take_append_drop]
    | recvEnd =>
      exact Cmd.wp_ite.mpr ⟨fun _ => ⟨hopened, .inr ⟨rfl, rfl, hne⟩⟩, fun h => absurd rfl h⟩
    | recvInterrupted _ _ e he =>
      refine Cmd.wp_ite.mpr ⟨fun _ => ⟨hopened, hb', hgot⟩, fun h => absurd he h⟩
    | recvFailed _ _ e he =>
      refine Cmd.wp_ite.mpr ⟨fun h => ?_, fun _ => ⟨hopened, .inr ⟨rfl, rfl, hne⟩⟩⟩
      rw [he] at h
      cases h

/-- The first message of a frame brings its descriptor, and nothing has to be closed. -/
theorem Installed.brings {f : Frame} {msg : Message} {k : ℕ} (hk : 0 < k)
    (h : Installed msg (f.cells.take k)) : msg.fds.tail = [] ∧ ¬ 1 < msg.fds.length ∧
      f.Brings ((msg.fds.head?.map Nat.cast).getD (-1)) (msg.fds.zip (carried (f.cells.take k))) := by
  have hlen := h.fds
  rw [f.carried_take hk] at hlen ⊢
  unfold Frame.Brings
  cases hp : f.passed with
  | none =>
    have hnil : msg.fds = [] := List.eq_nil_of_length_eq_zero (by simpa [hp] using hlen)
    simp [hnil]
  | some d =>
    rw [hp] at hlen
    obtain ⟨n, hn⟩ := List.length_eq_one_iff.mp hlen
    refine ⟨by rw [hn]; rfl, by rw [hn]; simp, n, by rw [hn]; rfl, by rw [hn]; rfl⟩

theorem wireRecvFd_takes {f : Frame} (hne : f.bytes ≠ []) :
    Cmd.wp takingEnv (wireRecvFd sock f.bytes.length) (fun r _ s => f.Taken r s) st
      (Intake.start f) := by
  have hcells : f.cells ≠ [] := by
    intro hnil
    have hlen := f.cells_length
    rw [hnil] at hlen
    exact hne (List.eq_nil_of_length_eq_zero hlen.symm)
  rw [wireRecvFd_eq, Cmd.wp_bind, Cmd.wp_call]
  refine ⟨⟨f.cells_length.ge, hcells, rfl⟩, ?_⟩
  intro r s htakes
  cases htakes with
  | recvmsgFailed => exact ⟨rfl, hcells⟩
  | recvmsgEnd _ _ msg hmsg => exact Cmd.wp_ite.mpr ⟨fun _ => ⟨rfl, hcells⟩, fun h => absurd hmsg h⟩
  | recvmsg _ _ k msg h0 hk hmsg =>
    obtain ⟨htail, hone, hbrings⟩ := hmsg.brings h0
    have hbytes : msg.bytes = f.bytes.take k := by
      rw [hmsg.bytes, List.map_take]
      exact congrArg (List.take k) f.cells_bytes
    have hlen : msg.bytes.length = k := by
      rw [hbytes, List.length_take]
      omega
    have hrest : ((Intake.start f).take k).rest.map Cell.byte = f.bytes.drop k := by
      show (f.cells.drop k).map Cell.byte = f.bytes.drop k
      rw [List.map_drop, f.cells_bytes]
    have hsome : msg.bytes ≠ [] := by
      intro hnil
      rw [hnil, List.length_nil] at hlen
      omega
    refine Cmd.wp_ite.mpr ⟨fun hnil => absurd hnil hsome, fun _ => ?_⟩
    rw [Cmd.wp_bind, htail, closeAll, Cmd.wp_pure, Cmd.wp_ite]
    refine ⟨fun hbad => ?_, fun _ => ?_⟩
    · rw [hmsg.ctrunc] at hbad
      exact absurd (hbad.resolve_left Bool.false_ne_true) hone
    · rw [Cmd.wp_ite]
      constructor
      · intro hlt
        rw [Cmd.wp_bind]
        apply Cmd.wp_mono (wireRecvAll_takes rfl ?_)
        · rintro _ _ s' ⟨hopened, ⟨rfl, hnil⟩ | ⟨rfl, hbroken, hmore⟩⟩
          · refine ⟨hnil, ?_, hopened ▸ hbrings⟩
            show msg.bytes ++ ((Intake.start f).take k).rest.map Cell.byte = f.bytes
            rw [hrest, hbytes, List.take_append_drop]
          · rw [Cmd.wp_bind, Cmd.wp_call]
            refine ⟨trivial, ?_⟩
            intro _ s'' hclose
            cases hclose
            exact ⟨hbroken, hmore⟩
        · show f.bytes.length - msg.bytes.length = (f.cells.drop k).length
          rw [List.length_drop, f.cells_length, hlen]
      · intro hge
        have hwhole : f.bytes.length ≤ k := by omega
        refine ⟨List.drop_eq_nil_of_le (f.cells_length.trans_le hwhole), ?_, hbrings⟩
        show msg.bytes = f.bytes
        rw [hbytes, List.take_of_length_le hwhole]

/-- A reception that suits the frame takes it, or fails before its end on a broken stream. -/
theorem Frame.Suits.takes {f : Frame} {w : Reception} (h : f.Suits w) :
    Cmd.wp takingEnv (w.receive sock) (fun r _ s => f.Taken r s) st (Intake.start f) := by
  unfold Reception.receive
  rw [Cmd.wp_ite, h.len]
  refine ⟨fun hfd => wireRecvFd_takes (h.bytes hfd), fun hplain => ?_⟩
  have hnone : f.passed = none := by
    by_contra hsome
    exact hplain (h.passed hsome)
  rw [Cmd.wp_bind]
  apply Cmd.wp_mono (wireRecvAll_takes rfl f.cells_length.symm)
  rintro _ _ s ⟨hopened, ⟨rfl, hnil⟩ | ⟨rfl, hbroken⟩⟩
  · refine ⟨hnil, f.cells_bytes, ?_⟩
    rw [Frame.Brings, hnone]
    exact ⟨rfl, hopened⟩
  · exact hbroken

end Receiving

/-! Every call returns, unless it is interrupted for ever -/

/-- One for an answer that has a call made again. -/
def interruption : (o : Op) → Ans o → ℕ
  | .send _ _, .error e | .sendmsg _ _ _, .error e | .recv _ _, .error e =>
    if e.interrupted then 1 else 0
  | _, _ => 0

/-- Any answers, of which no more are interruptions than are left. -/
abbrev interruptedEnv : Env where
  State := ℕ
  legal _ _ := True
  step left o r left' := left = left' + interruption o r

section Returning
variable {sock : ℤ} {st : Unit} {left : ℕ}

/-- It returns, with any result. -/
abbrev Halts {α : Type} (m : Cmd Unit Op Ans α) : Prop :=
  ∀ st left, Cmd.halts interruptedEnv m (fun _ _ _ => True) st left

theorem Halts.bind {α β : Type} {m : Cmd Unit Op Ans α} {f : α → Cmd Unit Op Ans β} (hm : Halts m)
    (hf : ∀ a, Halts (f a)) : Halts (m >>= f) := fun st left =>
  Cmd.halts_bind (Cmd.halts_mono (hm st left) fun a st' left' _ => hf a st' left')

theorem Halts.pure {α : Type} (a : α) : Halts (pure a) := fun _ _ => trivial

theorem Halts.call (o : Op) : Halts (sys o) := fun _ _ _ _ _ => trivial

theorem Halts.ite {α : Type} {c : Prop} [Decidable c] {m m' : Cmd Unit Op Ans α} (hm : Halts m)
    (hm' : Halts m') : Halts (if c then m else m') := fun st left =>
  Cmd.halts_ite (fun _ => hm st left) fun _ => hm' st left

end Returning

/-! Both ends -/

/-- A frame as it arrived: what was returned, the descriptors that were installed meanwhile, and
how many bytes had been taken off the stream by then. -/
structure Arrival where
  bytes : List UInt8
  fd : ℤ
  opened : List (ℕ × ℤ)
  upTo : ℕ

/-- The two ends, each in the middle of a call or stopped, and the stream between them. -/
structure Exchange where
  /-- what is left of the present send, and the frames after it -/
  sender : Option (Prog Op Ans (Bool × Unit) × List Frame)
  /-- what is left of the present reception, and the ones after it -/
  receiver : Option (Prog Op Ans (Option (List UInt8 × ℤ) × Unit) × List Reception)
  /-- what was put on the stream and not taken off it yet -/
  flow : List Cell
  taken : List Cell
  /-- of the present reception -/
  opened : List (ℕ × ℤ)
  /-- the present reception has seen the end of the stream, or a failed call -/
  broken : Bool
  arrivals : List Arrival
  /-- a reception has failed -/
  failed : Bool

namespace Exchange

def beginSend (sock : ℤ) : List Frame → Option (Prog Op Ans (Bool × Unit) × List Frame)
  | [] => none
  | f :: later => some (f.send sock (), later)

def beginReceive (sock : ℤ) :
    List Reception → Option (Prog Op Ans (Option (List UInt8 × ℤ) × Unit) × List Reception)
  | [] => none
  | w :: later => some (w.receive sock (), later)

def start (sock peer : ℤ) (frames : List Frame) (receptions : List Reception) : Exchange :=
  ⟨beginSend sock frames, beginReceive peer receptions, [], [], [], false, [], false⟩

/-- Bytes put on the stream. -/
inductive Puts (flow : List Cell) : (o : Op) → Ans o → List Cell → Prop where
  | send (sock : ℤ) (b : List UInt8) (n : ℕ) (hn : n ≤ b.length) :
      Puts flow (.send sock b) (.ok n) (flow ++ plainCells (b.take n))
  | sendFailed (sock : ℤ) (b : List UInt8) (e : Errno) : Puts flow (.send sock b) (.error e) flow
  | sendmsg (sock : ℤ) (b : List UInt8) (fd : ℤ) (n : ℕ) (hn : n ≤ b.length) (h0 : b ≠ [] → 0 < n) :
      Puts flow (.sendmsg sock b fd) (.ok n) (flow ++ passedCells fd (b.take n))
  | sendmsgFailed (sock : ℤ) (b : List UInt8) (fd : ℤ) (e : Errno) :
      Puts flow (.sendmsg sock b fd) (.error e) flow

/-- The first `k` bytes of the stream are taken off it. -/
def take (x : Exchange) (k : ℕ) : Exchange :=
  { x with flow := x.flow.drop k, taken := x.taken ++ x.flow.take k }

def broke (x : Exchange) : Exchange := { x with broken := true }

/-- Bytes taken off the stream, which ends once the sender has stopped and all was taken. A plain
`recv` drops the descriptors that travel with what it takes. -/
inductive Takes (x : Exchange) : (o : Op) → Ans o → Exchange → Prop where
  | recv (sock : ℤ) (len k : ℕ) (h0 : 0 < k) (hk : k ≤ len) (hflow : k ≤ x.flow.length) :
      Takes x (.recv sock len) (.ok ((x.flow.take k).map Cell.byte)) (x.take k)
  | recvEnd (sock : ℤ) (len : ℕ) (hend : x.sender = none) (hflow : x.flow = []) :
      Takes x (.recv sock len) (.ok []) x.broke
  | recvInterrupted (sock : ℤ) (len : ℕ) (e : Errno) (he : e.interrupted = true) :
      Takes x (.recv sock len) (.error e) x
  | recvFailed (sock : ℤ) (len : ℕ) (e : Errno) (he : e.interrupted = false) :
      Takes x (.recv sock len) (.error e) x.broke
  | recvmsg (sock : ℤ) (len k : ℕ) (msg : Message) (h0 : 0 < k) (hk : k ≤ len)
      (hflow : k ≤ x.flow.length) (hmsg : Installed msg (x.flow.take k)) :
      Takes x (.recvmsg sock len) (.ok msg)
        { x.take k with opened := msg.fds.zip (carried (x.flow.take k)) }
  | recvmsgEnd (sock : ℤ) (len : ℕ) (msg : Message) (hend : x.sender = none) (hflow : x.flow = [])
      (hmsg : msg.bytes = []) : Takes x (.recvmsg sock len) (.ok msg) x.broke
  | recvmsgFailed (sock : ℤ) (len : ℕ) (e : Errno) : Takes x (.recvmsg sock len) (.error e) x.broke
  | close (fd : ℤ) : Takes x (.close fd) () x

/-- A reception has given a frame, and the next one begins. -/
def arrived (x : Exchange) (peer : ℤ) (bytes : List UInt8) (fd : ℤ) (later : List Reception) :
    Exchange :=
  { x with
    receiver := beginReceive peer later
    opened := []
    broken := false
    arrivals := x.arrivals ++ [⟨bytes, fd, x.opened, x.taken.length⟩] }

/-- A step of either end, in any order. The sender may stop at any point, and does if a send
fails; the receiver stops if a reception fails. -/
inductive Step (sock peer : ℤ) (x : Exchange) : Exchange → Prop where
  | put {o : Op} {k : Ans o → Prog Op Ans (Bool × Unit)} {later : List Frame} {r : Ans o}
      {flow : List Cell} (hs : x.sender = some (.call o k, later)) (h : Puts x.flow o r flow) :
      Step sock peer x { x with sender := some (k r, later), flow := flow }
  | pickSend {k : ℕ → Prog Op Ans (Bool × Unit)} {later : List Frame}
      (hs : x.sender = some (.any k, later)) (n : ℕ) :
      Step sock peer x { x with sender := some (k n, later) }
  | sent {later : List Frame} (hs : x.sender = some (.ret (true, ()), later)) :
      Step sock peer x { x with sender := beginSend sock later }
  | stop : Step sock peer x { x with sender := none }
  | take {o : Op} {k : Ans o → Prog Op Ans (Option (List UInt8 × ℤ) × Unit)}
      {later : List Reception} {r : Ans o} {y : Exchange}
      (hr : x.receiver = some (.call o k, later)) (h : Takes x o r y) :
      Step sock peer x { y with receiver := some (k r, later) }
  | pickReceive {k : ℕ → Prog Op Ans (Option (List UInt8 × ℤ) × Unit)} {later : List Reception}
      (hr : x.receiver = some (.any k, later)) (n : ℕ) :
      Step sock peer x { x with receiver := some (k n, later) }
  | arrived {bytes : List UInt8} {fd : ℤ} {later : List Reception}
      (hr : x.receiver = some (.ret (some (bytes, fd), ()), later)) :
      Step sock peer x (x.arrived peer bytes fd later)
  | refused {later : List Reception} (hr : x.receiver = some (.ret (none, ()), later)) :
      Step sock peer x { x with receiver := none, failed := true }

end Exchange

/-- Frames as they are on the stream. -/
def wire (frames : List Frame) : List Cell := frames.flatMap Frame.cells

/-- A frame arrived as it was sent. -/
structure Frame.Arrived (f : Frame) (a : Arrival) : Prop where
  bytes : a.bytes = f.bytes
  passed : f.Brings a.fd a.opened

theorem wire_append (frames frames' : List Frame) :
    wire (frames ++ frames') = wire frames ++ wire frames' := List.flatMap_append

theorem wire_cons (f : Frame) (frames : List Frame) : wire (f :: frames) = f.cells ++ wire frames :=
  List.flatMap_cons

theorem wire_concat (frames : List Frame) (f : Frame) : wire (frames ++ [f]) = wire frames ++ f.cells := by
  simp [wire]

namespace Exchange
variable {sock peer : ℤ} {frames : List Frame} {x y : Exchange}

/-- The rest of the present frame and the frames after it follow what is on the stream. -/
inductive Sending (frames : List Frame) (x : Exchange) : Prop where
  | sends {p : Prog Op Ans (Bool × Unit)} {later : List Frame} (hs : x.sender = some (p, later))
      (rest : List Cell) (hwire : x.taken ++ x.flow ++ rest ++ wire later = wire frames)
      (hp : p.wp puttingEnv (fun r rest => r.1 = true → rest = []) rest) : Sending frames x
  | stopped (hs : x.sender = none) (hwire : x.taken ++ x.flow <+: wire frames) : Sending frames x

/-- The present reception is that of the frame after those that have arrived. -/
inductive Receiving (frames : List Frame) (x : Exchange) : Prop where
  | receives {q : Prog Op Ans (Option (List UInt8 × ℤ) × Unit)} {later : List Reception}
      (hr : x.receiver = some (q, later)) (done : List Frame) (f : Frame) (after : List Frame)
      (hframes : frames = done ++ f :: after) (hdone : done.length = x.arrivals.length)
      (hlater : List.Forall₂ Frame.Suits after later) (s : Intake) (piece : List Cell)
      (htaken : x.taken = wire done ++ piece) (hpiece : piece ++ s.rest = f.cells) (hopened : s.opened = x.opened)
      (hbroken : s.broken = x.broken) (hq : q.wp takingEnv (fun r s => f.Taken r.1 s) s)
      (hfailed : x.failed = false) : Receiving frames x
  | failed (hr : x.receiver = none) (done : List Frame) (f : Frame) (after : List Frame)
      (hframes : frames = done ++ f :: after) (hdone : done.length = x.arrivals.length)
      (piece rest : List Cell) (hrest : rest ≠ []) (htaken : x.taken = wire done ++ piece)
      (hpiece : piece ++ rest = f.cells)
      (hbroken : x.broken = true) (hfailed : x.failed = true) : Receiving frames x
  | finished (hr : x.receiver = none) (hdone : x.arrivals.length = frames.length)
      (htaken : x.taken = wire frames) (hfailed : x.failed = false) : Receiving frames x

structure Inv (frames : List Frame) (x : Exchange) : Prop where
  sending : Sending frames x
  receiving : Receiving frames x
  arrived : ∀ (i : ℕ) (a : Arrival), x.arrivals[i]? = some a → (∃ f : Frame, frames[i]? = some f ∧ f.Arrived a) ∧
    a.upTo = (wire (frames.take (i + 1))).length

theorem Sending.stream (h : Sending frames x) : x.taken ++ x.flow <+: wire frames := by
  cases h with
  | sends _ rest hwire _ => exact ⟨rest ++ wire _, by rw [← List.append_assoc, hwire]⟩
  | stopped _ hwire => exact hwire

/-- The sender's part of a step. -/
theorem Puts.local {flow flow' rest : List Cell} {o : Op} {r : Ans o} (h : Puts flow o r flow')
    (ho : Offers rest o) : ∃ rest', PutsOf rest o r rest' ∧ flow' ++ rest' = flow ++ rest := by
  cases h with
  | send _ b n hn =>
    have hrest : plainCells b = rest := ho
    refine ⟨rest.drop n, .send _ _ n hn, ?_⟩
    rw [plainCells_take, hrest, List.append_assoc, List.take_append_drop]
  | sendFailed _ b e => exact ⟨rest, .sendFailed _ _ e, rfl⟩
  | sendmsg _ b fd n hn h0 =>
    have hrest : passedCells fd b = rest := ho
    refine ⟨rest.drop n, .sendmsg _ _ _ n hn h0, ?_⟩
    rw [passedCells_take, hrest, List.append_assoc, List.take_append_drop]
  | sendmsgFailed _ b fd e => exact ⟨rest, .sendmsgFailed _ _ _ e, rfl⟩

/-- What a step of the receiver leaves alone. -/
structure SameElse (x y : Exchange) : Prop where
  sender : y.sender = x.sender
  arrivals : y.arrivals = x.arrivals
  failed : y.failed = x.failed
  stream : y.taken ++ y.flow = x.taken ++ x.flow

theorem SameElse.refl (x : Exchange) : SameElse x x := ⟨rfl, rfl, rfl, rfl⟩

theorem SameElse.take (x : Exchange) (k : ℕ) : SameElse x (x.take k) :=
  ⟨rfl, rfl, rfl, by simp [Exchange.take]⟩

theorem Takes.same {o : Op} {r : Ans o} (h : Takes x o r y) : SameElse x y := by
  cases h with
  | recv _ _ k => exact .take x k
  | recvmsg _ _ k => exact ⟨rfl, rfl, rfl, (SameElse.take x k).stream⟩
  | recvEnd | recvFailed | recvmsgEnd | recvmsgFailed => exact ⟨rfl, rfl, rfl, rfl⟩
  | recvInterrupted | close => exact .refl x

/-- The receiver's part of a step: what it takes off the stream is the next piece of its frame. -/
theorem Takes.local {o : Op} {r : Ans o} {s : Intake} (h : Takes x o r y) (ho : Within s o)
    (hopened : s.opened = x.opened) (hbroken : s.broken = x.broken)
    (hnext : ∀ k ≤ s.rest.length, k ≤ x.flow.length → x.flow.take k = s.rest.take k) :
    ∃ s' piece, TakesOf s o r s' ∧ y.taken = x.taken ++ piece ∧ piece ++ s'.rest = s.rest ∧
      s'.opened = y.opened ∧ s'.broken = y.broken := by
  have hnone : x.taken = x.taken ++ [] := (List.append_nil _).symm
  have htake : ∀ k, k ≤ s.rest.length → k ≤ x.flow.length →
      x.flow.take k ++ (s.take k).rest = s.rest := by
    intro k hk hflow
    rw [hnext k hk hflow, Intake.take, List.take_append_drop]
  cases h with
  | recv sock len k h0 hk hflow =>
    have hk' : k ≤ s.rest.length := hk.trans ho.1
    refine ⟨s.take k, x.flow.take k, ?_, rfl, htake k hk' hflow, hopened, hbroken⟩
    rw [hnext k hk' hflow]
    exact .recv sock len k h0 hk
  | recvEnd sock len => exact ⟨s.broke, [], .recvEnd sock len, hnone, rfl, hopened, rfl⟩
  | recvInterrupted sock len e he =>
    exact ⟨s, [], .recvInterrupted sock len e he, hnone, rfl, hopened, hbroken⟩
  | recvFailed sock len e he =>
    exact ⟨s.broke, [], .recvFailed sock len e he, hnone, rfl, hopened, rfl⟩
  | recvmsg sock len k msg h0 hk hflow hmsg =>
    have hk' : k ≤ s.rest.length := hk.trans ho.1
    rw [hnext k hk' hflow] at hmsg
    refine ⟨{ s.take k with opened := msg.fds.zip (carried (s.rest.take k)) }, x.flow.take k,
      .recvmsg sock len k msg h0 hk hmsg, rfl, htake k hk' hflow, ?_, hbroken⟩
    rw [hnext k hk' hflow]
  | recvmsgEnd sock len msg _ _ hmsg =>
    exact ⟨s.broke, [], .recvmsgEnd sock len msg hmsg, hnone, rfl, hopened, rfl⟩
  | recvmsgFailed sock len e =>
    exact ⟨s.broke, [], .recvmsgFailed sock len e, hnone, rfl, hopened, rfl⟩
  | close fd => exact ⟨s, [], .close fd, hnone, rfl, hopened, hbroken⟩

theorem Sending.congr (h : Sending frames x) (hs : y.sender = x.sender)
    (hstream : y.taken ++ y.flow = x.taken ++ x.flow) : Sending frames y := by
  cases h with
  | sends hx rest hwire hp => exact .sends (hs.trans hx) rest (by rw [hstream, hwire]) hp
  | stopped hx hwire => exact .stopped (hs.trans hx) (hstream ▸ hwire)

/-- The sender's steps are nothing to the receiver. -/
theorem Receiving.of_sender (h : Receiving frames x)
    (sender : Option (Prog Op Ans (Bool × Unit) × List Frame)) (flow : List Cell) :
    Receiving frames { x with sender := sender, flow := flow } := by
  cases h with
  | receives hr done f after hframes hdone hlater s piece htaken hpiece hopened hbroken hq hf =>
    exact .receives hr done f after hframes hdone hlater s piece htaken hpiece hopened hbroken hq hf
  | failed hr done f after hframes hdone piece rest hrest htaken hpiece hbroken hfailed =>
    exact .failed hr done f after hframes hdone piece rest hrest htaken hpiece hbroken hfailed
  | finished hr hdone htaken hfailed => exact .finished hr hdone htaken hfailed

/-- The next frame begins where the one before it ended. -/
theorem Sending.begin {later : List Frame} (hwire : x.taken ++ x.flow ++ wire later = wire frames) :
    Sending frames { x with sender := beginSend sock later } := by
  cases later with
  | nil =>
    rw [wire, List.flatMap_nil, List.append_nil] at hwire
    exact .stopped rfl ⟨[], by rw [List.append_nil, hwire]⟩
  | cons f later =>
    rw [wire_cons, ← List.append_assoc] at hwire
    exact .sends rfl f.cells hwire f.send_puts

theorem Receiving.begin {done after : List Frame} {later : List Reception}
    (hframes : frames = done ++ after) (hdone : done.length = x.arrivals.length)
    (hlater : List.Forall₂ Frame.Suits after later) (htaken : x.taken = wire done)
    (hfailed : x.failed = false) :
    Receiving frames
      { x with receiver := beginReceive peer later, opened := [], broken := false } := by
  cases hlater with
  | nil =>
    rw [List.append_nil] at hframes
    exact .finished rfl (by rw [hframes, ← hdone]) (by rw [hframes, ← htaken]) hfailed
  | cons hsuits hlater =>
    exact .receives rfl done _ _ hframes hdone hlater (.start _) []
      (htaken.trans (List.append_nil _).symm) rfl rfl rfl hsuits.takes hfailed

/-- What is next on the stream is the next piece of the frame that is being received. -/
theorem next_piece {done : List Frame} {f : Frame} {after : List Frame} {piece rest : List Cell}
    (hstream : x.taken ++ x.flow <+: wire frames) (hframes : frames = done ++ f :: after)
    (htaken : x.taken = wire done ++ piece) (hpiece : piece ++ rest = f.cells) {k : ℕ}
    (hk : k ≤ rest.length) (hflow : k ≤ x.flow.length) : x.flow.take k = rest.take k := by
  have hwire : wire frames = x.taken ++ (rest ++ wire after) := by
    rw [hframes, wire_append, wire_cons, ← hpiece, htaken]
    simp only [List.append_assoc]
  rw [hwire, List.prefix_append_right_inj] at hstream
  obtain ⟨more, hmore⟩ := hstream
  have htake := congrArg (List.take k) hmore
  rwa [List.take_append_of_le_length hflow, List.take_append_of_le_length hk] at htake

theorem Inv.put {o : Op} {k : Ans o → Prog Op Ans (Bool × Unit)}
    {later : List Frame} {r : Ans o} {flow : List Cell} (hinv : Inv frames x)
    (hs : x.sender = some (.call o k, later)) (h : Puts x.flow o r flow) :
    Inv frames { x with sender := some (k r, later), flow := flow } := by
  refine ⟨?_, hinv.receiving.of_sender _ _, hinv.arrived⟩
  cases hinv.sending with
  | sends hs' rest hwire hp =>
    obtain ⟨rfl, rfl⟩ := Prod.mk.inj (Option.some.inj (hs.symm.trans hs'))
    obtain ⟨rest', hput, hflow⟩ := h.local hp.1
    refine .sends rfl rest' ?_ (hp.2 r rest' hput)
    rw [← hwire]
    simp only [List.append_assoc]
    rw [← List.append_assoc flow, hflow, List.append_assoc]
  | stopped hs' => cases hs.symm.trans hs'

theorem Inv.take {o : Op} {k : Ans o → Prog Op Ans (Option (List UInt8 × ℤ) × Unit)}
    {later : List Reception} {r : Ans o} (hinv : Inv frames x)
    (hr : x.receiver = some (.call o k, later)) (h : Takes x o r y) :
    Inv frames { y with receiver := some (k r, later) } := by
  have hsame := h.same
  refine ⟨hinv.sending.congr hsame.sender hsame.stream, ?_, ?_⟩
  · cases hinv.receiving with
    | receives hr' done f after hframes hdone hlater s piece htaken hpiece hopened hbroken hq hf =>
      obtain ⟨rfl, rfl⟩ := Prod.mk.inj (Option.some.inj (hr.symm.trans hr'))
      obtain ⟨s', more, htakes, htaken', hmore, hopened', hbroken'⟩ := h.local hq.1 hopened hbroken
        fun k hk hflow => next_piece hinv.sending.stream hframes htaken hpiece hk hflow
      refine .receives rfl done f after hframes (hdone.trans (congrArg _ hsame.arrivals.symm)) hlater
        s' (piece ++ more) ?_ ?_ hopened' hbroken' (hq.2 r s' htakes) (hsame.failed.trans hf)
      · rw [← List.append_assoc, ← htaken]
        exact htaken'
      · rw [List.append_assoc, hmore, hpiece]
    | failed hr' => cases hr.symm.trans hr'
    | finished hr' => cases hr.symm.trans hr'
  · intro i a ha
    exact hinv.arrived i a (hsame.arrivals ▸ ha)

/-- A reception that gave a frame. -/
theorem Inv.next {bytes : List UInt8} {fd : ℤ} {later : List Reception} (hinv : Inv frames x)
    (hr : x.receiver = some (.ret (some (bytes, fd), ()), later)) :
    Inv frames (x.arrived peer bytes fd later) := by
  cases hinv.receiving with
  | failed hr' => cases hr.symm.trans hr'
  | finished hr' => cases hr.symm.trans hr'
  | receives hr' done f after hframes hdone hlater s piece htaken hpiece hopened hbroken hq hf =>
    obtain ⟨rfl, rfl⟩ := Prod.mk.inj (Option.some.inj (hr.symm.trans hr'))
    obtain ⟨hnil, hbytes, hbrings⟩ := hq
    rw [hnil, List.append_nil] at hpiece
    have htaken' : x.taken = wire (done ++ [f]) := by
      rw [htaken, hpiece, wire_concat]
    refine ⟨hinv.sending.congr rfl rfl, ?_, ?_⟩
    · have hframes' : frames = (done ++ [f]) ++ after := by simp [hframes]
      exact Receiving.begin (x := { x with
        arrivals := x.arrivals ++ [⟨bytes, fd, x.opened, x.taken.length⟩] }) hframes'
        (by simp [hdone]) hlater htaken' hf
    · intro i a ha
      rcases lt_or_ge i x.arrivals.length with hi | hi
      · rw [Exchange.arrived, List.getElem?_append_left hi] at ha
        exact hinv.arrived i a ha
      · rw [Exchange.arrived, List.getElem?_append_right hi, List.getElem?_singleton] at ha
        split at ha
        next h0 =>
          obtain rfl := Option.some.inj ha
          have hi' : i = done.length := by omega
          subst hi'
          refine ⟨⟨f, by simp [hframes], hbytes, hopened ▸ hbrings⟩, ?_⟩
          have htake : frames.take (done.length + 1) = done ++ [f] := by
            simp [hframes, List.take_append]
          rw [htake, ← htaken']
        next => cases ha

theorem Inv.refused {later : List Reception} (hinv : Inv frames x)
    (hr : x.receiver = some (.ret (none, ()), later)) :
    Inv frames { x with receiver := none, failed := true } := by
  refine ⟨hinv.sending.congr rfl rfl, ?_, hinv.arrived⟩
  cases hinv.receiving with
  | failed hr' => cases hr.symm.trans hr'
  | finished hr' => cases hr.symm.trans hr'
  | receives hr' done f after hframes hdone hlater s piece htaken hpiece hopened hbroken hq hf =>
    obtain ⟨rfl, rfl⟩ := Prod.mk.inj (Option.some.inj (hr.symm.trans hr'))
    exact .failed rfl done f after hframes hdone piece s.rest hq.2 htaken hpiece
      (hbroken.symm.trans hq.1) rfl

theorem Inv.step (hinv : Inv frames x) (h : Step sock peer x y) : Inv frames y := by
  cases h with
  | put hs h => exact hinv.put hs h
  | pickSend hs n =>
    refine ⟨?_, hinv.receiving.of_sender _ _, hinv.arrived⟩
    cases hinv.sending with
    | sends hs' rest hwire hp =>
      obtain ⟨rfl, rfl⟩ := Prod.mk.inj (Option.some.inj (hs.symm.trans hs'))
      exact .sends rfl rest hwire (hp n)
    | stopped hs' => cases hs.symm.trans hs'
  | sent hs =>
    refine ⟨?_, hinv.receiving.of_sender _ _, hinv.arrived⟩
    cases hinv.sending with
    | sends hs' rest hwire hp =>
      obtain ⟨rfl, rfl⟩ := Prod.mk.inj (Option.some.inj (hs.symm.trans hs'))
      obtain rfl : rest = [] := hp rfl
      rw [List.append_nil] at hwire
      exact .begin hwire
    | stopped hs' => cases hs.symm.trans hs'
  | stop => exact ⟨.stopped rfl hinv.sending.stream, hinv.receiving.of_sender _ _, hinv.arrived⟩
  | take hr h => exact hinv.take hr h
  | pickReceive hr n =>
    refine ⟨hinv.sending.congr rfl rfl, ?_, hinv.arrived⟩
    cases hinv.receiving with
    | receives hr' done f after hframes hdone hlater s piece htaken hpiece hopened hbroken hq hf =>
      obtain ⟨rfl, rfl⟩ := Prod.mk.inj (Option.some.inj (hr.symm.trans hr'))
      exact .receives rfl done f after hframes hdone hlater s piece htaken hpiece hopened hbroken
        (hq n) hf
    | failed hr' => cases hr.symm.trans hr'
    | finished hr' => cases hr.symm.trans hr'
  | arrived hr => exact hinv.next hr
  | refused hr => exact hinv.refused hr

theorem Inv.start {receptions : List Reception}
    (hsuits : List.Forall₂ Frame.Suits frames receptions) :
    Inv frames (.start sock peer frames receptions) := by
  refine ⟨?_, ?_, fun i a ha => by simp [Exchange.start] at ha⟩
  · exact Sending.begin (x := .start sock peer frames receptions) rfl
  · exact Receiving.begin (x := .start sock peer frames receptions)
      (List.nil_append _).symm rfl hsuits rfl rfl

theorem Step.first {P : Exchange → Prop} (h : Step sock peer x y)
    (hrest : ∃ z, Relation.ReflTransGen (Step sock peer) y z ∧ P z) :
    ∃ z, Relation.ReflTransGen (Step sock peer) x z ∧ P z := by
  obtain ⟨z, hz, hP⟩ := hrest
  exact ⟨z, .head h hz, hP⟩

end Exchange

end Drmtap
