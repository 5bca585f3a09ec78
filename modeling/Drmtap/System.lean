import Drmtap.Lib.Liberal
import Drmtap.Types

/-! The system calls and library calls the program makes, and its own memory. -/
namespace Drmtap

open Memory Effect

inductive ObjectType where
  | plane
  | connector
deriving DecidableEq

inductive ClientCap where
  | universalPlanes
  | atomic
deriving DecidableEq

/-- `drmModePlane` -/
structure Plane where
  planeId : UInt32
  crtcId : UInt32
  fbId : UInt32

/-- `drmModeRes` -/
structure Resources where
  crtcs : List UInt32
  connectors : List UInt32

/-- `drmModeConnector` -/
structure Connector where
  connectorId : UInt32
  connected : Bool

/-- The timings of a `drmModeModeInfo`. -/
structure ModeTimings where
  clock : UInt32
  htotal : UInt16
  vtotal : UInt16
  vscan : UInt16
  flags : UInt32

/-- `drmModeCrtc`, with the part of its mode that is read. -/
structure Crtc where
  crtcId : UInt32
  modeValid : Bool
  hdisplay : UInt16
  timings : ModeTimings

/-- What `mmap` maps: a descriptor, or a dumb buffer through the DRM fd. -/
inductive MapSource where
  | fd (fd : ℤ)
  | drm
deriving DecidableEq

def solSocket : Int32 := 1
def scmRights : Int32 := 1

/-- `CMSG_LEN`, with the 16 bytes of a `struct cmsghdr` -/
def cmsgLen (n : ℕ) : ℕ := 16 + n

/-- A control block of a message: its header, and the integers after it. -/
structure ControlBlock where
  level : Int32
  type : Int32
  len : ℕ
  int : ℕ → ℕ

namespace ControlBlock

/-- The block passes descriptors. -/
def Rights (b : ControlBlock) : Prop :=
  b.level = solSocket ∧ b.type = scmRights ∧ cmsgLen 0 ≤ b.len

instance (b : ControlBlock) : Decidable b.Rights := inferInstanceAs (Decidable (_ ∧ _ ∧ _))

/-- The integers that fit in the length of the block. -/
def ints (b : ControlBlock) : List ℕ := (List.range ((b.len - cmsgLen 0) / 4)).map b.int

/-- The descriptors that a block passes. -/
def fds (b : ControlBlock) : List ℕ := if b.Rights then b.ints else []

/-- A block that passes these descriptors. -/
def passing (fds : List ℕ) : ControlBlock :=
  ⟨solSocket, scmRights, cmsgLen (4 * fds.length), fun i => fds.getD i 0⟩

end ControlBlock

/-- What `recvmsg` delivers. -/
structure Message where
  bytes : List UInt8
  control : List ControlBlock
  ctrunc : Bool

/-- The descriptors that the kernel installed with a message. -/
def Message.fds (msg : Message) : List ℕ :=
  msg.control.flatMap ControlBlock.fds

/-- How the readback of an EGL convert ends: the skip of an unchanged frame, or
`glReadPixels` with its error flag. -/
inductive Readback where
  | unchanged
  | pixels (bytes : ℕ → UInt8) (glError : Bool)

inductive Op where
  | getPlaneResources
  | getPlane (id : UInt32)
  | getResources
  | getCrtc (id : UInt32)
  | getConnectorCurrent (id : UInt32)
  | objectGetProperties (id : UInt32) (type : ObjectType)
  | getProperty (id : UInt32)
  | getPropertyBlob (id : UInt32)
  | setClientCap (cap : ClientCap)
  | getFB2 (id : UInt32)
  | gemClose (handle : UInt32)
  | primeHandleToFD (handle : UInt32)
  | virtTransferFromHost (handle width height : UInt32)
  | virtWait (handle : UInt32)
  | virtGetParam3D
  | modeMapDumb (handle : UInt32)
  | mmap (src : MapSource) (size off : ℕ)
  | munmap (addr : Slice)
  | close (fd : ℤ)
  | dmabufSyncStart (fd : ℤ)
  | dmabufSyncEnd (fd : ℤ)
  | lseekEnd (fd : ℤ)
  | fstatSize (fd : ℤ)
  | malloc (size : ℕ)
  | free (addr : Slice)
  | callocPriv
  | freePriv (addr : Slice)
  | forceMmapFail
  | eglAvailable
  | eglRender (fd : ℤ) (width height stride format : UInt32) (modifier : UInt64) (fbId : UInt32)
  | eglReadback (dst : Slice)
  | eglThreadCleanup
  | helperSpawn
  | helperReap
  | send (fd : ℤ) (bytes : List UInt8)
  | sendmsg (fd : ℤ) (bytes : List UInt8) (passed : ℤ)
  | recv (fd : ℤ) (len : ℕ)
  | recvmsg (fd : ℤ) (len : ℕ)
  | clockMs
  | errno

@[reducible] def Ans : Op → Type
  | .getPlaneResources => Except Errno (List UInt32)
  | .getPlane _ => Option Plane
  | .getResources => Option Resources
  | .getCrtc _ => Option Crtc
  | .getConnectorCurrent _ => Option Connector
  | .objectGetProperties _ _ => Option (List (UInt32 × UInt64))
  | .getProperty _ => Option String
  | .getPropertyBlob _ => Option (List UInt8)
  | .setClientCap _ => Bool
  | .getFB2 _ => Except Errno Fb2
  | .gemClose _ => Unit
  | .primeHandleToFD _ => Except Errno ℕ
  | .virtTransferFromHost _ _ _ => Option Errno
  | .virtWait _ => Option Errno
  | .virtGetParam3D => Option UInt64
  | .modeMapDumb _ => Except Errno ℕ
  | .mmap _ _ _ => Except Errno (ℕ → UInt8)
  | .munmap _ => Unit
  | .close _ => Unit
  | .dmabufSyncStart _ => Bool
  | .dmabufSyncEnd _ => Unit
  | .lseekEnd _ => ℤ
  | .fstatSize _ => Option ℤ
  | .malloc _ => Option (ℕ → UInt8)
  | .free _ => Unit
  | .callocPriv => Bool
  | .freePriv _ => Unit
  | .forceMmapFail => Bool
  | .eglAvailable => Bool
  | .eglRender _ _ _ _ _ _ _ => Option Errno
  | .eglReadback _ => Readback
  | .eglThreadCleanup => Unit
  | .helperSpawn => Except Errno (ℕ × ℕ)
  | .helperReap => Unit
  | .send _ _ => Except Errno ℕ
  | .sendmsg _ _ _ => Except Errno ℕ
  | .recv _ _ => Except Errno (List UInt8)
  | .recvmsg _ _ => Except Errno Message
  | .clockMs => UInt64
  | .errno => ℕ

abbrev Env := Effect.Env Op Ans

/-- The library's own state: the context and the memory it can reach. -/
structure Machine where
  ctx : Ctx
  heap : Heap

/-- A machine that has just opened its device. -/
def Machine.opened (driverName : String) : Machine := ⟨.opened driverName 0, .empty⟩

/-- Code that runs on a state with a heap in it. -/
class HasHeap (S : Type) where
  heap : S → Heap
  setHeap : S → Heap → S
  heap_setHeap : ∀ s h, heap (setHeap s h) = h

instance : HasHeap Machine := ⟨Machine.heap, fun m h => { m with heap := h }, fun _ _ => rfl⟩

abbrev M := Cmd Machine Op Ans

/-- A call, in code over any state. -/
abbrev sys {S : Type} (o : Op) : Cmd S Op Ans (Ans o) := Cmd.call o

section Memory
variable {S : Type} [HasHeap S]

/-- A step on the memory; without a result it is an access out of bounds. -/
def onHeap {α : Type} (f : Heap → Option (α × Heap)) : Cmd S Op Ans α := fun s =>
  match f (HasHeap.heap s) with
  | some (a, h) => .ret (a, HasHeap.setHeap s h)
  | none => .fail

def malloc (size : ℕ) : Cmd S Op Ans (Option Slice) := do
  match ← sys (.malloc size) with
  | some garbage => onHeap fun h => some ((some (h.alloc size garbage).1, (h.alloc size garbage).2))
  | none => pure none

/-- Frees a whole live block, once. -/
def free (s : Slice) : Cmd S Op Ans Unit := do
  sys (.free s)
  onHeap fun h => (h.free s).map ((), ·)

/-- A mapping is a block with the bytes that the file has when it is made. The file is as long as
what is mapped of it, and nobody else writes to it while a call of the library runs. -/
def mmap (src : MapSource) (size off : ℕ) : Cmd S Op Ans (Except Errno Slice) := do
  match ← sys (.mmap src size off) with
  | .ok bytes => onHeap fun h => some (.ok (h.alloc size bytes).1, (h.alloc size bytes).2)
  | .error e => pure (.error e)

def munmap (s : Slice) : Cmd S Op Ans Unit := do
  sys (.munmap s)
  onHeap fun h => (h.free s).map ((), ·)

def sizeofFramePriv : ℕ := 40

/-- `calloc` of a `frame_priv_t`: its fields are kept beside it, in `FramePriv`. -/
def callocPriv : Cmd S Op Ans (Option Slice) := do
  if ← sys .callocPriv then
    onHeap fun h => some ((some (h.alloc sizeofFramePriv 0).1, (h.alloc sizeofFramePriv 0).2))
  else pure none

def freePriv (s : Slice) : Cmd S Op Ans Unit := do
  sys (.freePriv s)
  onHeap fun h => (h.free s).map ((), ·)

end Memory

section Rules
variable {S : Type} [HasHeap S] {E : Env} {st : S} {s : E.State} {α : Type}

@[simp] theorem wp_onHeap {f : Heap → Option (α × Heap)} {Q : α → S → E.State → Prop} :
    Cmd.wp E (onHeap f) Q st s ↔
      ∃ a h, f (HasHeap.heap st) = some (a, h) ∧ Q a (HasHeap.setHeap st h) s := by
  unfold Cmd.wp onHeap
  split
  next a h he => simp [he, Prog.wp]
  next he => simp [he, Prog.wp]

@[simp] theorem wp_malloc {size : ℕ} {Q : Option Slice → S → E.State → Prop} :
    Cmd.wp E (malloc size) Q st s ↔ E.legal s (.malloc size) ∧
      (∀ s', E.step s (.malloc size) none s' → Q none st s') ∧
      ∀ g s', E.step s (.malloc size) (some g) s' →
        Q (some ((HasHeap.heap st).alloc size g).1)
          (HasHeap.setHeap st ((HasHeap.heap st).alloc size g).2) s' := by
  simp only [malloc, Cmd.wp_bind, Cmd.wp_call]
  refine and_congr_right fun _ => ⟨fun h => ⟨fun s' hs => h none s' hs, fun g s' hs => ?_⟩, ?_⟩
  · simpa using h (some g) s' hs
  · rintro ⟨h1, h2⟩ (_ | g) s' hs
    · exact h1 s' hs
    · simpa using h2 g s' hs

@[simp] theorem wp_mmap {src : MapSource} {size off : ℕ}
    {Q : Except Errno Slice → S → E.State → Prop} :
    Cmd.wp E (mmap src size off) Q st s ↔ E.legal s (.mmap src size off) ∧
      (∀ e s', E.step s (.mmap src size off) (.error e) s' → Q (.error e) st s') ∧
      ∀ g s', E.step s (.mmap src size off) (.ok g) s' →
        Q (.ok ((HasHeap.heap st).alloc size g).1)
          (HasHeap.setHeap st ((HasHeap.heap st).alloc size g).2) s' := by
  simp only [mmap, Cmd.wp_bind, Cmd.wp_call]
  refine and_congr_right fun _ => ⟨fun h => ⟨fun e s' hs => h _ s' hs, fun g s' hs => ?_⟩, ?_⟩
  · simpa using h (.ok g) s' hs
  · rintro ⟨h1, h2⟩ (e | g) s' hs
    · exact h1 e s' hs
    · simpa using h2 g s' hs

@[simp] theorem wp_free {b : Slice} {Q : Unit → S → E.State → Prop} :
    Cmd.wp E (free b) Q st s ↔ E.legal s (.free b) ∧ ∀ r s', E.step s (.free b) r s' →
      ∃ h, (HasHeap.heap st).free b = some h ∧ Q () (HasHeap.setHeap st h) s' := by
  simp only [free, Cmd.wp_bind, Cmd.wp_call, wp_onHeap, Option.map_eq_some_iff]
  refine and_congr_right fun _ => forall₃_congr fun _ _ _ => ⟨?_, ?_⟩
  · rintro ⟨_, h, ⟨_, he, hp⟩, hQ⟩
    cases hp
    exact ⟨_, he, hQ⟩
  · rintro ⟨h, he, hQ⟩
    exact ⟨(), h, ⟨h, he, rfl⟩, hQ⟩

@[simp] theorem wp_munmap {b : Slice} {Q : Unit → S → E.State → Prop} :
    Cmd.wp E (munmap b) Q st s ↔ E.legal s (.munmap b) ∧ ∀ r s', E.step s (.munmap b) r s' →
      ∃ h, (HasHeap.heap st).free b = some h ∧ Q () (HasHeap.setHeap st h) s' := by
  simp only [munmap, Cmd.wp_bind, Cmd.wp_call, wp_onHeap, Option.map_eq_some_iff]
  refine and_congr_right fun _ => forall₃_congr fun _ _ _ => ⟨?_, ?_⟩
  · rintro ⟨_, h, ⟨_, he, hp⟩, hQ⟩
    cases hp
    exact ⟨_, he, hQ⟩
  · rintro ⟨h, he, hQ⟩
    exact ⟨(), h, ⟨h, he, rfl⟩, hQ⟩

@[simp] theorem wp_callocPriv {Q : Option Slice → S → E.State → Prop} :
    Cmd.wp E callocPriv Q st s ↔ E.legal s .callocPriv ∧
      (∀ s', E.step s .callocPriv false s' → Q none st s') ∧
      ∀ s', E.step s .callocPriv true s' →
        Q (some ((HasHeap.heap st).alloc sizeofFramePriv 0).1)
          (HasHeap.setHeap st ((HasHeap.heap st).alloc sizeofFramePriv 0).2) s' := by
  simp only [callocPriv, Cmd.wp_bind, Cmd.wp_call, Cmd.wp_ite, Cmd.wp_pure, wp_onHeap]
  refine and_congr_right fun _ => ⟨fun h => ⟨fun s' hs => ?_, fun s' hs => ?_⟩, ?_⟩
  · simpa using (h false s' hs).2
  · simpa using (h true s' hs).1
  · rintro ⟨h1, h2⟩ (_ | _) s' hs
    · simpa using h1 s' hs
    · simpa using h2 s' hs

@[simp] theorem wp_freePriv {b : Slice} {Q : Unit → S → E.State → Prop} :
    Cmd.wp E (freePriv b) Q st s ↔ E.legal s (.freePriv b) ∧ ∀ r s', E.step s (.freePriv b) r s' →
      ∃ h, (HasHeap.heap st).free b = some h ∧ Q () (HasHeap.setHeap st h) s' := by
  simp only [freePriv, Cmd.wp_bind, Cmd.wp_call, wp_onHeap, Option.map_eq_some_iff]
  refine and_congr_right fun _ => forall₃_congr fun _ _ _ => ⟨?_, ?_⟩
  · rintro ⟨_, h, ⟨_, he, hp⟩, hQ⟩
    cases hp
    exact ⟨_, he, hQ⟩
  · rintro ⟨h, he, hQ⟩
    exact ⟨(), h, ⟨h, he, rfl⟩, hQ⟩

@[simp] theorem wlp_onHeap {f : Heap → Option (α × Heap)} {Q : α → S → E.State → Prop} :
    Cmd.wlp E (onHeap f) Q st s ↔
      ∀ a h, f (HasHeap.heap st) = some (a, h) → Q a (HasHeap.setHeap st h) s := by
  unfold Cmd.wlp onHeap
  split
  next a h he => simp [he, Prog.relax, Prog.wp]
  next he => simp [he, Prog.relax, Prog.wp]

@[simp] theorem wlp_malloc {size : ℕ} {Q : Option Slice → S → E.State → Prop} :
    Cmd.wlp E (malloc size) Q st s ↔ E.legal s (.malloc size) ∧
      (∀ s', E.step s (.malloc size) none s' → Q none st s') ∧
      ∀ g s', E.step s (.malloc size) (some g) s' →
        Q (some ((HasHeap.heap st).alloc size g).1)
          (HasHeap.setHeap st ((HasHeap.heap st).alloc size g).2) s' := by
  simp only [malloc, Cmd.wlp_bind, Cmd.wlp_call]
  refine and_congr_right fun _ => ⟨fun h => ⟨fun s' hs => h none s' hs, fun g s' hs => ?_⟩, ?_⟩
  · simpa using h (some g) s' hs
  · rintro ⟨h1, h2⟩ (_ | g) s' hs
    · exact h1 s' hs
    · simpa using h2 g s' hs

@[simp] theorem wlp_mmap {src : MapSource} {size off : ℕ}
    {Q : Except Errno Slice → S → E.State → Prop} :
    Cmd.wlp E (mmap src size off) Q st s ↔ E.legal s (.mmap src size off) ∧
      (∀ e s', E.step s (.mmap src size off) (.error e) s' → Q (.error e) st s') ∧
      ∀ g s', E.step s (.mmap src size off) (.ok g) s' →
        Q (.ok ((HasHeap.heap st).alloc size g).1)
          (HasHeap.setHeap st ((HasHeap.heap st).alloc size g).2) s' := by
  simp only [mmap, Cmd.wlp_bind, Cmd.wlp_call]
  refine and_congr_right fun _ => ⟨fun h => ⟨fun e s' hs => h _ s' hs, fun g s' hs => ?_⟩, ?_⟩
  · simpa using h (.ok g) s' hs
  · rintro ⟨h1, h2⟩ (e | g) s' hs
    · exact h1 e s' hs
    · simpa using h2 g s' hs

@[simp] theorem wlp_free {b : Slice} {Q : Unit → S → E.State → Prop} :
    Cmd.wlp E (free b) Q st s ↔ E.legal s (.free b) ∧ ∀ r s', E.step s (.free b) r s' →
      ∀ h, (HasHeap.heap st).free b = some h → Q () (HasHeap.setHeap st h) s' := by
  simp only [free, Cmd.wlp_bind, Cmd.wlp_call, wlp_onHeap, Option.map_eq_some_iff]
  refine and_congr_right fun _ => forall₃_congr fun _ _ _ => ⟨fun h h' he => ?_, ?_⟩
  · exact h () h' ⟨h', he, rfl⟩
  · rintro h _ _ ⟨h', he, heq⟩
    cases heq
    exact h _ he

@[simp] theorem wlp_munmap {b : Slice} {Q : Unit → S → E.State → Prop} :
    Cmd.wlp E (munmap b) Q st s ↔ E.legal s (.munmap b) ∧ ∀ r s', E.step s (.munmap b) r s' →
      ∀ h, (HasHeap.heap st).free b = some h → Q () (HasHeap.setHeap st h) s' := by
  simp only [munmap, Cmd.wlp_bind, Cmd.wlp_call, wlp_onHeap, Option.map_eq_some_iff]
  refine and_congr_right fun _ => forall₃_congr fun _ _ _ => ⟨fun h h' he => ?_, ?_⟩
  · exact h () h' ⟨h', he, rfl⟩
  · rintro h _ _ ⟨h', he, heq⟩
    cases heq
    exact h _ he

@[simp] theorem can_onHeap {f : Heap → Option (α × Heap)} {Q : α → S → E.State → Prop} :
    Cmd.can E (onHeap f) Q st s ↔
      ∃ a h, f (HasHeap.heap st) = some (a, h) ∧ Q a (HasHeap.setHeap st h) s := by
  unfold Cmd.can onHeap
  split
  next a h he => simp [he, Prog.can]
  next he => simp [he, Prog.can]

/-- An allocation that succeeds. -/
theorem can_malloc {size : ℕ} {Q : Option Slice → S → E.State → Prop} {g : ℕ → UInt8}
    {u : E.State} (hs : E.step s (.malloc size) (some g) u)
    (hQ : Q (some ((HasHeap.heap st).alloc size g).1)
      (HasHeap.setHeap st ((HasHeap.heap st).alloc size g).2) u) :
    Cmd.can E (malloc size) Q st s := by
  simp only [malloc, Cmd.can_bind, Cmd.can_call]
  exact ⟨some g, u, hs, can_onHeap.mpr ⟨_, _, rfl, hQ⟩⟩

/-- A mapping that is made. -/
theorem can_mmap {src : MapSource} {size off : ℕ} {Q : Except Errno Slice → S → E.State → Prop}
    {g : ℕ → UInt8} {u : E.State} (hs : E.step s (.mmap src size off) (.ok g) u)
    (hQ : Q (.ok ((HasHeap.heap st).alloc size g).1)
      (HasHeap.setHeap st ((HasHeap.heap st).alloc size g).2) u) :
    Cmd.can E (mmap src size off) Q st s := by
  simp only [mmap, Cmd.can_bind, Cmd.can_call]
  exact ⟨.ok g, u, hs, can_onHeap.mpr ⟨_, _, rfl, hQ⟩⟩

@[simp] theorem can_free {b : Slice} {Q : Unit → S → E.State → Prop} :
    Cmd.can E (free b) Q st s ↔ ∃ r s', E.step s (.free b) r s' ∧
      ∃ h, (HasHeap.heap st).free b = some h ∧ Q () (HasHeap.setHeap st h) s' := by
  simp [free]
  exact exists₂_congr fun _ _ => and_congr_right fun _ => ⟨fun ⟨_, h⟩ => h, fun h => ⟨(), h⟩⟩

@[simp] theorem can_munmap {b : Slice} {Q : Unit → S → E.State → Prop} :
    Cmd.can E (munmap b) Q st s ↔ ∃ r s', E.step s (.munmap b) r s' ∧
      ∃ h, (HasHeap.heap st).free b = some h ∧ Q () (HasHeap.setHeap st h) s' := by
  simp [munmap]
  exact exists₂_congr fun _ _ => and_congr_right fun _ => ⟨fun ⟨_, h⟩ => h, fun h => ⟨(), h⟩⟩

end Rules

def getCtx : M Ctx := do return (← get).ctx

def modifyCtx (f : Ctx → Ctx) : M Unit := modify fun m => { m with ctx := f m.ctx }

section Rules
variable {E : Env} {st : Machine} {s : E.State}

@[simp] theorem heap_machine (m : Machine) : HasHeap.heap m = m.heap := rfl

@[simp] theorem setHeap_machine (m : Machine) (h : Heap) :
    HasHeap.setHeap m h = { m with heap := h } := rfl

@[simp] theorem wp_getCtx {Q : Ctx → Machine → E.State → Prop} :
    Cmd.wp E getCtx Q st s ↔ Q st.ctx st s := Iff.rfl

@[simp] theorem wp_modifyCtx {f : Ctx → Ctx} {Q : Unit → Machine → E.State → Prop} :
    Cmd.wp E (modifyCtx f) Q st s ↔ Q () { st with ctx := f st.ctx } s := Iff.rfl

@[simp] theorem wlp_getCtx {Q : Ctx → Machine → E.State → Prop} :
    Cmd.wlp E getCtx Q st s ↔ Q st.ctx st s := Iff.rfl

@[simp] theorem wlp_modifyCtx {f : Ctx → Ctx} {Q : Unit → Machine → E.State → Prop} :
    Cmd.wlp E (modifyCtx f) Q st s ↔ Q () { st with ctx := f st.ctx } s := Iff.rfl

@[simp] theorem can_getCtx {Q : Ctx → Machine → E.State → Prop} :
    Cmd.can E getCtx Q st s ↔ Q st.ctx st s := Iff.rfl

@[simp] theorem can_modifyCtx {f : Ctx → Ctx} {Q : Unit → Machine → E.State → Prop} :
    Cmd.can E (modifyCtx f) Q st s ↔ Q () { st with ctx := f st.ctx } s := Iff.rfl

end Rules

end Drmtap
