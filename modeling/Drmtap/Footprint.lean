import Drmtap.Cursor
import Drmtap.FailedGrabs
import Drmtap.Rotation

/-! What the functions of the library leave of the context, whatever they are answered. -/
namespace Drmtap

open Memory Effect

/-- The part of a context that only the entry points change. -/
structure Ctx.Untouched (c c' : Ctx) : Prop where
  driver : c'.driverName = c.driverName
  crtc : c'.crtcId = c.crtcId
  renderOnly : c'.isRenderOnly = c.isRenderOnly
  noCursor2 : c'.helperNoCursor2 = c.helperNoCursor2
  cursor2Ok : c'.helperCursor2Ok = c.helperCursor2Ok
  cursor2Retried : c'.helperCursor2Retried = c.helperCursor2Retried
  userOut : c'.userOut = c.userOut
  pixelBuf : c'.pixelBuf = c.pixelBuf
  grabPlane : c'.grabPlaneId = c.grabPlaneId
  fastPlane : c'.fastPlaneId = c.fastPlaneId
  slots : c'.fastSlots = c.fastSlots
  initialized : c'.fastInitialized = c.fastInitialized
  rotPropPlane : c'.rotPropPlaneId = c.rotPropPlaneId
  rotProp : c'.rotPropId = c.rotPropId
  rotPropState : c'.rotPropState = c.rotPropState
  noCpuMap : c'.fastNoCpuMap = c.fastNoCpuMap

theorem Ctx.Untouched.refl (c : Ctx) : c.Untouched c := by constructor <;> rfl

/-- The part of it that the fast path leaves too. -/
structure Ctx.SameSetup (c c' : Ctx) : Prop where
  driver : c'.driverName = c.driverName
  crtc : c'.crtcId = c.crtcId
  renderOnly : c'.isRenderOnly = c.isRenderOnly
  noCursor2 : c'.helperNoCursor2 = c.helperNoCursor2
  cursor2Ok : c'.helperCursor2Ok = c.helperCursor2Ok
  cursor2Retried : c'.helperCursor2Retried = c.helperCursor2Retried
  userOut : c'.userOut = c.userOut
  pixelBuf : c'.pixelBuf = c.pixelBuf
  rotPropPlane : c'.rotPropPlaneId = c.rotPropPlaneId
  rotProp : c'.rotPropId = c.rotPropId
  rotPropState : c'.rotPropState = c.rotPropState

/-- Everything but what is remembered of a rotation property. -/
def Ctx.SameButRotation (c c' : Ctx) : Prop :=
  c' = { c with
    rotPropPlaneId := c'.rotPropPlaneId, rotPropId := c'.rotPropId, rotPropState := c'.rotPropState }

/-- Every call but a request for the extended reply to a cursor command. -/
def Unprobing : Op → Prop
  | .send _ bytes => (HelperCmd.decode bytes).type ≠ cmdGetCursor2
  | _ => True

/-- Those that do not look at the scanout either. -/
def BesideKms : Op → Prop
  | .setClientCap _ | .getFB2 _ => False
  | .send _ bytes => (HelperCmd.decode bytes).type ≠ cmdGetCursor2
  | o => ¬ KmsOp o

theorem KmsOp.unprobing {o : Op} (h : KmsOp o) : Unprobing o := by
  cases o <;> trivial

theorem ScanoutOp.unprobing {o : Op} (h : ScanoutOp o) : Unprobing o := by
  rcases h with h | rfl
  · exact h.unprobing
  · trivial

theorem BesideKms.unprobing {o : Op} (h : BesideKms o) : Unprobing o := by
  cases o <;> trivial

theorem decode_wireCmd (type : UInt16) (crtcId : UInt32) :
    HelperCmd.decode (wireCmd type crtcId).encode = wireCmd type crtcId := by
  rw [← List.append_nil (wireCmd type crtcId).encode, HelperCmd.decode_encode]

/-- A command is no such request, unless it is of that type. -/
theorem besideKms_send {type : UInt16} (h : type ≠ cmdGetCursor2) (fd : ℤ) (crtcId : UInt32) :
    BesideKms (.send fd (wireCmd type crtcId).encode) := by
  rw [BesideKms, decode_wireCmd]
  exact h

/-- Runs in `E` move along `R` where they make calls in `P`, and where they change the rest of the
context. -/
structure Tracks (P : Op → Prop) (E : Env)
    (R : Machine × E.State → Machine × E.State → Prop) : Prop where
  beside : ∀ o, BesideKms o → P o
  legal : ∀ s o, P o → E.legal s o
  call : ∀ m s o r s', P o → E.step s o r s' → R (m, s) (m, s')
  untouched : ∀ m m' s, m.ctx.Untouched m'.ctx → R (m, s) (m', s)

section Footprint
variable {P : Op → Prop} {E : Env} {R : Machine × E.State → Machine × E.State → Prop} {α : Type}
  {o : Op} (ht : Tracks P E R)
include ht

/-! Calls and memory -/

theorem follows_op (ho : P o) : Cmd.Follows E R (sys o) :=
  .call fun m s => ⟨ht.legal s o ho, fun r s' => ht.call m s o r s' ho⟩

theorem follows_sys (ho : BesideKms o) : Cmd.Follows E R (sys o) := follows_op ht (ht.beside o ho)

theorem follows_onHeap (f : Heap → Option (α × Heap)) : Cmd.Follows E R (onHeap f) := by
  intro m s
  rw [wlp_onHeap]
  exact fun a h _ => ht.untouched m _ s (.refl m.ctx)

theorem follows_modifyCtx {f : Ctx → Ctx} (hf : ∀ c : Ctx, c.Untouched (f c)) :
    Cmd.Follows E R (modifyCtx f) := .modify fun m s => ht.untouched m _ s (hf m.ctx)

variable [IsPreorder (Machine × E.State) R]

omit ht in
theorem follows_getCtx : Cmd.Follows E R getCtx := .bind .get fun m => .pure m.ctx

theorem follows_reads {P' : Op → Prop} {m : M α} (hm : Cmd.Reads P' m) (hP : ∀ o, P' o → P o) :
    Cmd.Follows E R m :=
  .of_reads hm fun m s o ho => ⟨ht.legal s o (hP o ho), fun r s' => ht.call m s o r s' (hP o ho)⟩

theorem follows_malloc (size : ℕ) : Cmd.Follows E R (malloc size) := by
  apply Cmd.Follows.bind (follows_sys ht id)
  rintro (_ | g)
  · exact .pure none
  · exact follows_onHeap ht _

theorem follows_free (b : Slice) : Cmd.Follows E R (free b) :=
  .bind (follows_sys ht id) fun _ => follows_onHeap ht _

theorem follows_mmap (src : MapSource) (size off : ℕ) : Cmd.Follows E R (mmap src size off) := by
  apply Cmd.Follows.bind (follows_sys ht id)
  rintro (e | g)
  · exact .pure _
  · exact follows_onHeap ht _

theorem follows_munmap (b : Slice) : Cmd.Follows E R (munmap b) :=
  .bind (follows_sys ht id) fun _ => follows_onHeap ht _

theorem follows_callocPriv : Cmd.Follows E R callocPriv :=
  .bind (follows_sys ht id) fun _ => .ite (follows_onHeap ht _) (.pure none)

theorem follows_freePriv (b : Slice) : Cmd.Follows E R (freePriv b) :=
  .bind (follows_sys ht id) fun _ => follows_onHeap ht _

theorem follows_closeFd (fd : ℤ) : Cmd.Follows E R (closeFd fd) :=
  .ite (follows_sys ht id) (.pure ())

theorem follows_gemClose (handle : UInt32) : Cmd.Follows E R (drmtapGemClose handle) :=
  .ite (.pure ()) (follows_sys ht id)

/-! The helper -/

omit [IsPreorder (Machine × E.State) R] in
theorem follows_setHelper {f : Ctx → Ctx} (hf : ∀ c, ∃ fd pid, f c = c.withHelper fd pid) :
    Cmd.Follows E R (modifyCtx f) := by
  refine follows_modifyCtx ht fun c => ?_
  obtain ⟨fd, pid, h⟩ := hf c
  rw [h]
  constructor <;> rfl

theorem follows_helperSpawn : Cmd.Follows E R drmtapHelperSpawn := by
  refine .bind follows_getCtx fun ctx => .ite (.pure _) (.bind (follows_sys ht id) ?_)
  rintro (e | ⟨fd, pid⟩)
  · exact .pure _
  · exact .bind (follows_setHelper ht fun c => ⟨fd, pid, rfl⟩) fun _ => .pure _

theorem follows_helperStop : Cmd.Follows E R drmtapHelperStop := by
  have hquit : cmdQuit ≠ cmdGetCursor2 := by decide
  refine .bind follows_getCtx fun ctx => .bind (.ite ?_ (.pure ())) fun _ => .ite ?_ (.pure ())
  · refine .bind (follows_sys ht (besideKms_send hquit _ _)) fun _ => .bind (follows_sys ht id) fun _ => ?_
    exact follows_setHelper ht fun c => ⟨-1, c.helperPid, rfl⟩
  · exact .bind (follows_sys ht id) fun _ => follows_setHelper ht fun c => ⟨c.helperFd, -1, rfl⟩

theorem follows_trySend {type : UInt16} (htype : type ≠ cmdGetCursor2) :
    Cmd.Follows E R (trySend type) := by
  refine .bind follows_getCtx fun ctx => .bind (follows_sys ht (besideKms_send htype _ _)) ?_
  rintro (e | n)
  · exact .pure _
  · exact .pure _

theorem follows_sendCommand {type : UInt16} (htype : type ≠ cmdGetCursor2)
    (respawnError : ℤ → ℤ) :
    Cmd.Follows E R (sendCommand type respawnError) := by
  have hresend : Cmd.Follows E R (resend type respawnError) :=
    .bind (follows_helperStop ht) fun _ => .bind (follows_helperSpawn ht) fun ret =>
      .ite (.pure _) (.bind (follows_trySend ht htype) fun sent => .pure _)
  exact .bind (follows_helperSpawn ht) fun ret =>
    .ite (.pure _) (.bind (follows_trySend ht htype) fun sent => .ite (.pure _) hresend)

theorem follows_wireRecvAll (sock : ℤ) (len : ℕ) :
    Cmd.Follows E R (wireRecvAll sock len) := by
  apply Cmd.Follows.loop
  intro got
  refine .ite (.pure _) (.bind (follows_sys ht id) ?_)
  rintro (e | bytes)
  · exact .ite (.pure _) (.pure _)
  · exact .ite (.pure _) (.pure _)

theorem follows_wireRecvFd (sock : ℤ) (len : ℕ) :
    Cmd.Follows E R (wireRecvFd sock len) := by
  have hall (fds : List ℕ) : Cmd.Follows E R (closeAll fds) := by
    induction fds with
    | nil => exact .pure ()
    | cons fd fds ih => exact .bind (follows_sys ht id) fun _ => ih
  rw [wireRecvFd_eq]
  apply Cmd.Follows.bind (follows_sys ht id)
  rintro (e | msg)
  · exact .pure _
  · refine .ite (.pure _) (.bind (hall _) fun _ => .ite ?_ (.ite ?_ (.pure _)))
    · exact .bind (follows_closeFd ht _) fun _ => .pure _
    · apply Cmd.Follows.bind (follows_wireRecvAll ht _ _)
      rintro (_ | rest)
      · exact .bind (follows_sys ht id) fun _ => .pure _
      · exact .pure _

theorem follows_drainPixels (fd : ℤ) (dataSize : ℕ) :
    Cmd.Follows E R (drainPixels fd dataSize) := by
  apply Cmd.Follows.loop
  intro remaining
  refine .ite (.pure _) (.bind (follows_sys ht id) ?_)
  rintro (e | got)
  · exact .pure _
  · exact .ite (.pure _) (.pure _)

theorem follows_receivePixels (fd : ℤ) (pixelBuf : Slice) (bufSize dataSize : ℕ) :
    Cmd.Follows E R (receivePixels fd pixelBuf bufSize dataSize) := by
  refine .ite (.pure _) (.ite (.bind (follows_drainPixels ht fd dataSize) fun drained => ?_)
    (.bind (follows_wireRecvAll ht fd dataSize) ?_))
  · exact .ite (.pure _) (.bind (follows_helperStop ht) fun _ => .pure _)
  · rintro (_ | pixels)
    · exact .pure _
    · exact .bind (follows_onHeap ht _) fun _ => .pure _

theorem follows_helperGrab (pixelBuf : Slice) (bufSize : ℕ) :
    Cmd.Follows E R (drmtapHelperGrab pixelBuf bufSize) := by
  have htype : cmdGrab ≠ cmdGetCursor2 := by decide
  refine .bind (follows_sendCommand ht htype _) fun ret => .ite (.pure _) ?_
  refine .bind follows_getCtx fun ctx => .bind (follows_wireRecvFd ht _ _) ?_
  rintro (_ | ⟨bytes, fd⟩)
  · exact .pure _
  · refine .ite (.ite (.pure _) (.pure _)) (.bind (follows_closeFd ht fd) fun _ => ?_)
    exact .bind (follows_receivePixels ht _ _ _ _) fun ret => .pure _

/-! The conversions -/

theorem follows_receiveCursorPixels (fd : ℤ) (dataSize : ℕ) (cursor : CursorInfo) :
    Cmd.Follows E R (receiveCursorPixels fd dataSize cursor) := by
  have hdrain : Cmd.Follows E R (drainCursor fd dataSize) := by
    apply Cmd.Follows.loop
    intro rem
    refine .ite (.pure _) (.bind (follows_sys ht id) ?_)
    rintro (e | got)
    · exact .pure _
    · exact .ite (.pure _) (.pure _)
  refine .ite (.bind hdrain fun _ => .pure _) (.bind (follows_malloc ht _) ?_)
  rintro (_ | pixels)
  · exact .pure _
  · apply Cmd.Follows.bind (follows_wireRecvAll ht fd dataSize)
    rintro (_ | bytes)
    · exact .bind (follows_free ht pixels) fun _ => .pure _
    · exact .bind (follows_onHeap ht _) fun _ => .pure _

theorem follows_freeBuf (buf : Option Slice) : Cmd.Follows E R (freeBuf buf) := by
  cases buf with
  | none => exact .pure ()
  | some b => exact follows_free ht b

theorem follows_ensureBuf (buf : Option Slice) (size : ℕ) :
    Cmd.Follows E R (drmtapEnsureBuf buf size) := by
  refine .ite (.pure _) (.ite (.pure _) (.ite (.pure _) ?_))
  refine .bind (follows_freeBuf ht buf) fun _ => .bind (follows_malloc ht size) ?_
  rintro (_ | b)
  · exact .pure _
  · exact .pure _

theorem follows_ensureOut (size : ℕ) : Cmd.Follows E R (drmtapEnsureOut size) := by
  apply Cmd.Follows.ite (.pure _)
  refine .bind (follows_modifyCtx ht fun _ => by constructor <;> rfl) fun _ => .ite (.pure _) ?_
  apply Cmd.Follows.bind follows_getCtx
  intro ctx
  cases ctx.userOut with
  | some out => exact .ite (.pure _) (.pure _)
  | none =>
    refine .bind (follows_ensureBuf ht _ _) ?_
    rintro ⟨ret, buf⟩
    refine .bind (follows_modifyCtx ht fun _ => by constructor <;> rfl) fun _ => ?_
    cases buf with
    | none => exact .pure _
    | some out => exact .ite (.pure _) (.pure _)

theorem follows_reduceLinear (u32 : ℕ → ℕ) (data : Slice) (frame : FrameInfo) :
    Cmd.Follows E R (reduceLinearToXrgb8888 u32 data frame) := by
  refine .ite (.pure _) (.bind (follows_ensureOut ht _) ?_)
  rintro (e | out)
  · exact .pure _
  · refine .bind follows_getCtx fun ctx => .bind (follows_onHeap ht _) fun ret => ?_
    exact .ite (.pure _) (.pure _)

theorem follows_eglConvert (fd : ℤ) (width height stride format : UInt32) (modifier : UInt64)
    (fbId : UInt32) :
    Cmd.Follows E R (drmtapGpuEglConvert fd width height stride format modifier fbId) := by
  refine .ite (.pure _) (.bind (follows_sys ht id) ?_)
  rintro (_ | e)
  · apply Cmd.Follows.bind (follows_ensureOut ht _)
    rintro (e | dst)
    · exact .pure _
    · apply Cmd.Follows.bind (follows_sys ht id)
      rintro (_ | ⟨bytes, glError⟩)
      · exact .pure _
      · exact .bind (follows_onHeap ht _) fun _ => .ite (.pure _) (.pure _)
  · exact .pure _

theorem follows_layoutIsLinear (modifier : UInt64) : Cmd.Follows E R (layoutIsLinear modifier) :=
  .ite (.pure _) (.ite (.bind (follows_sys ht id) fun _ => .pure _) (.pure _))

theorem follows_eglAttempt (frame : FrameInfo) : Cmd.Follows E R (eglAttempt frame) := by
  refine .ite (.bind (follows_sys ht id) fun avail => .ite ?_ (.pure _)) (.pure _)
  refine .bind (follows_eglConvert ht _ _ _ _ _ _ _) ?_
  rintro (e | out)
  · exact .ite (.pure _) (.pure _)
  · exact .pure _

theorem follows_cpuDeswizzle (u32 : ℕ → ℕ) (data : Slice) (frame : FrameInfo) :
    Cmd.Follows E R (cpuDeswizzle u32 data frame) := by
  apply Cmd.Follows.bind (follows_ensureOut ht _)
  rintro (e | out)
  · exact .pure _
  · refine .bind follows_getCtx fun ctx => .ite ?_ (.pure _)
    refine .bind (follows_onHeap ht _) fun ret => .ite (.pure _) (.ite ?_ (.pure _))
    exact .bind (follows_onHeap ht _) fun conv => .ite (.pure _) (.pure _)

theorem follows_autoProcess (u32 : ℕ → ℕ) (data : Option Slice) (frame : FrameInfo)
    (forceEgl : Bool) : Cmd.Follows E R (gpuAutoProcess u32 data frame forceEgl) := by
  have hreduce : ∀ d, Cmd.Follows E R (reduceLinearToXrgb8888 u32 d frame >>= fun r =>
      if r.1 < 0 then pure (r.1, r.2) else pure (0, r.2)) := fun d =>
    .bind (follows_reduceLinear ht u32 d frame) fun r => .ite (.pure _) (.pure _)
  refine .ite (.pure _) (.bind (follows_layoutIsLinear ht _) fun isLinear => .ite ?_ ?_)
  · cases data with
    | none => exact .pure _
    | some d => exact hreduce d
  · apply Cmd.Follows.bind (follows_eglAttempt ht frame)
    rintro (_ | r)
    · apply Cmd.Follows.ite (.pure _)
      cases data with
      | none => exact .pure _
      | some d => exact .ite (hreduce d) (follows_cpuDeswizzle ht u32 d frame)
    · exact .pure _

theorem follows_convertMapped (desc : DmabufDesc) (mapped : Slice) (frame : FrameInfo) :
    Cmd.Follows E R (convertMapped desc mapped frame) := by
  refine .bind (follows_autoProcess ht _ _ _ _) fun r => .ite ?_ (.pure _)
  apply Cmd.Follows.bind (follows_ensureOut ht _)
  rintro (e | out)
  · exact .pure _
  · exact .bind (follows_onHeap ht _) fun _ => .pure _

theorem follows_fdSize (fd : ℤ) : Cmd.Follows E R (fdSize fd) := by
  refine .bind (follows_sys ht id) fun size => .ite (.bind (follows_sys ht id) ?_) (.pure _)
  rintro (_ | s)
  · exact .pure _
  · exact .pure _

theorem follows_fdSizeForMap (fd : ℤ) : Cmd.Follows E R (fdSizeForMap fd) := by
  refine .bind (follows_sys ht id) fun size => .ite (.bind (follows_sys ht id) ?_) (.pure _)
  rintro (_ | s)
  · exact .pure _
  · exact .pure _

theorem follows_convertCpu (desc : DmabufDesc) (frame : FrameInfo) :
    Cmd.Follows E R (convertCpu desc frame) := by
  refine .ite (.pure _) (.bind (follows_sys ht id) fun began => .ite (.pure _) ?_)
  refine .bind (follows_fdSizeForMap ht _) fun size => .ite ?_ (.bind (follows_mmap ht _ _ _) ?_)
  · exact .bind (follows_sys ht id) fun _ => .pure _
  · rintro (e | mapped)
    · exact .bind (follows_sys ht id) fun _ => .pure _
    · refine .bind (follows_convertMapped ht _ _ _) fun r => .bind (follows_sys ht id) fun _ => ?_
      exact .bind (follows_munmap ht _) fun _ => .pure _

theorem follows_convertDmabuf (desc : DmabufDesc) (frame : FrameInfo) :
    Cmd.Follows E R (drmtapConvertDmabuf desc frame) := by
  have hcheck : Cmd.Follows E R (checkFd desc) := by
    refine .ite (.pure _) (.bind (follows_sys ht id) fun began => .ite (.pure _) ?_)
    refine .bind (follows_fdSize ht _) fun size => .bind (follows_sys ht id) fun _ => ?_
    exact .ite (.pure _) (.ite (.pure _) (.pure _))
  apply Cmd.Follows.ite (.pure _)
  refine .bind (follows_modifyCtx ht fun _ => by constructor <;> rfl) fun _ => ?_
  refine .bind hcheck fun ret => .ite (.pure _) (.bind (follows_sys ht id) fun avail => ?_)
  apply Cmd.Follows.ite _ (follows_convertCpu ht desc _)
  apply Cmd.Follows.bind (follows_eglConvert ht _ _ _ _ _ _ _)
  rintro (e | out)
  · exact follows_convertCpu ht desc _
  · exact .pure _

/-! `do_grab` -/

theorem follows_unmapPriv (priv : FramePriv) : Cmd.Follows E R (unmapPriv priv) := by
  unfold unmapPriv
  cases priv.mapped with
  | none => exact .pure ()
  | some mapped =>
    refine .ite (.pure ()) (.ite ?_ (follows_munmap ht _))
    exact .bind (follows_sys ht id) fun _ => follows_munmap ht _

theorem follows_frameRelease (frame : FrameInfo) : Cmd.Follows E R (drmtapFrameRelease frame) := by
  unfold drmtapFrameRelease
  cases frame.priv with
  | none => exact .pure _
  | some priv =>
    refine .bind (follows_unmapPriv ht priv) fun _ => .bind (follows_closeFd ht _) fun _ => ?_
    exact .bind (follows_gemClose ht _) fun _ => .bind (follows_freePriv ht _) fun _ => .pure _

theorem follows_grabCleanup (frame : FrameInfo) (gem : UInt32) (fd ret : ℤ) :
    Cmd.Follows E R (grabCleanup frame gem fd ret) :=
  .bind (follows_closeFd ht fd) fun _ => .bind (follows_gemClose ht gem) fun _ => .pure _

theorem follows_grabCleanupPriv (frame : FrameInfo) (priv : FramePriv) (ret : ℤ) :
    Cmd.Follows E R (grabCleanupPriv frame priv ret) :=
  .bind (follows_closeFd ht _) fun _ => .bind (follows_gemClose ht _) fun _ =>
    .bind (follows_freePriv ht _) fun _ => .pure _

theorem follows_closeAuxiliary (fb2 : Fb2) : Cmd.Follows E R (closeAuxiliaryGemHandles fb2) := by
  have hone (p : Fin 4) : Cmd.Follows E R (closeAuxiliary fb2 p) :=
    .ite (.pure ()) (follows_gemClose ht _)
  exact .bind (hone 1) fun _ => .bind (hone 2) fun _ => hone 3

theorem follows_preparePassed (planeId : UInt32) (self : Slice) (frame : FrameInfo)
    (wire : GrabWire) (fd : ℤ) : Cmd.Follows E R (preparePassed planeId self frame wire fd) := by
  apply Cmd.Follows.bind (follows_mmap ht _ _ _)
  rintro (e | mapped)
  · exact .pure _
  · exact .bind (follows_sys ht id) fun started => .pure _

theorem follows_mapVirtio (fb2 : Fb2) (size : ℕ) : Cmd.Follows E R (mapVirtio fb2 size) := by
  refine .bind follows_getCtx fun ctx => .ite (.bind ?_ ?_) (.pure _)
  · apply Cmd.Follows.bind (follows_sys ht id)
    rintro (_ | e)
    · exact follows_sys ht id
    · exact .pure _
  · rintro (_ | e)
    · refine .bind (.bind (follows_sys ht id) ?_) ?_
      · rintro (e | off)
        · exact .pure _
        · exact follows_mmap ht _ _ _
      · rintro (e | mapped)
        · exact .pure _
        · exact .pure _
    · exact .pure _

theorem follows_mapFramebuffer (fb2 : Fb2) (primeFd : ℤ) (size : ℕ) :
    Cmd.Follows E R (mapFramebuffer fb2 primeFd size) := by
  apply Cmd.Follows.bind (follows_mapVirtio ht fb2 size)
  rintro (_ | mapped)
  · apply Cmd.Follows.bind (follows_mmap ht _ _ _)
    rintro (e | mapped)
    · exact .pure _
    · exact .pure _
  · exact .pure _

/-! The fast path -/

omit ht in
theorem follows_getSlot (i : SlotId) : Cmd.Follows E R (getSlot i) :=
  .bind follows_getCtx fun _ => .pure _

omit ht in
theorem follows_forSlots {body : SlotId → M Unit} (hb : ∀ i, Cmd.Follows E R (body i))
    (is : List SlotId) : Cmd.Follows E R (forSlots body is) := by
  induction is with
  | nil => exact .pure ()
  | cons i is ih => exact .bind (hb i) fun _ => ih

theorem follows_mapFast (hmap : ∀ m s, R (m, s) (⟨m.ctx.setFastNoCpuMap, m.heap⟩, s))
    (fb2 : Fb2) (primeFd : ℤ) : Cmd.Follows E R (mapFast fb2 primeFd) := by
  apply Cmd.Follows.bind (follows_mapVirtio ht fb2 _)
  rintro (_ | mapped)
  · refine .bind follows_getCtx fun ctx => .ite (.pure _) ?_
    refine .bind (follows_sys ht id) fun started => .bind (follows_mmap ht _ _ _) ?_
    have hnoMap : Cmd.Follows E R (modifyCtx Ctx.setFastNoCpuMap) := .modify hmap
    rintro (e | mapped)
    · exact .bind hnoMap fun _ => .pure _
    · refine .bind (follows_sys ht id) fun force => .ite ?_ (.pure _)
      exact .bind (follows_munmap ht _) fun _ => .bind hnoMap fun _ => .pure _
  · exact .pure _

theorem follows_dropBuffer (primeFd : ℤ) (started : Bool) (handle : UInt32) :
    Cmd.Follows E R (dropBuffer primeFd started handle) := by
  have hdrop : Cmd.Follows E R (sys (.close primeFd) >>= fun _ => drmtapGemClose handle) :=
    .bind (follows_sys ht id) fun _ => follows_gemClose ht _
  exact .ite (.bind (follows_sys ht id) fun _ => hdrop) hdrop

omit [IsPreorder (Machine × E.State) R] in
theorem follows_setFastLast (fbId : UInt32) : Cmd.Follows E R (modifyCtx (·.setFastLast fbId)) :=
  follows_modifyCtx ht fun _ => by constructor <;> rfl

/-! What follows may change the slots -/

section Slots
variable (hslot : ∀ m i slot s, R (m, s) (⟨m.ctx.setSlot i slot, m.heap⟩, s))
include hslot

omit ht [IsPreorder (Machine × E.State) R] in
theorem follows_setSlot (i : SlotId) (slot : FastSlot) : Cmd.Follows E R (setSlot i slot) :=
  .modify fun m s => hslot m i slot s

theorem follows_fastSyncClose : Cmd.Follows E R fastSyncClose := by
  apply follows_forSlots
  intro i
  apply Cmd.Follows.bind (follows_getSlot i)
  intro slot
  apply Cmd.Follows.ite
  · exact .bind (follows_sys ht id) fun _ => follows_setSlot hslot i _
  · exact follows_setSlot hslot i _

theorem follows_fastSyncBegin (i : SlotId) : Cmd.Follows E R (fastSyncBegin i) := by
  refine .bind (follows_fastSyncClose ht hslot) fun _ => .bind (follows_getSlot i) fun slot => ?_
  exact .ite (.bind (follows_sys ht id) fun started => follows_setSlot hslot i _) (.pure ())

theorem follows_dropSlot (i : SlotId) : Cmd.Follows E R (dropSlot i) := by
  refine .bind (follows_getSlot i) fun slot => .bind ?_ fun _ => ?_
  · unfold unmapSlot
    cases slot.mmapPtr with
    | none => exact .pure ()
    | some mapped => exact follows_munmap ht _
  · exact .bind (follows_closeFd ht _) fun _ => .bind (follows_gemClose ht _) fun _ =>
      follows_setSlot hslot i _

theorem follows_findOrAllocSlot (fbId : UInt32) : Cmd.Follows E R (findOrAllocSlot fbId) := by
  have hevict : Cmd.Follows E R evictSlot := by
    refine .bind (follows_getSlot 0) fun slot => .ite ?_ ?_
    · exact .bind (follows_sys ht id) fun _ => .bind (follows_setSlot hslot 0 _) fun _ =>
        .bind (follows_dropSlot ht hslot 0) fun _ => .pure _
    · exact .bind (follows_dropSlot ht hslot 0) fun _ => .pure _
  apply Cmd.Follows.bind follows_getCtx
  intro ctx
  cases ctx.findSlot fun slot => slot.fbId = fbId with
  | some i => exact .pure i
  | none =>
    cases ctx.findSlot fun slot => slot.fbId = 0 with
    | some i => exact .pure i
    | none => exact hevict

theorem follows_refreshSlot (i : SlotId) : Cmd.Follows E R (refreshSlot i) := by
  refine .bind follows_getCtx fun ctx => .ite (.bind (.bind (follows_sys ht id) ?_) ?_) ?_
  · rintro (_ | e)
    · exact follows_sys ht id
    · exact .pure _
  · rintro (_ | e)
    · exact .bind (follows_fastSyncClose ht hslot) fun _ => .pure _
    · exact .pure _
  · exact .bind (follows_fastSyncBegin ht hslot i) fun _ => .pure _

end Slots

/-! The cursor -/

theorem follows_exportCursor (fb2 : Fb2) : Cmd.Follows E R (exportCursor fb2) := by
  have hcopy (mapped : Slice) : Cmd.Follows E R (copyCursor mapped fb2) := by
    apply Cmd.Follows.bind (follows_malloc ht _)
    rintro (_ | pixels)
    · exact .pure none
    · exact .bind (follows_onHeap ht _) fun _ => .pure _
  have hread (mapped : Slice) (primeFd : ℤ) :
      Cmd.Follows E R (readMappedCursor mapped primeFd fb2) :=
    .bind (follows_sys ht id) fun started => .bind (hcopy mapped) fun pixels =>
      .ite (.bind (follows_sys ht id) fun _ => .pure _) (.pure _)
  have hmap (primeFd : ℤ) : Cmd.Follows E R (mapAndReadCursor primeFd fb2) := by
    refine .ite (.bind (follows_mmap ht _ _ _) ?_) (.pure none)
    rintro (e | mapped)
    · exact .pure none
    · exact .bind (hread mapped primeFd) fun _ => .bind (follows_munmap ht mapped) fun _ => .pure _
  refine .ite (.bind (follows_sys ht id) ?_) (.pure none)
  rintro (e | primeFd)
  · exact .pure none
  · apply Cmd.Follows.bind (hmap primeFd)
    intro pixels
    exact .bind (follows_sys ht id) fun _ => .pure _

theorem follows_cursorRelease (cursor : CursorInfo) :
    Cmd.Follows E R (drmtapCursorRelease cursor) :=
  .bind (follows_freeBuf ht _) fun _ => .pure _

end Footprint

/-! With the calls that look at the scanout, and the choice of the CRTC -/

section Scanout
variable {E : Env} {R : Machine × E.State → Machine × E.State → Prop} {α : Type}
  [IsPreorder (Machine × E.State) R] (ht : Tracks Unprobing E R)

theorem follows_select (ht : Tracks Unprobing E R)
    (hset : ∀ m id s, R (m, s) (⟨m.ctx.setCrtcId id, m.heap⟩, s)) :
    Cmd.Follows E R selectFirstActiveCrtc := by
  apply Cmd.Follows.bind (follows_op ht (by trivial))
  rintro (_ | res)
  · exact .pure _
  · refine .bind (follows_reads ht (firstActive_reads _) fun _ => KmsOp.unprobing) fun chosen => ?_
    exact .ite (.bind (.modify fun m s => hset m chosen s) fun _ => .pure _) (.pure _)

include ht in
/-- The helper is asked at most once, last. -/
theorem wlp_getCursorDirect {Q : ℤ × CursorInfo → Machine → E.State → Prop} {m : Machine}
    {s : E.State} (hdone : ∀ r m' s', R (m, s) (m', s') → Q r m' s')
    (hhelper : ∀ m' s', R (m, s) (m', s') → Cmd.wlp E drmtapHelperGetCursor Q m' s') :
    Cmd.wlp E getCursorDirect Q m s := by
  have hreads {β : Type} {c : M β} (hc : Cmd.Reads KmsOp c) : Cmd.Follows E R c :=
    follows_reads ht hc fun _ => KmsOp.unprobing
  unfold getCursorDirect
  rw [Cmd.wlp_bind]
  apply Cmd.wlp_mono (hreads findCursorPlane_reads m s)
  intro planeId m₁ s₁ h₁
  rw [Cmd.wlp_ite]
  refine ⟨fun _ => hdone _ _ _ h₁, fun _ => ?_⟩
  rw [Cmd.wlp_bind]
  apply Cmd.wlp_mono (follows_op ht (by trivial) m₁ s₁)
  intro plane m₂ s₂ h₂
  have h₂ : R (m, s) (m₂, s₂) := trans_of R h₁ h₂
  cases plane with
  | none => exact hdone _ _ _ h₂
  | some plane =>
    rw [Cmd.wlp_ite]
    refine ⟨fun _ => hdone _ _ _ h₂, fun _ => ?_⟩
    rw [Cmd.wlp_bind]
    apply Cmd.wlp_mono (hreads (readPlacement_reads planeId) m₂ s₂)
    intro cursor m₃ s₃ h₃
    have h₃ : R (m, s) (m₃, s₃) := trans_of R h₂ h₃
    unfold readCursorFb
    rw [Cmd.wlp_bind]
    apply Cmd.wlp_mono (follows_op ht (by trivial) m₃ s₃)
    rintro (e | fb2) m₄ s₄ h₄
    · have h₄ : R (m, s) (m₄, s₄) := trans_of R h₃ h₄
      rw [Cmd.wlp_ite]
      exact ⟨fun _ => hhelper _ _ h₄, fun _ => hdone _ _ _ h₄⟩
    · rw [Cmd.wlp_bind]
      apply Cmd.wlp_mono (follows_exportCursor ht fb2 m₄ s₄)
      intro pixels m₅ s₅ h₅
      rw [Cmd.wlp_bind]
      apply Cmd.wlp_mono (follows_gemClose ht _ m₅ s₅)
      intro _ m₆ s₆ h₆
      have h₆ : R (m, s) (m₆, s₆) := trans_of R (trans_of R (trans_of R h₃ h₄) h₅) h₆
      rw [Cmd.wlp_ite]
      exact ⟨fun _ => hhelper _ _ h₆, fun _ => hdone _ _ _ h₆⟩

variable (hsel : Cmd.Follows E R selectFirstActiveCrtc)
include ht hsel

omit ht in
theorem follows_targetCrtc (ctx : Ctx) : Cmd.Follows E R (targetCrtcOf ctx) :=
  .ite hsel (.pure _)

theorem follows_findPrimaryPlane : Cmd.Follows E R findPrimaryPlane := by
  apply Cmd.Follows.bind (follows_op ht (by trivial))
  rintro (e | planes)
  · exact .pure 0
  · refine .bind follows_getCtx fun ctx => .bind (follows_targetCrtc hsel ctx) fun target => ?_
    exact .ite (.pure 0) (follows_reads ht (searchPlanes_reads _ _ _) fun _ => KmsOp.unprobing)

omit hsel in
theorem follows_readHdr : Cmd.Follows E R readHdrForCurrentCrtc := by
  refine .bind follows_getCtx fun ctx => ?_
  refine .bind (follows_reads ht (readHdr_reads _) fun _ => KmsOp.unprobing) fun hdr => ?_
  exact follows_modifyCtx ht fun _ => by constructor <;> rfl

theorem follows_readPrimaryPlaneRect : Cmd.Follows E R readPrimaryPlaneRect := by
  have hcap : Cmd.Follows E R requestAtomicCap := by
    refine .bind follows_getCtx fun ctx => .ite (.pure ()) ?_
    refine .bind (follows_modifyCtx ht fun _ => by constructor <;> rfl) fun _ => ?_
    exact .bind (follows_op ht (by trivial)) fun _ => .pure ()
  exact .bind hcap fun _ => .bind (follows_findPrimaryPlane ht hsel) fun planeId =>
    follows_reads ht (readRectOf_reads planeId) fun _ => ScanoutOp.unprobing

theorem follows_scanoutWidth (width : UInt32) (modifier : UInt64) :
    Cmd.Follows E R (drmtapScanoutWidth width modifier) := by
  refine .bind follows_getCtx fun ctx => .ite (.pure _) (.bind (follows_op ht (by trivial)) ?_)
  rintro (_ | crtc)
  · exact .pure _
  · refine .ite (.pure _) (.ite (.pure _) ?_)
    refine .bind (follows_readPrimaryPlaneRect ht hsel) fun rect => ?_
    exact .bind (follows_modifyCtx ht fun _ => by constructor <;> rfl) fun _ => .pure _

theorem follows_readScanout : Cmd.Follows E R readScanout := by
  refine .bind (follows_findPrimaryPlane ht hsel) fun planeId => .bind (follows_readHdr ht) fun _ => ?_
  refine .ite (.pure _) (.bind (follows_op ht (by trivial)) ?_)
  rintro (_ | plane)
  · exact .pure _
  · refine .ite (.pure _) (.bind (follows_op ht (by trivial)) ?_)
    rintro (e | fb2)
    · exact .pure _
    · exact .pure _

theorem follows_prepareReply (planeId : UInt32) (self pixelBuf : Slice)
    (reply : HelperGrabResult) :
    Cmd.Follows E R (prepareReply planeId self pixelBuf reply) := by
  refine .bind (follows_scanoutWidth ht hsel _ _) fun width => ?_
  refine .bind (follows_modifyCtx ht fun _ => by constructor <;> rfl) fun _ => .ite ?_ (.ite ?_ ?_)
  · exact .bind (follows_closeFd ht _) fun _ => .bind (follows_freePriv ht _) fun _ => .pure _
  · exact follows_preparePassed ht _ _ _ _ _
  · exact .ite (.bind (follows_freePriv ht _) fun _ => .pure _) (.pure _)

/-! The fast path, where its own state and the plane it names may change -/

section Fast
variable (hfast : ∀ m c s, m.ctx.SameSetup c → R (m, s) (⟨c, m.heap⟩, s))
include hfast

omit ht hsel [IsPreorder (Machine × E.State) R] in
theorem follows_setFast {f : Ctx → Ctx} (hf : ∀ c : Ctx, c.SameSetup (f c)) :
    Cmd.Follows E R (modifyCtx f) := .modify fun m s => hfast m _ s (hf m.ctx)

omit ht hsel [IsPreorder (Machine × E.State) R] in
theorem slot_of_fast (m : Machine) (i : SlotId) (slot : FastSlot) (s : E.State) :
    R (m, s) (⟨m.ctx.setSlot i slot, m.heap⟩, s) := hfast m _ s (by constructor <;> rfl)

omit hsel in
theorem follows_processFast (frame : FrameInfo) : Cmd.Follows E R (processFast frame) := by
  refine .bind (follows_autoProcess ht _ _ _ _) fun r => .ite (.pure _) ?_
  refine .bind follows_getCtx fun ctx => .bind ?_ fun _ => .pure _
  exact follows_setFast hfast fun _ => by constructor <;> rfl

omit hsel in
theorem follows_showSlot (i : SlotId) (fbId : UInt32) : Cmd.Follows E R (showSlot i fbId) := by
  refine .bind (follows_getSlot i) fun slot => .bind ?_ fun _ => follows_processFast ht hfast _
  exact follows_modifyCtx ht fun _ => by constructor <;> rfl

omit hsel in
theorem follows_fastCleanup : Cmd.Follows E R drmtapFastCleanup := by
  have hslot := slot_of_fast hfast
  apply Cmd.Follows.bind (follows_fastSyncClose ht hslot)
  intro _
  apply Cmd.Follows.bind (follows_forSlots (follows_dropSlot ht hslot) _)
  exact fun _ => follows_setFast hfast fun _ => by constructor <;> rfl

theorem follows_fastUnmapped (fb2 : Fb2) (fbId : UInt32) (primeFd : ℤ) (started : Bool)
    (frame : FrameInfo) : Cmd.Follows E R (fastUnmapped fb2 fbId primeFd started frame) := by
  have hdrop := follows_dropBuffer ht primeFd started (fb2.handles 0)
  refine .bind (follows_op ht (by trivial)) fun avail => .ite ?_ (.bind hdrop fun _ => .pure _)
  refine .bind (follows_scanoutWidth ht hsel _ _) fun width => ?_
  refine .bind (follows_autoProcess ht _ _ _ _) fun r => .bind hdrop fun _ => ?_
  refine .bind (follows_setFastLast ht 0) fun _ => .ite (.pure _) ?_
  refine .bind follows_getCtx fun ctx => .bind ?_ fun _ => .pure _
  exact follows_setFast hfast fun _ => by constructor <;> rfl

theorem follows_fastMiss (i : SlotId) (fbId : UInt32) (frame : FrameInfo) :
    Cmd.Follows E R (fastMiss i fbId frame) := by
  apply Cmd.Follows.bind (follows_op ht (by trivial))
  rintro (e | fb2)
  · exact .pure _
  · refine .bind (follows_closeAuxiliary ht fb2) fun _ => .ite ?_ (.ite ?_ ?_)
    · refine .bind (follows_setFast hfast fun _ => by constructor <;> rfl) fun _ => ?_
      exact .bind (follows_fastCleanup ht hfast) fun _ => .pure _
    · exact .bind (follows_gemClose ht _) fun _ => .pure _
    · apply Cmd.Follows.bind (follows_modifyCtx ht fun _ => by constructor <;> rfl)
      intro _
      apply Cmd.Follows.bind (follows_op ht (by trivial))
      rintro (e | primeFd)
      · exact .bind (follows_gemClose ht _) fun _ => .pure _
      · have hmap : ∀ m s, R (m, s) (⟨m.ctx.setFastNoCpuMap, m.heap⟩, s) :=
          fun m s => hfast m _ s (by constructor <;> rfl)
        apply Cmd.Follows.bind (follows_mapFast ht hmap fb2 primeFd)
        rintro ⟨_ | mapped, started⟩
        · exact follows_fastUnmapped ht hsel hfast _ _ _ _ _
        · refine .bind (follows_scanoutWidth ht hsel _ _) fun width => .bind follows_getCtx ?_
          intro ctx
          apply Cmd.Follows.bind (follows_setSlot (slot_of_fast hfast) i _)
          exact fun _ => .bind (follows_setFastLast ht fbId) fun _ => follows_processFast ht hfast _

theorem follows_fastFrame (fbId : UInt32) (frame : FrameInfo) :
    Cmd.Follows E R (fastFrame fbId frame) := by
  have hslot := slot_of_fast hfast
  have hhit (i : SlotId) : Cmd.Follows E R (fastHit i fbId frame) := by
    apply Cmd.Follows.bind (follows_refreshSlot ht hslot i)
    rintro (_ | e)
    · exact .bind (follows_setFastLast ht fbId) fun _ => follows_showSlot ht hfast i fbId
    · exact .pure _
  apply Cmd.Follows.bind follows_getCtx
  intro ctx
  cases ctx.lastSlot fbId with
  | some i =>
    apply Cmd.Follows.bind (follows_refreshSlot ht hslot i)
    rintro (_ | e)
    · exact follows_showSlot ht hfast i fbId
    · exact .pure _
  | none =>
    apply Cmd.Follows.bind (follows_fastSyncClose ht hslot)
    intro _
    apply Cmd.Follows.bind (follows_findOrAllocSlot ht hslot fbId)
    intro i
    apply Cmd.Follows.bind (follows_getSlot i)
    exact fun slot => .ite (hhit i) (follows_fastMiss ht hsel hfast i fbId frame)

theorem follows_startFast : Cmd.Follows E R startFast := by
  refine .bind follows_getCtx fun ctx => .ite (.pure _) ?_
  refine .bind (follows_findPrimaryPlane ht hsel) fun planeId => .bind ?_ fun _ => ?_
  · exact follows_setFast hfast fun _ => by constructor <;> rfl
  · refine .bind (follows_readHdr ht) fun _ => .ite (.pure _) (.bind ?_ fun _ => .pure _)
    exact follows_setFast hfast fun _ => by constructor <;> rfl

omit hsel hfast in
theorem follows_readFastFb : Cmd.Follows E R readFastFb := by
  refine .bind follows_getCtx fun ctx => .bind (follows_op ht (by trivial)) ?_
  rintro (_ | plane)
  · exact .pure _
  · exact .pure _

theorem follows_grabMappedFast (frame : FrameInfo) :
    Cmd.Follows E R (drmtapGrabMappedFast frame) := by
  refine .bind follows_getCtx fun ctx => .ite (.pure _) (.ite (.pure _) ?_)
  refine .bind (follows_startFast ht hsel hfast) fun started => .ite (.pure _) ?_
  refine .bind (follows_readFastFb ht) fun fbId => .ite ?_ (follows_fastFrame ht hsel hfast fbId frame)
  exact .bind (follows_fastCleanup ht hfast) fun _ => .pure _

end Fast

/-! What follows may replace the receive buffer -/

variable (hpix : ∀ m buf s, R (m, s) (⟨m.ctx.setPixelBuf buf, m.heap⟩, s))
include hpix

theorem follows_prepareByHelper (planeId : UInt32) (fb2 : Fb2) (frame : FrameInfo) :
    Cmd.Follows E R (prepareByHelper planeId fb2 frame) := by
  refine .bind follows_getCtx fun ctx => .bind (follows_ensureBuf ht _ _) ?_
  rintro ⟨ret, buf⟩
  refine .bind (.modify fun m s => hpix m buf s) fun _ => ?_
  cases buf with
  | none => exact .pure _
  | some pixelBuf =>
    refine .ite (.pure _) (.bind (follows_helperGrab ht _ _) fun r => .ite ?_ ?_)
    · exact .bind (follows_grabCleanup ht _ _ _ _) fun _ => .pure _
    · apply Cmd.Follows.bind (follows_callocPriv ht)
      rintro (_ | self)
      · exact .bind (follows_closeFd ht _) fun _ => .pure _
      · exact follows_prepareReply ht hsel _ _ _ _

omit hpix in
theorem follows_prepareDirect (doMmap : Bool) (planeId fbId : UInt32) (fb2 : Fb2)
    (frame : FrameInfo) (primeFd : ℤ) :
    Cmd.Follows E R (prepareDirect doMmap planeId fbId fb2 frame primeFd) := by
  apply Cmd.Follows.bind (follows_callocPriv ht)
  rintro (_ | self)
  · exact .bind (follows_grabCleanup ht _ _ _ _) fun _ => .pure _
  · refine .bind (follows_scanoutWidth ht hsel _ _) fun width => .ite ?_ (.pure _)
    apply Cmd.Follows.bind (follows_mapFramebuffer ht _ _ _)
    rintro (e | ⟨mapped, dumb⟩)
    · exact .pure _
    · exact .bind (follows_op ht (by trivial)) fun started => .pure _

theorem follows_prepareFramebuffer (doMmap : Bool) (planeId fbId : UInt32) (fb2 : Fb2)
    (frame : FrameInfo) :
    Cmd.Follows E R (prepareFramebuffer doMmap planeId fbId fb2 frame) := by
  refine .ite (follows_prepareByHelper ht hsel hpix _ _ _) (.bind (follows_op ht (by trivial)) ?_)
  rintro (e | primeFd)
  · refine .ite (.bind (follows_gemClose ht _) fun _ => follows_prepareByHelper ht hsel hpix _ _ _) ?_
    exact .bind (follows_grabCleanup ht _ _ _ _) fun _ => .pure _
  · exact follows_prepareDirect ht hsel _ _ _ _ _ _

theorem follows_prepareGrab (doMmap : Bool) (frame : FrameInfo) :
    Cmd.Follows E R (prepareGrab doMmap frame) := by
  refine .bind follows_getCtx fun ctx => .ite (.pure _) (.bind (follows_readScanout ht hsel) ?_)
  rintro (ret | ⟨planeId, fbId, fb2⟩)
  · exact .pure _
  · refine .bind (follows_closeAuxiliary ht fb2) fun _ => .ite ?_ ?_
    · exact .bind (follows_grabCleanup ht _ _ _ _) fun _ => .pure _
    · exact .bind (follows_modifyCtx ht fun _ => by constructor <;> rfl) fun _ =>
        follows_prepareFramebuffer ht hsel hpix _ _ _ _ _

/-- A grab, where the plane it records may be. -/
theorem follows_doGrab (hplane : ∀ m id s, R (m, s) (⟨m.ctx.setGrabPlane id, m.heap⟩, s))
    (doMmap : Bool) (frame : FrameInfo) : Cmd.Follows E R (doGrab doMmap frame) := by
  have hconclude (planeId : UInt32) (ret : ℤ) (frame : FrameInfo) :
      Cmd.Follows E R (concludeGrab planeId ret frame) := by
    refine .ite (.bind (follows_frameRelease ht frame) fun _ => .pure _) ?_
    exact .bind (.modify fun m s => hplane m planeId s) fun _ => .pure _
  apply Cmd.Follows.bind (follows_prepareGrab ht hsel hpix doMmap frame)
  rintro (⟨ret, frame⟩ | ⟨planeId, frame, isVirgl⟩ | ⟨planeId, frame, priv, e⟩)
  · exact .pure _
  · refine .ite (.bind (follows_autoProcess ht _ _ _ _) fun r => ?_) (hconclude _ _ _)
    exact hconclude _ _ _
  · apply Cmd.Follows.bind (follows_autoProcess ht _ _ _ _)
    intro r
    exact .ite (follows_grabCleanupPriv ht _ _ _) (hconclude _ _ _)

theorem follows_grabDesc (hplane : ∀ m id s, R (m, s) (⟨m.ctx.setGrabPlane id, m.heap⟩, s))
    (desc : DmabufDesc) (frame : FrameInfo) : Cmd.Follows E R (drmtapGrabDesc desc frame) := by
  refine .bind follows_getCtx fun before => .bind (follows_doGrab ht hsel hpix hplane false frame) ?_
  rintro ⟨ret, frame⟩
  refine .ite (.pure _) (.ite (.bind (follows_frameRelease ht frame) fun _ => ?_) ?_)
  · exact .bind (.modify fun m s => hplane m _ s) fun _ => .pure _
  · exact .bind follows_getCtx fun ctx => .pure _

theorem follows_grabEntry (hplane : ∀ m id s, R (m, s) (⟨m.ctx.setGrabPlane id, m.heap⟩, s))
    (entry : GrabEntry) (frame : FrameInfo) : Cmd.Follows E R (entry.run frame) := by
  cases entry with
  | grab => exact follows_doGrab ht hsel hpix hplane false frame
  | mapped => exact follows_doGrab ht hsel hpix hplane true frame
  | desc d => exact .bind (follows_grabDesc ht hsel hpix hplane d frame) fun _ => .pure _

/-! The answers about the scanout -/

omit hsel hpix in
theorem follows_failureReason : Cmd.Follows E R errnoOrEIO :=
  .bind (follows_op ht (by trivial)) fun _ => .pure _

omit hpix in
theorem follows_crtcRefresh : Cmd.Follows E R drmtapCrtcRefresh := by
  refine .bind follows_getCtx fun ctx => .ite (.pure _) ?_
  refine .bind (follows_targetCrtc hsel ctx) fun crtcId => .ite (.pure _) (.bind (follows_op ht (by trivial)) ?_)
  rintro (_ | crtc)
  · exact .bind (follows_failureReason ht) fun _ => .pure _
  · apply Cmd.Follows.ite _ (.pure _)
    cases drmtapModeRefresh crtc.timings with
    | none => exact .pure _
    | some refresh => exact .pure _

omit hsel hpix in
theorem follows_findRotation (props : List (UInt32 × UInt64)) (failed : ℤ) :
    Cmd.Follows E R (findRotation props failed) := by
  induction props generalizing failed with
  | nil => exact .pure _
  | cons p props ih =>
    apply Cmd.Follows.bind (follows_op ht (by trivial))
    rintro (_ | name)
    · exact .bind (follows_failureReason ht) fun failed => ih failed
    · exact .ite (.pure _) (ih failed)

/-! The rotation, where what is remembered of it may change -/

variable (hrot : ∀ m c s, m.ctx.SameButRotation c → R (m, s) (⟨c, m.heap⟩, s))
include hrot

omit ht hsel hpix [IsPreorder (Machine × E.State) R] in
theorem follows_setRotation {f : Ctx → Ctx} (hf : ∀ c : Ctx, c.SameButRotation (f c)) :
    Cmd.Follows E R (modifyCtx f) := .modify fun m s => hrot m _ s (hf m.ctx)

omit hsel hpix in
theorem follows_readRotation (planeId : UInt32) : Cmd.Follows E R (readRotation planeId) := by
  refine .bind (follows_setRotation hrot fun c => ?_) fun _ => .bind follows_getCtx fun ctx => ?_
  · unfold Ctx.lookAtPlane
    split
    · rfl
    · rfl
  · refine .ite (.pure _) (.bind (follows_op ht (by trivial)) ?_)
    rintro (_ | props)
    · exact .bind (follows_failureReason ht) fun _ => .pure _
    · apply Cmd.Follows.ite
      · apply Cmd.Follows.bind (follows_findRotation ht props 0)
        rintro ⟨_ | found, failed⟩
        · exact .ite (.bind (follows_setRotation hrot fun _ => rfl) fun _ => .pure _) (.pure _)
        · exact .bind (follows_setRotation hrot fun _ => rfl) fun _ => .pure _
      · unfold rereadRotation
        cases props.find? fun p => p.1 = ctx.rotPropId with
        | some p => exact .pure _
        | none => exact .bind (follows_setRotation hrot fun _ => rfl) fun _ => .pure _

omit hpix in
theorem follows_planeRotation : Cmd.Follows E R drmtapPlaneRotation := by
  refine .bind follows_getCtx fun ctx => .ite (.pure _) (.bind ?_ fun planeId => ?_)
  · exact .ite (.pure _) (follows_findPrimaryPlane ht hsel)
  · exact .ite (.pure _) (follows_readRotation ht hrot planeId)

end Scanout

end Drmtap
