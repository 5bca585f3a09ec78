import Drmtap.AutoProcess

/-! gpu_egl.c: the convert on the GPU, with the images it keeps per framebuffer and the hash that
lets it skip a frame that has not changed. All of its state belongs to one thread; the contexts
it converts for are told apart by their address, of type `K`. -/
namespace Drmtap

open Memory Effect

abbrev drmtapEglImageSlots : ℕ := 4

abbrev ImageSlotId := Fin drmtapEglImageSlots

/-! Images -/

/-- The geometry an image is imported with. -/
structure Geometry where
  width : UInt32
  height : UInt32
  stride : UInt32
  fourcc : UInt32
  modifier : UInt64
  numPlanes : ℕ
  offsets : PerPlane UInt32
  pitches : PerPlane UInt32
deriving DecidableEq

/-- `egl_image_slot_t`; `fbId = 0` when unused. The inode is 0 when it is not known. -/
structure ImageSlot (K : Type) where
  owner : Option K
  fbId : UInt32
  geometry : Geometry
  bufInode : UInt64
  image : Option ℕ
  texture : ℕ

def ImageSlot.empty {K : Type} : ImageSlot K where
  owner := none
  fbId := 0
  geometry := ⟨0, 0, 0, 0, 0, 0, fun _ => 0, fun _ => 0⟩
  bufInode := 0
  image := none
  texture := 0

structure PlaneAttribs where
  fd : ℤ
  offset : UInt32
  pitch : UInt32
  modifier : Option UInt64
deriving DecidableEq

/-- The attributes of one `eglCreateImageKHR`. -/
structure ImageAttribs where
  width : UInt32
  height : UInt32
  fourcc : UInt32
  planes : List PlaneAttribs
deriving DecidableEq

namespace Geometry

def modifierAttrib (g : Geometry) : Option UInt64 :=
  if g.modifier = drmFormatModInvalid then none else some g.modifier

def mainPlane (g : Geometry) (fd : ℤ) (modifier : Option UInt64) : PlaneAttribs :=
  ⟨fd, g.offsets 0, g.stride, modifier⟩

/-- A CCS or clear-colour plane, which a buffer without a modifier does not have. -/
def auxPlane (g : Geometry) (fd : ℤ) (p : Fin 4) : List PlaneAttribs :=
  if p.val < g.numPlanes ∧ g.modifier ≠ drmFormatModInvalid then
    [⟨fd, g.offsets p, g.pitches p, some g.modifier⟩]
  else []

def attribs (g : Geometry) (fd : ℤ) : ImageAttribs where
  width := g.width
  height := g.height
  fourcc := g.fourcc
  planes := g.mainPlane fd g.modifierAttrib :: (g.auxPlane fd 1 ++ g.auxPlane fd 2)

def retryAttribs (g : Geometry) (fd : ℤ) (modifier : Option UInt64) : ImageAttribs where
  width := g.width
  height := g.height
  fourcc := fmtXR24
  planes := [g.mainPlane fd modifier]

def retrySafe (g : Geometry) : Prop := g.numPlanes ≤ 1 ∧ (g.fourcc = fmtXR24 ∨ g.fourcc = fmtAR24)

instance (g : Geometry) : Decidable g.retrySafe := by
  unfold retrySafe
  infer_instance

/-- The attribute sets an import tries, one after the other. -/
def attempts (g : Geometry) (fd : ℤ) : List ImageAttribs :=
  g.attribs fd ::
    if g.retrySafe then
      g.retryAttribs fd g.modifierAttrib ::
        if g.modifier = drmFormatModLinear then [g.retryAttribs fd none] else []
    else []

def int32Max : UInt32 := 0x7fffffff

/-- A number that an `EGLint` would turn negative. -/
def narrows (g : Geometry) : Prop :=
  int32Max < g.stride ∨ ∃ p : Fin 4, p.val < (if 0 < g.numPlanes then g.numPlanes else 1) ∧
    (int32Max < g.offsets p ∨ int32Max < g.pitches p)

instance (g : Geometry) : Decidable g.narrows := by
  unfold narrows
  infer_instance

end Geometry

/-! The state of a thread -/

/-- A frame as the hash knows it. -/
structure HashedFrame (K : Type) where
  owner : K
  width : UInt32
  height : UInt32
  fourcc : UInt32
  modifier : UInt64
  out : Slice
  grid : List UInt32

/-- `egl_hash_t`; `out` is the address of a buffer. -/
structure EglHash (K : Type) where
  on : Bool
  es3 : Bool
  fresh : Bool
  gw : UInt32
  gh : UInt32
  cur : Option (ℕ → UInt32)
  prev : Option (ℕ → UInt32)
  cap : ℕ
  valid : Bool
  owner : Option K
  w : UInt32
  h : UInt32
  fourcc : UInt32
  modifier : UInt64
  out : ℕ
  gen : UInt32

def EglHash.empty {K : Type} : EglHash K where
  on := false
  es3 := false
  fresh := false
  gw := 0
  gh := 0
  cur := none
  prev := none
  cap := 0
  valid := false
  owner := none
  w := 0
  h := 0
  fourcc := 0
  modifier := 0
  out := 0
  gen := 0

/-- `egl_state_t` -/
structure EglState (K : Type) where
  devicePath : String
  initialized : Bool
  imageSlots : ImageSlotId → ImageSlot K
  nextEvict : UInt32
  cacheDisabled : Bool
  hash : EglHash K

def EglState.zero {K : Type} : EglState K := ⟨"", false, fun _ => .empty, 0, false, .empty⟩

/-- What the debug log says of a run: the output buffers that were asked for, the converts that
were skipped, committed and left. -/
inductive EglEvent (K : Type) where
  | ensured (k : K)
  | skipped (frame : HashedFrame K)
  | committed (frame : HashedFrame K)
  | left (k : K)

structure EglThread (K : Type) where
  egl : EglState K
  devicePath : K → String
  ctxs : K → Ctx
  heap : Heap
  log : List (EglEvent K)

/-! The calls into EGL and GL. -/

/-- What a frame is drawn from: the framebuffer that was asked for, and its inode if known. -/
structure DrawnFrom where
  geometry : Geometry
  inode : UInt64
  hdr : Option UInt32

inductive GlOp where
  | loadEglProcs
  | display (path : String)
  | eglInitialize
  | chooseConfig
  | getenvSkipUnchanged
  | getenvNoImageCache
  | createContext (version : ℕ)
  | destroyContext
  | makeCurrent (on : Bool)
  | createProgram
  | fstatInode (fd : ℤ)
  | createImage (attribs : ImageAttribs)
  | destroyImage (image : ℕ)
  | genTexture
  | deleteTexture (texture : ℕ)
  | bindTexture (texture : ℕ)
  | imageTargetTexture (texture image : ℕ)
  /-- The texture is the one that a draw is meant for, which the model takes to be bound. -/
  | draw (texture : ℕ) (drawn : DrawnFrom)
  | getError
  | allocGrid (bytes : ℕ)
  | hashTarget (gw gh : UInt32)
  | hashPass (width height : UInt32)
  | readPixels (dst : Slice)

@[reducible] def GlAns : GlOp → Type
  | .loadEglProcs => Bool
  | .display _ => Bool
  | .eglInitialize => Bool
  | .chooseConfig => Bool
  | .getenvSkipUnchanged => Bool
  | .getenvNoImageCache => Bool
  | .createContext _ => Bool
  | .destroyContext => Unit
  | .makeCurrent _ => Bool
  | .createProgram => Bool
  | .fstatInode _ => Option UInt64
  | .createImage _ => Option ℕ
  | .destroyImage _ => Unit
  | .genTexture => ℕ
  | .deleteTexture _ => Unit
  | .bindTexture _ => Unit
  | .imageTargetTexture _ _ => Unit
  | .draw _ _ => Unit
  | .getError => Bool
  | .allocGrid _ => Option (ℕ → UInt32)
  | .hashTarget _ _ => Bool
  | .hashPass _ _ => ℕ → UInt32
  | .readPixels _ => ℕ → UInt8

abbrev EglAns : Op ⊕ GlOp → Type := Sum.elim Ans GlAns

abbrev EglM (K : Type) := Cmd (EglThread K) (Op ⊕ GlOp) EglAns

section Program
variable {K : Type} {α : Type}

def gl (o : GlOp) : EglM K (GlAns o) := (Cmd.call (Sum.inr o : Op ⊕ GlOp) : EglM K (EglAns (.inr o)))

def getEgl : EglM K (EglState K) := do return (← get).egl

def modifyEgl (f : EglState K → EglState K) : EglM K Unit :=
  modify fun t => { t with egl := f t.egl }

def getHash : EglM K (EglHash K) := do return (← getEgl).hash

def modifyHash (f : EglHash K → EglHash K) : EglM K Unit :=
  modifyEgl fun st => { st with hash := f st.hash }

def getImageSlot (i : ImageSlotId) : EglM K (ImageSlot K) := do return (← getEgl).imageSlots i

def setImageSlot (i : ImageSlotId) (slot : ImageSlot K) : EglM K Unit :=
  modifyEgl fun st => { st with imageSlots := Function.update st.imageSlots i slot }

def drmtapDebugLog (event : EglEvent K) : EglM K Unit :=
  modify fun t => { t with log := event :: t.log }

def ctxOf (k : K) : EglM K Ctx := do return (← get).ctxs k

/-- The library's code on one context. -/
def onCtx [DecidableEq K] (k : K) (m : M α) : EglM K α :=
  Cmd.zoom (fun t => ⟨t.ctxs k, t.heap⟩)
    (fun t m => { t with ctxs := Function.update t.ctxs k m.ctx, heap := m.heap }) m

/-! The state of the thread, made and torn down -/

/-- The hash pass, for a context that has ES 3. -/
def hashSetup (es3 : Bool) : EglM K Unit :=
  if es3 then do
    if ← gl .createProgram then modifyHash fun h => { h with on := true } else pure ()
  else pure ()

def EglState.noteEs3 (st : EglState K) (es3 : Bool) : EglState K :=
  { st with hash := { st.hash with es3 := es3 } }

/-- The context that skipping wants, if it is wanted and can be had. -/
def createContextEs3 : EglM K Bool := do
  if ← gl .getenvSkipUnchanged then do
    let es3 ← gl (.createContext 3)
    modifyEgl (·.noteEs3 es3)
    pure es3
  else pure false

def createContext (es3 : Bool) : EglM K Bool := if es3 then pure true else gl (.createContext 2)

def EglState.init (st : EglState K) (cacheDisabled : Bool) : EglState K :=
  { st with cacheDisabled := cacheDisabled, initialized := true }

/-- The rest of `egl_init`, on a display. -/
def initOnDisplay : EglM K ℤ := do
  if ¬ (← gl .eglInitialize) then pure (- EIO)
  else if ¬ (← gl .chooseConfig) then pure (- EIO)
  else do
    let es3 ← createContextEs3
    if ¬ (← createContext es3) then pure (- EIO)
    else do
      let _ ← gl (.makeCurrent true)
      if ¬ (← gl .createProgram) then do
        gl .destroyContext
        pure (- EIO)
      else do
        hashSetup es3
        let cacheDisabled ← gl .getenvNoImageCache
        modifyEgl (·.init cacheDisabled)
        pure 0

def eglInit (k : K) : EglM K ℤ := do
  if ¬ (← gl .loadEglProcs) then pure (- ENOTSUP)
  else do
    let path := (← get).devicePath k
    if ¬ (← gl (.display path)) then pure (- ENODEV)
    else do
      modifyEgl fun st => { st with devicePath := path }
      initOnDisplay

def deleteTexture (texture : ℕ) : EglM K Unit :=
  if texture = 0 then pure () else gl (.deleteTexture texture)

def destroyImage (image : Option ℕ) : EglM K Unit :=
  match image with
  | some image => gl (.destroyImage image)
  | none => pure ()

def eglImageSlotRelease (i : ImageSlotId) : EglM K Unit := do
  let slot ← getImageSlot i
  deleteTexture slot.texture
  destroyImage slot.image
  setImageSlot i .empty

def releaseSlots : List ImageSlotId → EglM K Unit
  | [] => pure ()
  | i :: is => do
    eglImageSlotRelease i
    releaseSlots is

/-- What `egl_cleanup` leaves; the hash was released. -/
def EglState.cleaned (st : EglState K) : EglState K :=
  { st with nextEvict := 0, hash := .empty, devicePath := "", initialized := false }

def eglCleanup : EglM K Unit := do
  let st ← getEgl
  if st.initialized then do
    let _ ← gl (.makeCurrent true)
    releaseSlots (List.finRange drmtapEglImageSlots)
    let _ ← gl (.makeCurrent false)
    gl .destroyContext
    modifyEgl EglState.cleaned
  else pure ()

def drmtapGpuEglThreadCleanup : EglM K Unit := eglCleanup

/-- A thread that converted for another device starts over. -/
def leaveDevice (k : K) : EglM K Unit := do
  let t ← get
  if t.egl.initialized ∧ t.egl.devicePath ≠ t.devicePath k then eglCleanup else pure ()

def ensureInit (k : K) : EglM K ℤ := do
  let st ← getEgl
  if st.initialized then pure 0 else eglInit k

/-! The images -/

/-- The first import that succeeds. -/
def tryImport : List ImageAttribs → EglM K (Option ℕ)
  | [] => pure none
  | attribs :: rest => do
    match ← gl (.createImage attribs) with
    | some image => pure (some image)
    | none => tryImport rest

def eglImportDmabuf (geometry : Geometry) (fd : ℤ) : EglM K (Option ℕ) :=
  if geometry.narrows then pure none else tryImport (geometry.attempts fd)

def eglMakeExternalTexture (image : ℕ) : EglM K (Option ℕ) := do
  let texture ← gl .genTexture
  gl (.bindTexture texture)
  gl (.imageTargetTexture texture image)
  if ← gl .getError then do
    gl (.deleteTexture texture)
    pure none
  else pure (some texture)

/-- What a convert is asked for. -/
structure EglCall where
  dmaBufFd : ℤ
  width : UInt32
  height : UInt32
  stride : UInt32
  fourcc : UInt32
  modifier : UInt64
  fbId : UInt32

def EglCall.geometry (c : EglCall) (ctx : Ctx) : Geometry where
  width := c.width
  height := c.height
  stride := c.stride
  fourcc := c.fourcc
  modifier := c.modifier
  numPlanes := ctx.fb2NumPlanes
  offsets := ctx.fb2Offsets
  pitches := ctx.fb2Pitches

def currentInode (fd : ℤ) : EglM K UInt64 := do
  if 0 ≤ fd then do
    let inode ← gl (.fstatInode fd)
    pure (inode.getD 0)
  else pure 0

/-- The slot's image is one of this framebuffer, as far as can be told. -/
def ImageSlot.serves (slot : ImageSlot K) (geometry : Geometry) (inode : UInt64) : Prop :=
  slot.geometry = geometry ∧ (inode = 0 ∨ slot.bufInode = 0 ∨ slot.bufInode = inode)

instance (slot : ImageSlot K) (geometry : Geometry) (inode : UInt64) :
    Decidable (slot.serves geometry inode) := by
  unfold ImageSlot.serves
  infer_instance

/-- Looks for the framebuffer in the slots, dropping what is stale: its slot, and the first slot
found free. -/
def findImage [DecidableEq K] (k : K) (fbId : UInt32) (geometry : Geometry) (inode : UInt64) :
    List ImageSlotId → Option ImageSlotId → EglM K (Option ImageSlotId × Option ImageSlotId)
  | [], free => pure (none, free)
  | i :: is, free => do
    let slot ← getImageSlot i
    if slot.fbId = 0 then findImage k fbId geometry inode is (free.or (some i))
    else if slot.fbId ≠ fbId ∨ slot.owner ≠ some k then findImage k fbId geometry inode is free
    else if slot.serves geometry inode then pure (some i, free)
    else do
      eglImageSlotRelease i
      findImage k fbId geometry inode is (free.or (some i))

/-- The slot for a new image, and its turn if none is free. -/
def slotFor (free : Option ImageSlotId) : EglM K ImageSlotId :=
  match free with
  | some i => pure i
  | none => do
    let st ← getEgl
    let i : ImageSlotId := ⟨st.nextEvict.toNat % drmtapEglImageSlots, Nat.mod_lt _ (by decide)⟩
    modifyEgl fun st => { st with nextEvict := st.nextEvict + 1 }
    eglImageSlotRelease i
    pure i

/-- An image and the texture it is seen through, and whether a slot keeps them. -/
structure Acquired where
  image : Option ℕ
  texture : ℕ
  cached : Bool

/-- Keeps a new image in a slot, if the cache is in use. -/
def adopt (useCache : Bool) (free : Option ImageSlotId) (slot : ImageSlot K) : EglM K Unit :=
  if useCache then do
    let i ← slotFor free
    setImageSlot i slot
  else pure ()

/-- Imports the framebuffer. -/
def importImage (k : K) (call : EglCall) (geometry : Geometry) (inode : UInt64) (useCache : Bool)
    (free : Option ImageSlotId) : EglM K (Except ℤ Acquired) := do
  if call.dmaBufFd < 0 then pure (.error (-EINVAL))
  else
    match ← eglImportDmabuf geometry call.dmaBufFd with
    | none => pure (.error (- EIO))
    | some image =>
      match ← eglMakeExternalTexture image with
      | none => do
        gl (.destroyImage image)
        pure (.error (- EIO))
      | some texture => do
        adopt useCache free ⟨some k, call.fbId, geometry, inode, some image, texture⟩
        pure (.ok ⟨some image, texture, useCache⟩)

def lookUpImage [DecidableEq K] (k : K) (call : EglCall) (geometry : Geometry) (inode : UInt64)
    (useCache : Bool) : EglM K (Option ImageSlotId × Option ImageSlotId) :=
  if useCache then
    findImage k call.fbId geometry inode (List.finRange drmtapEglImageSlots) none
  else pure (none, none)

/-- The image of the framebuffer, from its slot or imported. -/
def acquireImage [DecidableEq K] (k : K) (call : EglCall) (geometry : Geometry)
    (inode : UInt64) : EglM K (Except ℤ Acquired) := do
  let st ← getEgl
  let useCache : Bool := call.fbId ≠ 0 ∧ ¬ st.cacheDisabled
  let (hit, free) ← lookUpImage k call geometry inode useCache
  match hit with
  | some i => do
    let slot ← getImageSlot i
    gl (.bindTexture slot.texture)
    pure (.ok ⟨slot.image, slot.texture, true⟩)
  | none => importImage k call geometry inode useCache free

/-- The `cleanup` label: an image that no slot keeps lives as long as the call. -/
def releaseUncached (acquired : Acquired) : EglM K Unit :=
  if acquired.cached then pure ()
  else do
    gl (.deleteTexture acquired.texture)
    destroyImage acquired.image

/-! Unchanged frames -/

def hashBs : UInt32 := 32

def hashMaxBytes : ℕ := 2 ^ 20

def blocksOf (n : UInt32) : UInt32 := (n + (hashBs - 1)) / hashBs

/-- The bytes of a grid: four words for each block. -/
def gridBytes (width height : UInt32) : ℕ :=
  (blocksOf width).toNat * (blocksOf height).toNat * 16

def gridWords (width height : UInt32) : ℕ :=
  (blocksOf width).toNat * (blocksOf height).toNat * 4

namespace EglHash

def turnOff (h : EglHash K) : EglHash K := { h with on := false, valid := false }

def withGrids (h : EglHash K) (cur prev : Option (ℕ → UInt32)) (cap : ℕ) : EglHash K :=
  { h with cur := cur, prev := prev, cap := cap }

/-- The words that were read over those in `cur`. -/
def readInto (h : EglHash K) (words : ℕ) (grid : ℕ → UInt32) : EglHash K :=
  { h with cur := h.cur.map fun old i => if i < words then grid i else old i }

def gridOf (grid : Option (ℕ → UInt32)) (words : ℕ) : List UInt32 :=
  match grid with
  | some grid => (List.range words).map grid
  | none => []

/-- The hash just read is that of the last committed frame, and nothing else has moved. -/
def unchanged [DecidableEq K] (h : EglHash K) (k : K) (call : EglCall) (out : ℕ) : Prop :=
  h.owner = some k ∧ h.w = call.width ∧ h.h = call.height ∧ h.fourcc = call.fourcc ∧
    h.modifier = call.modifier ∧ h.out = out ∧
    gridOf h.cur (gridWords call.width call.height) =
      gridOf h.prev (gridWords call.width call.height)

instance [DecidableEq K] (h : EglHash K) (k : K) (call : EglCall) (out : ℕ) :
    Decidable (h.unchanged k call out) := by
  unfold unchanged
  infer_instance

def commit (h : EglHash K) (k : K) (call : EglCall) (out : ℕ) : EglHash K :=
  { h with
    prev := h.cur
    cur := h.prev
    owner := some k
    w := call.width
    h := call.height
    fourcc := call.fourcc
    modifier := call.modifier
    out := out
    valid := true }

end EglHash

def EglCall.frame (call : EglCall) (k : K) (out : Slice) (grid : Option (ℕ → UInt32)) :
    HashedFrame K :=
  ⟨k, call.width, call.height, call.fourcc, call.modifier, out,
    EglHash.gridOf grid (gridWords call.width call.height)⟩

def hashFail : EglM K Bool := do
  modifyHash EglHash.turnOff
  pure false

/-- Grows the two grids once. -/
def growGrids (bytes : ℕ) : EglM K Bool := do
  let h ← getHash
  if h.cap < bytes then do
    let cur ← gl (.allocGrid bytes)
    let prev ← gl (.allocGrid bytes)
    if cur.isNone ∨ prev.isNone then do
      modifyHash (·.withGrids none none 0)
      hashFail
    else do
      modifyHash (·.withGrids cur prev bytes)
      pure true
  else pure true

def sizeTarget (gw gh : UInt32) : EglM K Bool := do
  let h ← getHash
  if h.gw ≠ gw ∨ h.gh ≠ gh then do
    if ← gl (.hashTarget gw gh) then do
      modifyHash fun h => { h with gw := gw, gh := gh }
      pure true
    else hashFail
  else pure true

/-- The hash pass over the image that was just drawn. -/
def readGrid (width height : UInt32) : EglM K Bool := do
  let grid ← gl (.hashPass width height)
  modifyHash (·.readInto (gridWords width height) grid)
  if ← gl .getError then hashFail
  else do
    modifyHash fun h => { h with fresh := true }
    pure true

variable (address : ℕ → ℕ)

/-- The comparison that ends `hash_check`; buffers are compared by their addresses. -/
def compareGrids [DecidableEq K] (k : K) (wasValid : Bool) (call : EglCall) (out : Slice) :
    EglM K Bool := do
  let h ← getHash
  if wasValid ∧ h.unchanged k call (address out.base) then do
    modifyHash fun h => { h with valid := true }
    drmtapDebugLog (.skipped (call.frame k out h.cur))
    pure true
  else pure false

def hashCheck [DecidableEq K] (k : K) (wasValid : Bool) (call : EglCall) (out : Slice) :
    EglM K Bool := do
  modifyHash fun h => { h with fresh := false }
  let h ← getHash
  if ¬ h.on then pure false
  else if hashMaxBytes < gridBytes call.width call.height then pure false
  else if ¬ (← growGrids (gridBytes call.width call.height)) then pure false
  else if ¬ (← sizeTarget (blocksOf call.width) (blocksOf call.height)) then pure false
  else if ¬ (← readGrid call.width call.height) then pure false
  else compareGrids address k wasValid call out

def hashCommit (k : K) (call : EglCall) (out : Slice) : EglM K Unit := do
  modifyHash (·.commit k call (address out.base))
  let h ← getHash
  drmtapDebugLog (.committed (call.frame k out h.prev))

/-! The convert -/

/-- `hash.gen = ctx->out_gen` -/
def noteGen (k : K) : EglM K Unit := do
  let ctx ← ctxOf k
  modifyHash fun h => { h with gen := ctx.outGen }

def ensureOut [DecidableEq K] (k : K) (size : ℕ) : EglM K (Except ℤ Slice) := do
  let r ← onCtx k (drmtapEnsureOut size)
  drmtapDebugLog (.ensured k)
  pure r

/-- The pixels into the destination; a GL error leaves it undefined. -/
def readBack [DecidableEq K] (k : K) (call : EglCall) (hashing : Bool) (dst : Slice) :
    EglM K (Except ℤ (Slice × ℕ)) := do
  let size := call.width.toNat * call.height.toNat * 4
  let bytes ← gl (.readPixels dst)
  onCtx k (onHeap fun h => (h.store dst 0 ((List.range size).map bytes)).map ((), ·))
  if ← gl .getError then pure (.error (- EIO))
  else do
    let h ← getHash
    if hashing ∧ h.on ∧ h.fresh then do
      hashCommit address k call dst
      noteGen k
      pure (.ok (dst, size))
    else pure (.ok (dst, size))

/-- The check, for frames that are hashed at all. -/
def skips [DecidableEq K] (k : K) (call : EglCall) (hashing wasValid : Bool) (dst : Slice) :
    EglM K Bool :=
  if hashing then hashCheck address k wasValid call dst else pure false

/-- Into a resolved destination: nothing, if the frame is unchanged. -/
def deliver [DecidableEq K] (k : K) (call : EglCall) (hashing wasValid : Bool) (dst : Slice) :
    EglM K (Except ℤ (Slice × ℕ)) := do
  if ← skips address k call hashing wasValid dst then do
    noteGen k
    pure (.ok (dst, call.width.toNat * call.height.toNat * 4))
  else readBack address k call hashing dst

/-- Resolves the destination, and delivers into it. -/
def resolveOut [DecidableEq K] (k : K) (call : EglCall) (hashing wasValid : Bool) :
    EglM K (Except ℤ (Slice × ℕ)) := do
  match ← ensureOut k (call.width.toNat * call.height.toNat * 4) with
  | .error e => pure (.error e)
  | .ok dst => deliver address k call hashing wasValid dst

def drawnOf (ctx : Ctx) (geometry : Geometry) (inode : UInt64) : DrawnFrom where
  geometry := geometry
  inode := inode
  hdr := if ctx.curHdrEotf = drmtapEotfPQ then
      some (if 0 < ctx.curHdrMaxNits then ctx.curHdrMaxNits else 1000)
    else none

/-- Below 1080p the hash pass costs more than it saves. -/
def hashes (h : EglHash K) (ctx : Ctx) (call : EglCall) : Bool :=
  h.on ∧ ctx.userOut.isNone ∧ 1920 * 1080 ≤ call.width.toNat * call.height.toNat

/-- The error of the draw, which the hash pass would drain. -/
def drawFailed (hashing : Bool) : EglM K Bool := if hashing then gl .getError else pure false

/-- From the draw to the pixels. -/
def drawAndRead [DecidableEq K] (k : K) (call : EglCall) (drawn : DrawnFrom) (texture : ℕ)
    (wasValid : Bool) : EglM K (Except ℤ (Slice × ℕ)) := do
  gl (.draw texture drawn)
  let ctx ← ctxOf k
  let h ← getHash
  let hashing := hashes h ctx call
  let untouched : Bool := ctx.outGen = h.gen
  if ← drawFailed hashing then pure (.error (- EIO))
  else resolveOut address k call hashing (wasValid && untouched)

/-- A convert on the thread's context, once that is current. -/
def convertCurrent [DecidableEq K] (k : K) (call : EglCall) (wasValid : Bool) :
    EglM K (Except ℤ (Slice × ℕ)) := do
  let inode ← currentInode call.dmaBufFd
  let ctx ← ctxOf k
  let geometry := call.geometry ctx
  match ← acquireImage k call geometry inode with
  | .error e => pure (.error e)
  | .ok acquired => do
    let r ← drawAndRead address k call (drawnOf ctx geometry inode) acquired.texture wasValid
    releaseUncached acquired
    pure r

def eglConvertImpl [DecidableEq K] (k : K) (call : EglCall) : EglM K (Except ℤ (Slice × ℕ)) := do
  let h ← getHash
  modifyHash fun h => { h with valid := false, fresh := false }
  let dim := drmtapValidateFbDims call.width call.height
  if dim ≠ 0 then pure (.error dim)
  else do
    leaveDevice k
    let ret ← ensureInit k
    if ret < 0 then pure (.error ret)
    else do
      let _ ← gl .eglInitialize
      if ← gl (.makeCurrent true) then convertCurrent address k call h.valid
      else pure (.error (- EIO))

/-- The public entry, whose lock keeps other threads out for as long as it runs. -/
def drmtapGpuEglConvertOn [DecidableEq K] (k : K) (call : EglCall) :
    EglM K (Except ℤ (Slice × ℕ)) := do
  let r ← eglConvertImpl address k call
  drmtapDebugLog (.left k)
  pure r

end Program

section Rules
variable {K : Type} {α : Type} {E : Effect.Env (Op ⊕ GlOp) EglAns} {t : EglThread K} {s : E.State}

@[simp] theorem wlp_gl {o : GlOp} {Q : GlAns o → EglThread K → E.State → Prop} :
    Cmd.wlp E (gl o) Q t s ↔
      E.legal s (.inr o) ∧ ∀ (r : GlAns o) (s' : E.State), E.step s (.inr o) r s' → Q r t s' :=
  Iff.rfl

@[simp] theorem wlp_getEgl {Q : EglState K → EglThread K → E.State → Prop} :
    Cmd.wlp E getEgl Q t s ↔ Q t.egl t s := Iff.rfl

@[simp] theorem wlp_modifyEgl {f : EglState K → EglState K}
    {Q : Unit → EglThread K → E.State → Prop} :
    Cmd.wlp E (modifyEgl f) Q t s ↔ Q () { t with egl := f t.egl } s := Iff.rfl

@[simp] theorem wlp_getHash {Q : EglHash K → EglThread K → E.State → Prop} :
    Cmd.wlp E getHash Q t s ↔ Q t.egl.hash t s := Iff.rfl

@[simp] theorem wlp_modifyHash {f : EglHash K → EglHash K}
    {Q : Unit → EglThread K → E.State → Prop} :
    Cmd.wlp E (modifyHash f) Q t s ↔
      Q () { t with egl := { t.egl with hash := f t.egl.hash } } s := Iff.rfl

@[simp] theorem wlp_getImageSlot {i : ImageSlotId}
    {Q : ImageSlot K → EglThread K → E.State → Prop} :
    Cmd.wlp E (getImageSlot i) Q t s ↔ Q (t.egl.imageSlots i) t s := Iff.rfl

@[simp] theorem wlp_setImageSlot {i : ImageSlotId} {slot : ImageSlot K}
    {Q : Unit → EglThread K → E.State → Prop} :
    Cmd.wlp E (setImageSlot i slot) Q t s ↔ Q () { t with egl := { t.egl with
      imageSlots := Function.update t.egl.imageSlots i slot } } s := Iff.rfl

@[simp] theorem wlp_debugLog {event : EglEvent K} {Q : Unit → EglThread K → E.State → Prop} :
    Cmd.wlp E (drmtapDebugLog event) Q t s ↔ Q () { t with log := event :: t.log } s := Iff.rfl

@[simp] theorem wlp_ctxOf {k : K} {Q : Ctx → EglThread K → E.State → Prop} :
    Cmd.wlp E (ctxOf k) Q t s ↔ Q (t.ctxs k) t s := Iff.rfl

theorem wlp_onCtx [DecidableEq K] {k : K} {m : M α} {Q : α → EglThread K → E.State → Prop} :
    Cmd.wlp E (onCtx k m) Q t s ↔
      Cmd.wlp E.left m (fun a m' s' =>
        Q a { t with ctxs := Function.update t.ctxs k m'.ctx, heap := m'.heap } s')
        ⟨t.ctxs k, t.heap⟩ s :=
  Cmd.wlp_zoom

end Rules

/-- One context, on a thread that has not converted. -/
def newThread : EglThread Unit where
  egl := .zero
  devicePath _ := "/dev/dri/card0"
  ctxs _ := .opened "i915" 2
  heap := .empty
  log := []

end Drmtap
