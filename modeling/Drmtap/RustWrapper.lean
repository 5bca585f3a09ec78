import Drmtap.FrameOwnership

/-! lib.rs of the Rust wrapper: frames that own their pixels, and the buffer that goes round
between them. -/
namespace Drmtap

open Memory Effect

def EOVERFLOW : ℤ := 75

/-- What the wrapper asks of its runtime. -/
inductive RustOp where
  /-- whether the lock on the spare buffer was taken: one that is poisoned is not -/
  | lockSpare

@[reducible] def RustAns : RustOp → Type
  | .lockSpare => Bool

/-- A `DrmTap` with its `Ctx`. A `Vec<u8>` is a block of the heap. -/
structure DrmTap where
  /-- the C context -/
  machine : Machine
  /-- the buffer of the last released frame -/
  spare : Option Slice
  outLen : ℕ

def DrmTap.setSpare (t : DrmTap) (spare : Option Slice) : DrmTap := { t with spare := spare }

def DrmTap.setOutLen (t : DrmTap) (len : ℕ) : DrmTap := { t with outLen := len }

def DrmTap.setMachine (t : DrmTap) (m : Machine) : DrmTap := { t with machine := m }

abbrev RustM := Cmd DrmTap (Op ⊕ RustOp) (Sum.elim Ans RustAns)

section Runtime
variable {α : Type}

/-- A call of the C library, or a step on the memory. -/
def ffi (c : M α) : RustM α := Cmd.zoom DrmTap.machine DrmTap.setMachine c

def lockSpare : RustM Bool := Cmd.call (Sum.inr RustOp.lockSpare : Op ⊕ RustOp)

/-- `vec![0; len]` -/
def vecZeroed (len : ℕ) : RustM Slice := ffi (onHeap fun h => some (h.alloc len 0))

/-- `to_vec` -/
def vecOf (bytes : List UInt8) : RustM Slice :=
  ffi (onHeap fun h => some (h.alloc bytes.length fun i => bytes.getD i 0))

def vecDrop (v : Slice) : RustM Unit := ffi (onHeap fun h => (h.free v).map ((), ·))

def vecDropOld : Option Slice → RustM Unit
  | none => pure ()
  | some v => vecDrop v

/-- `slice::from_raw_parts`, read. -/
def readRaw (data : Slice) (len : ℕ) : RustM (List UInt8) :=
  ffi (onHeap fun h => (h.load data 0 len).map (·, h))

/-- `copy_from_slice`, to the start of a buffer. -/
def copyFromSlice (buf : Slice) (bytes : List UInt8) : RustM Unit :=
  ffi (onHeap fun h => (h.store buf 0 bytes).map ((), ·))

end Runtime

/-- `Frame` -/
structure TapFrame where
  raw : FrameInfo
  owned : Option Slice

namespace TapFrame

def len (f : TapFrame) : ℕ := f.raw.stride.toNat * f.raw.height.toNat

/-- `Frame::data`, without a result where the slice of its own buffer is out of range. -/
def data (f : TapFrame) : Option (Option Slice) :=
  match f.owned with
  | some owned => if f.len ≤ owned.len then some (some ⟨owned.base, f.len⟩) else none
  | none => some (f.raw.data.map fun d => ⟨d.base, f.len⟩)

end TapFrame

/-- `std::mem::zeroed` -/
def FrameInfo.zeroed : FrameInfo := { FrameInfo.cleared with dmaBufFd := 0 }

namespace DrmTap

/-- `Ctx::take_buffer` -/
def takeBuffer (len : ℕ) : RustM Slice := do
  let locked ← lockSpare
  let t ← get
  if locked then do
    modify (·.setSpare none)
    match t.spare with
    | some buf =>
      if len ≤ buf.len then pure buf
      else do
        let new ← vecZeroed len
        vecDrop buf
        pure new
    | none => vecZeroed len
  else vecZeroed len

/-- `Ctx::keep_buffer` -/
def keepBuffer (buf : Slice) : RustM Unit := do
  let locked ← lockSpare
  let t ← get
  if locked then do
    modify (·.setSpare (some buf))
    vecDropOld t.spare
  else vecDrop buf

/-- `copy_unowned`: the copy, and what is left of `spare`. -/
def copyUnowned (raw : FrameInfo) (spare : Option Slice) :
    RustM (Option Slice × Option Slice) :=
  match raw.data with
  | none => pure (none, spare)
  | some data =>
    if drmtapFrameOwnsData raw ≠ 0 then pure (none, spare)
    else do
      let len := raw.stride.toNat * raw.height.toNat
      let pixels ← readRaw data len
      match spare with
      | some buf =>
        if len ≤ buf.len then do
          copyFromSlice buf pixels
          pure (some buf, none)
        else do
          let copy ← vecOf pixels
          vecDrop buf
          pure (some copy, none)
      | none => do
        let copy ← vecOf pixels
        pure (some copy, none)

/-- `DrmTap::grab` -/
def grab : RustM (Except ℤ TapFrame) := do
  let (ret, raw) ← ffi (drmtapGrab .zeroed)
  if ret < 0 then pure (.error ret)
  else do
    let (owned, _) ← copyUnowned raw none
    pure (.ok ⟨raw, owned⟩)

/-- `DrmTap::grab_desc`, into a descriptor that was `zeroed`. -/
def grabDesc (zeroed : DmabufDesc) : RustM (Except ℤ (TapFrame × DmabufDesc)) := do
  let (ret, desc, raw) ← ffi (drmtapGrabDesc zeroed .zeroed)
  if ret < 0 then pure (.error ret)
  else do
    let (owned, _) ← copyUnowned raw none
    pure (.ok (⟨raw, owned⟩, desc))

/-- The buffer of the next conversion, lent to the context. -/
def lendBuffer : RustM (Option Slice) := do
  let t ← get
  if 0 < t.outLen then do
    let buf ← takeBuffer t.outLen
    let _ ← ffi (drmtapSetOutputBuffer (some buf))
    pure (some buf)
  else pure none

/-- `drmtap_grab_mapped` into the buffer that is lent, and where the frame outgrew it, into the
context's own. -/
def grabInto (buf : Option Slice) : RustM (ℤ × FrameInfo) := do
  let (ret, raw) ← ffi (drmtapGrabMapped .zeroed)
  let _ ← ffi (drmtapSetOutputBuffer none)
  if ret = - ENOSPC ∧ buf ≠ none then ffi (drmtapGrabMapped raw) else pure (ret, raw)

/-- The copy of pixels that are not in `buf`, which is kept if it is still there. -/
def copyOut (raw : FrameInfo) (buf : Option Slice) : RustM (Option Slice) := do
  let (copy, left) ← copyUnowned raw buf
  match left with
  | some buf => do
    keepBuffer buf
    pure copy
  | none => pure copy

/-- The pixels that the frame owns; an error for one that is longer than its buffer. -/
def claimPixels (raw : FrameInfo) (buf : Option Slice) : RustM (Except ℤ (Option Slice)) :=
  match buf with
  | none => do
    let owned ← copyOut raw none
    pure (.ok owned)
  | some buf =>
    if raw.data.map Slice.base = some buf.base then
      if buf.len < raw.stride.toNat * raw.height.toNat then do
        let _ ← ffi (drmtapFrameRelease raw)
        vecDrop buf
        pure (.error (- EOVERFLOW))
      else pure (.ok (some buf))
    else do
      let owned ← copyOut raw (some buf)
      pure (.ok owned)

/-- `DrmTap::grab_mapped` -/
def grabMapped : RustM (Except ℤ TapFrame) := do
  let buf ← lendBuffer
  let (ret, raw) ← grabInto buf
  if ret < 0 then do
    vecDropOld buf
    pure (.error ret)
  else
    match ← claimPixels raw buf with
    | .error e => pure (.error e)
    | .ok owned => do
      modify (·.setOutLen (raw.stride.toNat * raw.height.toNat))
      pure (.ok ⟨raw, owned⟩)

/-- The drop of the last owner of a context: `Ctx::drop`, and the buffer that was kept. -/
def drop (drmFd : ℤ) : RustM Unit := do
  ffi (drmtapClose drmFd)
  let t ← get
  modify (·.setSpare none)
  vecDropOld t.spare

end DrmTap

/-- `Frame::drop` -/
def TapFrame.drop (f : TapFrame) : RustM Unit := do
  let _ ← ffi (drmtapFrameRelease f.raw)
  match f.owned with
  | some buf => DrmTap.keepBuffer buf
  | none => pure ()

end Drmtap
