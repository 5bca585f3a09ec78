import Drmtap.Grab

/-! The refresh of the captured CRTC, and the rotation of the plane the last grab read from. -/
namespace Drmtap

open Effect

/-- Why a library call failed: `errno ? errno : EIO`. -/
def errnoOrEIO : M ℤ := do
  let e ← sys .errno
  pure (if e ≠ 0 then (e : ℤ) else EIO)

/-! `drmtap_crtc_refresh` -/

def refreshGcd (a b : ℕ) : ℕ :=
  if b = 0 then a else refreshGcd b (a % b)
termination_by b
decreasing_by exact Nat.mod_lt a (Nat.pos_of_ne_zero ‹_›)

theorem refreshGcd_eq (a b : ℕ) : refreshGcd a b = Nat.gcd a b := by
  induction a, b using refreshGcd.induct with
  | case1 a => simp [refreshGcd]
  | case2 a b h ih =>
    rw [refreshGcd, if_neg h, ih, Nat.gcd_comm b, Nat.gcd_comm a, ← Nat.gcd_rec]

def drmModeFlagInterlace : UInt32 := 0x10
def drmModeFlagDblscan : UInt32 := 0x20

/-- The refresh of a mode as a reduced fraction. The products stay within 64 bits. -/
def drmtapModeRefresh (mode : ModeTimings) : Option (ℕ × ℕ) :=
  if mode.clock = 0 ∨ mode.htotal = 0 ∨ mode.vtotal = 0 then none
  else
    let n := mode.clock.toNat * 1000
    let d := mode.htotal.toNat * mode.vtotal.toNat
    let n := if mode.flags &&& drmModeFlagInterlace ≠ 0 then n * 2 else n
    let d := if mode.flags &&& drmModeFlagDblscan ≠ 0 then d * 2 else d
    let d := if 1 < mode.vscan then d * mode.vscan.toNat else d
    let g := refreshGcd n d
    some (n / g, d / g)

example : drmtapModeRefresh ⟨148352, 2200, 1125, 0, 0⟩ = some (148352, 2475) := by
  simp [drmtapModeRefresh, refreshGcd_eq, drmModeFlagInterlace, drmModeFlagDblscan]

/-- The refresh, and the CRTC it is of. -/
def drmtapCrtcRefresh : M (Except ℤ (ℕ × ℕ)) := do
  let ctx ← getCtx
  if ctx.isRenderOnly then pure (.error (- ENOTSUP))
  else do
    let crtcId ← targetCrtcOf ctx
    if crtcId = 0 then pure (.error (- ENOENT))
    else
      match ← sys (.getCrtc crtcId) with
      | none => do
        let err ← errnoOrEIO
        pure (.error (- err))
      | some crtc =>
        if crtc.modeValid then
          match drmtapModeRefresh crtc.timings with
          | some refresh => pure (.ok refresh)
          | none => pure (.error (- ENODATA))
        else pure (.error (- ENODATA))

/-! `drmtap_plane_rotation` -/

namespace Ctx

/-- The properties of another plane are looked up again. -/
def lookAtPlane (c : Ctx) (planeId : UInt32) : Ctx :=
  if planeId = c.rotPropPlaneId then c
  else { c with rotPropPlaneId := planeId, rotPropId := 0, rotPropState := 0 }

def foundRotation (c : Ctx) (propId : UInt32) : Ctx :=
  { c with rotPropId := propId, rotPropState := 1 }

def noRotation (c : Ctx) : Ctx := { c with rotPropState := -1 }

/-- The property set changed: it is looked up by name next time. -/
def forgetRotation (c : Ctx) : Ctx := { c with rotPropState := 0, rotPropId := 0 }

end Ctx

/-- The "rotation" of a plane by its name, and the last reason why a property was unreadable. -/
def findRotation : List (UInt32 × UInt64) → ℤ → M (Option (UInt32 × UInt64) × ℤ)
  | [], failed => pure (none, failed)
  | (id, value) :: props, failed => do
    match ← sys (.getProperty id) with
    | none => do
      let failed ← errnoOrEIO
      findRotation props failed
    | some name => if name = "rotation" then pure (some (id, value), failed) else findRotation props failed

/-- The first look at a plane. -/
def lookUpRotation (props : List (UInt32 × UInt64)) : M (Except ℤ UInt32) := do
  let (found, failed) ← findRotation props 0
  match found with
  | some (id, value) => do
    modifyCtx (·.foundRotation id)
    pure (.ok value.toUInt32)
  | none =>
    if failed = 0 then do
      modifyCtx Ctx.noRotation
      pure (.error (- ENOTSUP))
    else pure (.error (- failed))

/-- The later ones, by the id that was found. -/
def rereadRotation (propId : UInt32) (props : List (UInt32 × UInt64)) : M (Except ℤ UInt32) :=
  match props.find? fun p => p.1 = propId with
  | some (_, value) => pure (.ok value.toUInt32)
  | none => do
    modifyCtx Ctx.forgetRotation
    pure (.error (- ENOTSUP))

/-- The plane of the last grab; before any grab the one that a grab would use. -/
def rotationPlane (ctx : Ctx) : M UInt32 :=
  if ctx.grabPlaneId ≠ 0 then pure ctx.grabPlaneId else findPrimaryPlane

/-- The rotation property of a plane. -/
def readRotation (planeId : UInt32) : M (Except ℤ UInt32) := do
  modifyCtx (·.lookAtPlane planeId)
  let ctx ← getCtx
  if ctx.rotPropState < 0 then pure (.error (- ENOTSUP))
  else
    match ← sys (.objectGetProperties planeId .plane) with
    | none => do
      let err ← errnoOrEIO
      pure (.error (- err))
    | some props =>
      if ctx.rotPropState = 0 then lookUpRotation props else rereadRotation ctx.rotPropId props

def drmtapPlaneRotation : M (Except ℤ UInt32) := do
  let ctx ← getCtx
  if ctx.isRenderOnly then pure (.error (- ENOTSUP))
  else do
    let planeId ← rotationPlane ctx
    if planeId = 0 then pure (.error (- ENOENT)) else readRotation planeId

end Drmtap
