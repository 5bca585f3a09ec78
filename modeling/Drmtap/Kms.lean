import Drmtap.System

/-! What both processes read from the device: planes, properties and HDR metadata. -/
namespace Drmtap

open Memory Effect

def drmPlaneTypePrimary : UInt64 := 1
def drmPlaneTypeCursor : UInt64 := 2

section Readers
variable {S : Type}

/-- The value of the first property with a name. -/
def findProp (name : String) : List (UInt32 × UInt64) → Cmd S Op Ans (Option UInt64)
  | [] => pure none
  | (id, v) :: props => do
    match ← sys (.getProperty id) with
    | some n => if n = name then pure (some v) else findProp name props
    | none => findProp name props

/-- `get_prop_val_found`: the value, 0 when there is none, and whether there is one. -/
def getPropValFound (objId : UInt32) (objType : ObjectType) (name : String) :
    Cmd S Op Ans (UInt64 × Bool) := do
  match ← sys (.objectGetProperties objId objType) with
  | none => pure (0, false)
  | some props => do
    match ← findProp name props with
    | some v => pure (v, true)
    | none => pure (0, false)

def getPropVal (objId : UInt32) (objType : ObjectType) (name : String) :
    Cmd S Op Ans UInt64 := do
  return (← getPropValFound objId objType name).1

/-- Whether some property called "type" says PRIMARY. -/
def hasTypePrimary : List (UInt32 × UInt64) → Cmd S Op Ans Bool
  | [] => pure false
  | (id, v) :: props => do
    let name ← sys (.getProperty id)
    let rest ← hasTypePrimary props
    pure (rest || (name = some "type" && v = drmPlaneTypePrimary))

/-! HDR metadata. The library and the helper each have a copy of these three functions. -/

/-- The CRTC of a connector by its CRTC_ID property, 0 when there is none. -/
def connectorCrtc (connectorId : UInt32) : Cmd S Op Ans UInt32 := do
  return (← getPropVal connectorId .connector "CRTC_ID").toUInt32

def connectorDrives (crtcId : UInt32) (conn : Connector) : Cmd S Op Ans Bool :=
  if conn.connected then do
    return (← connectorCrtc conn.connectorId) = crtcId
  else pure false

/-- The first connected connector that drives a CRTC, 0 when none does. -/
def findConnector (crtcId : UInt32) : List UInt32 → Cmd S Op Ans UInt32
  | [] => pure 0
  | id :: ids => do
    match ← sys (.getConnectorCurrent id) with
    | none => findConnector crtcId ids
    | some conn => do
      let drives ← connectorDrives crtcId conn
      if drives ∧ conn.connectorId ≠ 0 then pure conn.connectorId else findConnector crtcId ids

def sizeofHdrOutputMetadata : ℕ := 32

def le16 (bytes : List UInt8) (off : ℕ) : UInt32 :=
  (bytes.getD off 0).toUInt32 ||| (bytes.getD (off + 1) 0).toUInt32 <<< 8

/-- `eotf` and the peak of a `struct hdr_output_metadata`: MaxCLL, or else the mastering peak. -/
def hdrOfBlob (bytes : List UInt8) : UInt32 × UInt32 :=
  ((bytes.getD 4 0).toUInt32, if le16 bytes 26 ≠ 0 then le16 bytes 26 else le16 bytes 22)

/-- The last HDR_OUTPUT_METADATA blob that is long enough. -/
def hdrOfProps : List (UInt32 × UInt64) → UInt32 × UInt32 → Cmd S Op Ans (UInt32 × UInt32)
  | [], acc => pure acc
  | (id, v) :: props, acc => do
    let name ← sys (.getProperty id)
    if name = some "HDR_OUTPUT_METADATA" ∧ v ≠ 0 then do
      match ← sys (.getPropertyBlob v.toUInt32) with
      | some bytes =>
        hdrOfProps props (if sizeofHdrOutputMetadata ≤ bytes.length then hdrOfBlob bytes else acc)
      | none => hdrOfProps props acc
    else hdrOfProps props acc

def readHdr (crtcId : UInt32) : Cmd S Op Ans (UInt32 × UInt32) := do
  if crtcId = 0 then pure (0, 0)
  else
    match ← sys .getResources with
    | none => pure (0, 0)
    | some res => do
      let connId ← findConnector crtcId res.connectors
      if connId = 0 then pure (0, 0)
      else
        match ← sys (.objectGetProperties connId .connector) with
        | none => pure (0, 0)
        | some props => hdrOfProps props (0, 0)

/-- The helper's reader. -/
def readHdrMetadata (crtcId : UInt32) : Cmd S Op Ans (UInt32 × UInt32) := readHdr crtcId

end Readers

def Ctx.setHdr (c : Ctx) (hdr : UInt32 × UInt32) : Ctx :=
  { c with curHdrEotf := hdr.1, curHdrMaxNits := hdr.2 }

/-- The library's reader, into the context. -/
def readHdrMetadataDirect (crtcId : UInt32) : M Unit := do
  let hdr ← readHdr crtcId
  modifyCtx (·.setHdr hdr)

/-! Plane discovery of the library. -/

def firstActive : List UInt32 → M UInt32
  | [] => pure 0
  | id :: ids => do
    match ← sys (.getCrtc id) with
    | none => firstActive ids
    | some crtc =>
      if crtc.modeValid ∧ crtc.crtcId ≠ 0 then pure crtc.crtcId else firstActive ids

def Ctx.setCrtcId (c : Ctx) (crtcId : UInt32) : Ctx := { c with crtcId := crtcId }

def selectFirstActiveCrtc : M UInt32 := do
  match ← sys .getResources with
  | none => pure 0
  | some res => do
    let chosen ← firstActive res.crtcs
    if chosen ≠ 0 then do
      modifyCtx (·.setCrtcId chosen)
      pure chosen
    else pure 0

def planeTypeIsPrimary (planeId : UInt32) : M Bool := do
  match ← sys (.objectGetProperties planeId .plane) with
  | none => pure false
  | some props => hasTypePrimary props

/-- The search of `find_primary_plane`: the first primary plane of the CRTC, else its first
active one. -/
def searchPlanes (targetCrtc : UInt32) : List UInt32 → UInt32 → M UInt32
  | [], result => pure result
  | id :: ids, result => do
    match ← sys (.getPlane id) with
    | none => searchPlanes targetCrtc ids result
    | some plane =>
      if plane.crtcId ≠ targetCrtc ∨ plane.fbId = 0 then searchPlanes targetCrtc ids result
      else do
        let isPrimary ← planeTypeIsPrimary plane.planeId
        let result := if isPrimary ∨ result = 0 then plane.planeId else result
        if result ≠ 0 ∧ isPrimary then pure result else searchPlanes targetCrtc ids result

/-- The CRTC of the context, chosen now if it was left open. -/
def targetCrtcOf (ctx : Ctx) : M UInt32 :=
  if ctx.crtcId = 0 then selectFirstActiveCrtc else pure ctx.crtcId

def findPrimaryPlane : M UInt32 := do
  match ← sys .getPlaneResources with
  | .error _ => pure 0
  | .ok planes => do
    let targetCrtc ← targetCrtcOf (← getCtx)
    if targetCrtc = 0 then pure 0 else searchPlanes targetCrtc planes 0

/-! These calls read, and change nothing. -/

def KmsOp : Op → Prop
  | .getPlaneResources | .getPlane _ | .getResources | .getCrtc _ | .getConnectorCurrent _
  | .objectGetProperties _ _ | .getProperty _ | .getPropertyBlob _ => True
  | _ => False

section Readers
variable {S : Type}

theorem findProp_reads (name : String) (props : List (UInt32 × UInt64)) :
    Cmd.Reads KmsOp (findProp (S := S) name props) := by
  induction props with
  | nil => exact .pure _
  | cons p props ih =>
    apply Cmd.Reads.bind (.call trivial)
    rintro (_ | n)
    · exact ih
    · exact .ite (.pure _) ih

theorem getPropValFound_reads (objId : UInt32) (objType : ObjectType) (name : String) :
    Cmd.Reads KmsOp (getPropValFound (S := S) objId objType name) := by
  apply Cmd.Reads.bind (.call trivial)
  rintro (_ | props)
  · exact .pure _
  · apply Cmd.Reads.bind (findProp_reads name props)
    rintro (_ | v) <;> exact .pure _

theorem getPropVal_reads (objId : UInt32) (objType : ObjectType) (name : String) :
    Cmd.Reads KmsOp (getPropVal (S := S) objId objType name) :=
  .bind (getPropValFound_reads objId objType name) fun _ => .pure _

theorem hasTypePrimary_reads (props : List (UInt32 × UInt64)) :
    Cmd.Reads KmsOp (hasTypePrimary (S := S) props) := by
  induction props with
  | nil => exact .pure _
  | cons p props ih => exact .bind (.call trivial) fun _ => .bind ih fun _ => .pure _

theorem connectorDrives_reads (crtcId : UInt32) (conn : Connector) :
    Cmd.Reads KmsOp (connectorDrives (S := S) crtcId conn) :=
  .ite (.bind (.bind (getPropVal_reads _ _ _) fun _ => .pure _) fun _ => .pure _) (.pure _)

theorem findConnector_reads (crtcId : UInt32) (ids : List UInt32) :
    Cmd.Reads KmsOp (findConnector (S := S) crtcId ids) := by
  induction ids with
  | nil => exact .pure _
  | cons id ids ih =>
    apply Cmd.Reads.bind (.call trivial)
    rintro (_ | conn)
    · exact ih
    · exact .bind (connectorDrives_reads crtcId conn) fun _ => .ite (.pure _) ih

theorem hdrOfProps_reads (props : List (UInt32 × UInt64)) (acc : UInt32 × UInt32) :
    Cmd.Reads KmsOp (hdrOfProps (S := S) props acc) := by
  induction props generalizing acc with
  | nil => exact .pure _
  | cons p props ih =>
    apply Cmd.Reads.bind (.call trivial)
    intro name
    apply Cmd.Reads.ite
    · apply Cmd.Reads.bind (.call trivial)
      rintro (_ | bytes) <;> exact ih _
    · exact ih _

theorem readHdr_reads (crtcId : UInt32) : Cmd.Reads KmsOp (readHdr (S := S) crtcId) := by
  apply Cmd.Reads.ite (.pure _)
  apply Cmd.Reads.bind (.call trivial)
  rintro (_ | res)
  · exact .pure _
  · apply Cmd.Reads.bind (findConnector_reads crtcId _)
    intro connId
    apply Cmd.Reads.ite (.pure _)
    apply Cmd.Reads.bind (.call trivial)
    rintro (_ | props)
    · exact .pure _
    · exact hdrOfProps_reads props _

end Readers

/-! Plane discovery only selects a CRTC. -/

/-- The context may have selected its CRTC. -/
structure Selects (m m' : Machine) : Prop where
  heap : m'.heap = m.heap
  ctx : m'.ctx = { m.ctx with crtcId := m'.ctx.crtcId }

instance : IsPreorder Machine Selects where
  refl _ := ⟨rfl, rfl⟩
  trans _ _ _ h₁ h₂ := ⟨h₂.heap.trans h₁.heap, by rw [h₂.ctx, h₁.ctx]⟩

section Steps

theorem firstActive_reads (ids : List UInt32) : Cmd.Reads KmsOp (firstActive ids) := by
  induction ids with
  | nil => exact .pure _
  | cons id ids ih =>
    apply Cmd.Reads.bind (.call trivial)
    rintro (_ | crtc)
    · exact ih
    · exact .ite (.pure _) ih

theorem selectFirstActiveCrtc_steps : Cmd.Steps KmsOp Selects selectFirstActiveCrtc := by
  apply Cmd.Steps.bind (.call trivial)
  rintro (_ | res)
  · exact .pure _
  · refine .bind (.of_reads (firstActive_reads _)) fun chosen => .ite ?_ (.pure _)
    exact .bind (.modify fun m => ⟨rfl, rfl⟩) fun _ => .pure _

theorem searchPlanes_reads (targetCrtc : UInt32) (ids : List UInt32) (result : UInt32) :
    Cmd.Reads KmsOp (searchPlanes targetCrtc ids result) := by
  induction ids generalizing result with
  | nil => exact .pure _
  | cons id ids ih =>
    apply Cmd.Reads.bind (.call trivial)
    rintro (_ | plane)
    · exact ih _
    · apply Cmd.Reads.ite (ih _)
      refine .bind (.bind (.call trivial) ?_) fun _ => .ite (.pure _) (ih _)
      rintro (_ | props)
      · exact .pure _
      · exact hasTypePrimary_reads props

theorem findPrimaryPlane_steps : Cmd.Steps KmsOp Selects findPrimaryPlane := by
  apply Cmd.Steps.bind (.call trivial)
  rintro (_ | planes)
  · exact .pure _
  · refine .bind (fun m => refl_of Selects m) fun ctx => .bind ?_ fun _ => ?_
    · exact .ite selectFirstActiveCrtc_steps (.pure _)
    · exact .ite (.pure _) (.of_reads (searchPlanes_reads _ _ _))

end Steps

/-! It gives a result on every device. -/

section Returns

theorem firstActive_returns (ids : List UInt32) : Cmd.Returns (firstActive ids) := by
  induction ids with
  | nil => exact .pure _
  | cons id ids ih =>
    apply Cmd.Returns.bind (.call _)
    rintro (_ | crtc)
    · exact ih
    · exact .ite (.pure _) ih

theorem getCtx_returns : Cmd.Returns getCtx := .bind .get fun _ => .pure _

theorem modifyCtx_returns (f : Ctx → Ctx) : Cmd.Returns (modifyCtx f) := .modify _

theorem selectFirstActiveCrtc_returns : Cmd.Returns selectFirstActiveCrtc := by
  apply Cmd.Returns.bind (.call _)
  rintro (_ | res)
  · exact .pure _
  · exact .bind (firstActive_returns _) fun _ =>
      .ite (.bind (modifyCtx_returns _) fun _ => .pure _) (.pure _)

theorem hasTypePrimary_returns (props : List (UInt32 × UInt64)) :
    Cmd.Returns (hasTypePrimary (S := Machine) props) := by
  induction props with
  | nil => exact .pure _
  | cons p props ih => exact .bind (.call _) fun _ => .bind ih fun _ => .pure _

theorem planeTypeIsPrimary_returns (planeId : UInt32) :
    Cmd.Returns (planeTypeIsPrimary planeId) := by
  apply Cmd.Returns.bind (.call _)
  rintro (_ | props)
  · exact .pure _
  · exact hasTypePrimary_returns props

theorem searchPlanes_returns (targetCrtc : UInt32) (ids : List UInt32) (result : UInt32) :
    Cmd.Returns (searchPlanes targetCrtc ids result) := by
  induction ids generalizing result with
  | nil => exact .pure _
  | cons id ids ih =>
    apply Cmd.Returns.bind (.call _)
    rintro (_ | plane)
    · exact ih _
    · exact .ite (ih _) (.bind (planeTypeIsPrimary_returns _) fun _ => .ite (.pure _) (ih _))

theorem findPrimaryPlane_returns : Cmd.Returns findPrimaryPlane := by
  apply Cmd.Returns.bind (.call _)
  rintro (_ | planes)
  · exact .pure _
  · exact .bind getCtx_returns fun _ => .bind (.ite selectFirstActiveCrtc_returns (.pure _))
      fun _ => .ite (.pure _) (searchPlanes_returns _ _ _)

end Returns

end Drmtap
