import Drmtap.Lib.Liberal
import Drmtap.Types

/-! The enumeration of drm_enumerate.c: the displays of a device, the signature of its topology,
and the method of the Rust binding that lists them. -/
namespace Drmtap

open Effect

/-- `drmModeModeInfo` -/
structure DisplayMode where
  hdisplay : UInt16
  vdisplay : UInt16
  vrefresh : UInt32
  /-- `DRM_MODE_TYPE_PREFERRED` -/
  preferred : Bool

/-- `drmModeConnector` -/
structure DisplayConnector where
  connectorId : UInt32
  connection : UInt32
  encoderId : UInt32
  connectorType : UInt32
  connectorTypeId : UInt32
  modes : List DisplayMode

/-- `drmModeCrtc` -/
structure DisplayCrtc where
  x : UInt32
  y : UInt32
  modeValid : UInt32
  mode : DisplayMode

/-- `drmModeRes` -/
structure DisplayResources where
  connectors : List UInt32
  countCrtcs : UInt32

/-- What enumeration asks the kernel; `getEncoder` is answered with the CRTC of the encoder. -/
inductive EnumOp where
  | getResources
  | getConnector (id : UInt32)
  | getConnectorCurrent (id : UInt32)
  | getEncoder (id : UInt32)
  | getCrtc (id : UInt32)
  | getProperties (connectorId : UInt32)
  | getProperty (id : UInt32)

abbrev EnumAns : EnumOp → Type
  | .getResources => Option DisplayResources
  | .getConnector _ | .getConnectorCurrent _ => Option DisplayConnector
  | .getEncoder _ => Option UInt32
  | .getCrtc _ => Option DisplayCrtc
  | .getProperties _ => Option (List (UInt32 × UInt64))
  | .getProperty _ => Option String

/-- The part of `struct drmtap_ctx` that enumeration uses. -/
structure DisplayCtx where
  drmFd : ℤ
  cachedTopologyHash : UInt64

def DisplayCtx.cache (c : DisplayCtx) (h : UInt64) : DisplayCtx := { c with cachedTopologyHash := h }

abbrev EnumM := Cmd DisplayCtx EnumOp EnumAns

def drm (o : EnumOp) : EnumM (EnumAns o) := Cmd.call o

/-- `drmtap_display` -/
structure Display where
  crtcId : UInt32
  connectorId : UInt32
  name : String
  x : UInt32
  y : UInt32
  width : UInt32
  height : UInt32
  refreshHz : UInt32
  active : Bool

def connectorTypeNames : List String :=
  ["Unknown", "VGA", "DVI-I", "DVI-D", "DVI-A", "Composite", "SVIDEO", "LVDS", "Component", "DIN",
    "DP", "HDMI-A", "HDMI-B", "TV", "eDP", "Virtual", "DSI", "DPI", "Writeback", "SPI", "USB"]

def drmtapConnectorTypeName (connectorType : UInt32) : String :=
  connectorTypeNames.getD connectorType.toNat "Unknown"

/-- The longest name and id fit in the 32 bytes of `name`. -/
def DisplayConnector.name (c : DisplayConnector) : String :=
  drmtapConnectorTypeName c.connectorType ++ "-" ++ toString c.connectorTypeId

namespace Display

def zeroed : Display := ⟨0, 0, "", 0, 0, 0, 0, 0, false⟩

def setMode (d : Display) (mode : DisplayMode) : Display :=
  { d with
    width := mode.hdisplay.toUInt32, height := mode.vdisplay.toUInt32, refreshHz := mode.vrefresh }

/-- The current mode and the offsets. -/
def setCrtc (d : Display) (crtc : DisplayCrtc) : Display :=
  let d := { d with x := crtc.x, y := crtc.y }
  if crtc.modeValid ≠ 0 then d.setMode crtc.mode else d

/-- Without an active mode the preferred one, and else the first. -/
def setFallback (d : Display) (modes : List DisplayMode) : Display :=
  match modes with
  | [] => d
  | first :: _ =>
    if d.width ≠ 0 then d
    else
      let d := match modes.find? (·.preferred) with
        | some mode => d.setMode mode
        | none => d
      if d.width = 0 then d.setMode first else d

end Display

/-- The CRTC_ID among some properties, 0 when it is not there. -/
def findCrtcId : List (UInt32 × UInt64) → EnumM UInt32
  | [] => pure 0
  | (id, value) :: props => do
    match ← drm (.getProperty id) with
    | none => findCrtcId props
    | some name => if name = "CRTC_ID" then pure value.toUInt32 else findCrtcId props

def connectorCrtcFromAtomic (connectorId : UInt32) : EnumM UInt32 := do
  match ← drm (.getProperties connectorId) with
  | none => pure 0
  | some props => findCrtcId props

/-! `topology_hash` -/

/-- `TH_FOLD` -/
def thFold (h : UInt64) (v : UInt32) : UInt64 := (h ^^^ v.toUInt64) * 1099511628211

def foldMode (h : UInt64) (c : DisplayCrtc) : UInt64 :=
  let h := thFold h c.modeValid
  let h := thFold h c.mode.hdisplay.toUInt32
  let h := thFold h c.mode.vdisplay.toUInt32
  thFold h c.mode.vrefresh

def foldConnector (h : UInt64) (id : UInt32) : EnumM UInt64 := do
  match ← drm (.getConnectorCurrent id) with
  | none => pure (thFold h id)
  | some conn => do
    let h := thFold h conn.connectorId
    let h := thFold h conn.connection
    let crtc ← connectorCrtcFromAtomic conn.connectorId
    let h := thFold h crtc
    if crtc ≠ 0 then
      match ← drm (.getCrtc crtc) with
      | some c => pure (foldMode h c)
      | none => pure h
    else pure h

def foldConnectors : List UInt32 → UInt64 → EnumM UInt64
  | [], h => pure h
  | id :: ids, h => do
    let h ← foldConnector h id
    foldConnectors ids h

def topologyHash (res : DisplayResources) : EnumM UInt64 :=
  let h : UInt64 := 1469598103934665603
  let h := thFold h res.connectors.length.toUInt32
  let h := thFold h res.countCrtcs
  foldConnectors res.connectors h

/-! `drmtap_list_displays` -/

def drmModeConnected : UInt32 := 1

def encoderCrtc (conn : DisplayConnector) : EnumM UInt32 :=
  if conn.encoderId ≠ 0 then do
    match ← drm (.getEncoder conn.encoderId) with
    | some crtcId => pure crtcId
    | none => pure 0
  else pure 0

/-- The CRTC attached to a connector, by its encoder or else by its property. -/
def attachedCrtc (conn : DisplayConnector) : EnumM UInt32 := do
  let crtcId ← encoderCrtc conn
  if crtcId = 0 then connectorCrtcFromAtomic conn.connectorId else pure crtcId

/-- One entry of the output. -/
def fillDisplay (conn : DisplayConnector) (crtcId : UInt32) : EnumM Display := do
  let d : Display := { Display.zeroed with
    connectorId := conn.connectorId, crtcId, active := crtcId ≠ 0, name := conn.name }
  if crtcId ≠ 0 then
    match ← drm (.getCrtc crtcId) with
    | some crtc => pure ((d.setCrtc crtc).setFallback conn.modes)
    | none => pure (d.setFallback conn.modes)
  else pure (d.setFallback conn.modes)

/-- The loop over the connectors, with the displays found and the output array so far. -/
def listConnectors (maxCount : ℕ) :
    List UInt32 → ℕ → (ℕ → Display) → EnumM (ℕ × (ℕ → Display))
  | [], found, out => pure (found, out)
  | id :: ids, found, out => do
    match ← drm (.getConnector id) with
    | none => listConnectors maxCount ids found out
    | some conn =>
      if conn.connection ≠ drmModeConnected then listConnectors maxCount ids found out
      else do
        let crtcId ← attachedCrtc conn
        if found < maxCount then do
          let d ← fillDisplay conn crtcId
          listConnectors maxCount ids (found + 1) (Function.update out found d)
        else listConnectors maxCount ids (found + 1) out

/-- The result, and the output array as the call leaves it. -/
def drmtapListDisplays (out : Option (ℕ → Display)) (maxCount : ℤ) :
    EnumM (ℤ × Option (ℕ → Display)) := do
  match out with
  | none => pure (- EINVAL, none)
  | some out =>
    if maxCount ≤ 0 then pure (- EINVAL, some out)
    else do
      let ctx ← get
      if ctx.drmFd < 0 then pure (- ENODEV, some out)
      else
        match ← drm .getResources with
        | none => pure (- ENODEV, some out)
        | some res => do
          let (found, out) ← listConnectors maxCount.toNat res.connectors 0 out
          let h ← topologyHash res
          modify (·.cache h)
          pure ((found : ℤ), some out)

/-- 1 when the signature is another than the cached one. -/
def drmtapDisplaysChanged : EnumM ℤ := do
  let ctx ← get
  if ctx.drmFd < 0 then pure (- ENODEV)
  else
    match ← drm .getResources with
    | none => pure (- ENODEV)
    | some res => do
      let h ← topologyHash res
      let ctx ← get
      let changed : ℤ := if h ≠ ctx.cachedTopologyHash then 1 else 0
      modify (·.cache h)
      pure changed

/-! `DrmTap::list_displays` of the Rust binding -/

end Drmtap
