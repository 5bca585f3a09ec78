import Drmtap.Kms

/-! The HDR state that the library and the helper read from one device, each through the
descriptor it opened and configured. -/
namespace Drmtap

open Memory Effect

/-- What a device shows of its connectors. The CRTC_ID property is listed only on a descriptor
that enabled the atomic capability. -/
structure Kms where
  atomic : Bool
  resources : Option Resources
  connector : UInt32 → Option Connector
  props : UInt32 → Option (List (UInt32 × UInt64))
  propName : UInt32 → Option String
  blob : UInt32 → Option (List UInt8)

/-- The capabilities that `drmtap_open` enables. -/
def drmtapConfigure {S : Type} : Cmd S Op Ans Unit := do
  let _ ← sys (.setClientCap .universalPlanes)
  let _ ← sys (.setClientCap .atomic)
  pure ()

/-- The capability that the helper's `main` enables. -/
def helperConfigure {S : Type} : Cmd S Op Ans Unit := do
  let _ ← sys (.setClientCap .universalPlanes)
  pure ()

namespace Kms
variable (k : Kms)

/-- The properties of a connector on a descriptor with or without the atomic capability. -/
def listed (atomic : Bool) (id : UInt32) : Option (List (UInt32 × UInt64)) :=
  (k.props id).map fun props =>
    props.filter fun p => atomic || k.propName p.1 ≠ some "CRTC_ID"

/-- The answers on one descriptor; the state is its atomic capability. -/
def answer : Bool → (o : Op) → Option (Ans o × Bool)
  | a, .setClientCap .universalPlanes => some (true, a)
  | a, .setClientCap .atomic => some (k.atomic, a || k.atomic)
  | a, .getResources => some (k.resources, a)
  | a, .getConnectorCurrent id => some (k.connector id, a)
  | a, .objectGetProperties id .connector => some (k.listed a id, a)
  | a, .getProperty id => some (k.propName id, a)
  | a, .getPropertyBlob id => some (k.blob id, a)
  | _, _ => none

/-- What the helper sends for a CRTC. -/
def helperHdr (crtcId : UInt32) : Option (UInt32 × UInt32) :=
  let read : Cmd Unit Op Ans (UInt32 × UInt32) := do
    helperConfigure
    readHdrMetadata crtcId
  (read.exec 0 k.answer () false).map (·.1.1)

/-- What the library reads for a CRTC into the context of `m`. -/
def libraryHdr (m : Machine) (crtcId : UInt32) : Option (UInt32 × UInt32) :=
  let read : M Unit := do
    drmtapConfigure
    readHdrMetadataDirect crtcId
  (read.exec 0 k.answer m false).map fun x => (x.1.2.ctx.curHdrEotf, x.1.2.ctx.curHdrMaxNits)

/-! What the readers find, as functions of the device. -/

def find (name : String) (props : List (UInt32 × UInt64)) : Option UInt64 :=
  (props.find? fun p => k.propName p.1 = some name).map (·.2)

/-- The CRTC a connector is bound to, as far as a descriptor shows. -/
def boundTo (atomic : Bool) (id : UInt32) : UInt32 :=
  (((k.listed atomic id).bind (k.find "CRTC_ID")).getD 0).toUInt32

def drives (atomic : Bool) (crtcId : UInt32) (conn : Connector) : Bool :=
  conn.connected && k.boundTo atomic conn.connectorId = crtcId && conn.connectorId ≠ 0

/-- The first connected connector of a CRTC. -/
def driver (atomic : Bool) (crtcId : UInt32) (ids : List UInt32) : Option Connector :=
  (ids.filterMap k.connector).find? (k.drives atomic crtcId)

/-- The HDR blob of a property, if it is one and long enough. -/
def hdrBlob (p : UInt32 × UInt64) : Option (List UInt8) :=
  if k.propName p.1 = some "HDR_OUTPUT_METADATA" ∧ p.2 ≠ 0 then
    (k.blob p.2.toUInt32).filter fun bytes => sizeofHdrOutputMetadata ≤ bytes.length
  else none

def hdrBlobs (props : List (UInt32 × UInt64)) : List (List UInt8) := props.filterMap k.hdrBlob

def hdr (atomic : Bool) (crtcId : UInt32) : UInt32 × UInt32 :=
  if crtcId = 0 then (0, 0)
  else
    match k.resources.bind fun res => k.driver atomic crtcId res.connectors with
    | none => (0, 0)
    | some conn =>
      (((k.listed atomic conn.connectorId).bind fun props =>
        (k.hdrBlobs props).getLast?).map hdrOfBlob).getD (0, 0)

section Exec
variable {S : Type} {st : S} {a : Bool}

theorem exec_findProp (name : String) (props : List (UInt32 × UInt64)) :
    Cmd.exec 0 k.answer (findProp name props) st a = some ((k.find name props, st), a) := by
  induction props with
  | nil => rfl
  | cons p props ih =>
    rw [findProp, Cmd.exec_bind_of (a := k.propName p.1) (t := st) (u := a) rfl]
    cases hn : k.propName p.1 with
    | none => simpa [find, hn] using ih
    | some n =>
      by_cases h : n = name
      · simp [find, hn, h]
      · simpa [find, hn, h] using ih

theorem exec_connectorDrives (crtcId : UInt32) (conn : Connector) :
    Cmd.exec 0 k.answer (connectorDrives crtcId conn) st a =
      some ((conn.connected && k.boundTo a conn.connectorId = crtcId, st), a) := by
  have hprop : Cmd.exec 0 k.answer (getPropValFound conn.connectorId .connector "CRTC_ID") st a =
      some (((((k.listed a conn.connectorId).bind (k.find "CRTC_ID")).getD 0,
        ((k.listed a conn.connectorId).bind (k.find "CRTC_ID")).isSome), st), a) := by
    rw [getPropValFound,
      Cmd.exec_bind_of (a := k.listed a conn.connectorId) (t := st) (u := a) rfl]
    cases k.listed a conn.connectorId with
    | none => rfl
    | some props =>
      simp only
      rw [Cmd.exec_bind_of (k.exec_findProp "CRTC_ID" props)]
      cases hf : k.find "CRTC_ID" props <;> simp [hf]
  unfold connectorDrives
  split
  next h =>
    rw [connectorCrtc, getPropVal, bind_assoc, bind_assoc, Cmd.exec_bind_of hprop]
    rw [h]
    rfl
  next h => simp [h]

theorem exec_findConnector (crtcId : UInt32) (ids : List UInt32) :
    Cmd.exec 0 k.answer (findConnector crtcId ids) st a =
      some ((((k.driver a crtcId ids).map Connector.connectorId).getD 0, st), a) := by
  induction ids with
  | nil => rfl
  | cons id ids ih =>
    rw [findConnector, Cmd.exec_bind_of (a := k.connector id) (t := st) (u := a) rfl]
    cases hc : k.connector id with
    | none => simpa [driver, hc] using ih
    | some conn =>
      simp only
      rw [Cmd.exec_bind_of (k.exec_connectorDrives crtcId conn)]
      have hd : k.drives a crtcId conn = ((conn.connected &&
          decide (k.boundTo a conn.connectorId = crtcId)) && conn.connectorId ≠ 0) := rfl
      have hcond : (decide ((conn.connected && decide (k.boundTo a conn.connectorId = crtcId)) =
          true ∧ conn.connectorId ≠ 0)) = k.drives a crtcId conn := by
        rw [hd]
        simp
      by_cases h : k.drives a crtcId conn
      · rw [if_pos (of_decide_eq_true (hcond.trans h))]
        simp [driver, hc, h]
      · rw [if_neg (of_decide_eq_false (hcond.trans (by simpa using h)))]
        simpa [driver, hc, h] using ih

theorem exec_hdrOfProps (props : List (UInt32 × UInt64)) (acc : UInt32 × UInt32) :
    Cmd.exec 0 k.answer (hdrOfProps props acc) st a =
      some ((((k.hdrBlobs props).getLast?.map hdrOfBlob).getD acc, st), a) := by
  induction props generalizing acc with
  | nil => rfl
  | cons p props ih =>
    obtain ⟨id, v⟩ := p
    rw [hdrOfProps, Cmd.exec_bind_of (a := k.propName id) (t := st) (u := a) rfl]
    by_cases h : k.propName id = some "HDR_OUTPUT_METADATA" ∧ v ≠ 0
    · rw [if_pos h, Cmd.exec_bind_of (a := k.blob v.toUInt32) (t := st) (u := a) rfl]
      have hblob : k.hdrBlob (id, v) = (k.blob v.toUInt32).filter fun bytes =>
          sizeofHdrOutputMetadata ≤ bytes.length := if_pos h
      cases hb : k.blob v.toUInt32 with
      | none =>
        have hskip : k.hdrBlobs ((id, v) :: props) = k.hdrBlobs props :=
          List.filterMap_cons_none (by rw [hblob, hb]; rfl)
        rw [hskip]
        exact ih acc
      | some bytes =>
        by_cases hl : sizeofHdrOutputMetadata ≤ bytes.length
        · have htake : k.hdrBlobs ((id, v) :: props) = bytes :: k.hdrBlobs props :=
            List.filterMap_cons_some (by rw [hblob, hb]; simp [hl])
          simp only [hl, if_true]
          rw [ih, htake, List.getLast?_cons]
          cases (k.hdrBlobs props).getLast? <;> rfl
        · have hskip : k.hdrBlobs ((id, v) :: props) = k.hdrBlobs props :=
            List.filterMap_cons_none (by rw [hblob, hb]; simp [not_le.mp hl])
          simp only [hl, if_false]
          rw [ih, hskip]
    · have hskip : k.hdrBlobs ((id, v) :: props) = k.hdrBlobs props :=
        List.filterMap_cons_none (if_neg h)
      rw [if_neg h, ih, hskip]

theorem driver_connectorId_ne {crtcId : UInt32} {ids : List UInt32} {conn : Connector}
    (h : k.driver a crtcId ids = some conn) : conn.connectorId ≠ 0 := by
  have := List.find?_some h
  simp only [drives, Bool.and_eq_true, decide_eq_true_eq] at this
  exact this.2

theorem exec_readHdr (crtcId : UInt32) :
    Cmd.exec 0 k.answer (readHdr crtcId) st a = some ((k.hdr a crtcId, st), a) := by
  unfold readHdr hdr
  split
  · rfl
  · rw [Cmd.exec_bind_of (a := k.resources) (t := st) (u := a) rfl]
    cases k.resources with
    | none => rfl
    | some res =>
      simp only [Option.bind_some]
      rw [Cmd.exec_bind_of (k.exec_findConnector crtcId res.connectors)]
      cases hd : k.driver a crtcId res.connectors with
      | none => rfl
      | some conn =>
        simp only [Option.map_some, Option.getD_some]
        rw [if_neg (k.driver_connectorId_ne hd),
          Cmd.exec_bind_of (a := k.listed a conn.connectorId) (t := st) (u := a) rfl]
        cases k.listed a conn.connectorId with
        | none => rfl
        | some props => exact k.exec_hdrOfProps props (0, 0)

end Exec

/-- Without the atomic capability no connector shows its CRTC. -/
theorem boundTo_false (id : UInt32) : k.boundTo false id = 0 := by
  unfold boundTo listed
  cases k.props id with
  | none => rfl
  | some props =>
    have hnone : k.find "CRTC_ID"
        (props.filter fun p => false || k.propName p.1 ≠ some "CRTC_ID") = none := by
      simp [find]
    simp only [Option.map_some, Option.bind_some, hnone]
    rfl

theorem hdr_false (crtcId : UInt32) : k.hdr false crtcId = (0, 0) := by
  unfold hdr
  split
  · rfl
  next h0 =>
    have hnone : ∀ ids, k.driver false crtcId ids = none := by
      intro ids
      simp only [driver, List.find?_eq_none, drives, k.boundTo_false]
      simp [Ne.symm h0]
    cases k.resources with
    | none => rfl
    | some res => simp [hnone]

theorem helperHdr_eq (crtcId : UInt32) : k.helperHdr crtcId = some (0, 0) := by
  have hread : Cmd.exec 0 k.answer (readHdrMetadata crtcId) () false =
      some ((k.hdr false crtcId, ()), false) := k.exec_readHdr crtcId
  unfold helperHdr helperConfigure
  simp only [bind_assoc]
  rw [Cmd.exec_bind_of (a := true) (t := ()) (u := false) rfl, pure_bind, hread, k.hdr_false]
  rfl

theorem libraryHdr_eq (m : Machine) (crtcId : UInt32) :
    k.libraryHdr m crtcId = some (k.hdr k.atomic crtcId) := by
  unfold libraryHdr drmtapConfigure readHdrMetadataDirect
  simp only [bind_assoc]
  rw [Cmd.exec_bind_of (a := true) (t := m) (u := false) rfl,
    Cmd.exec_bind_of (a := k.atomic) (t := m) (u := k.atomic) (by simp [answer]), pure_bind,
    Cmd.exec_bind_of (k.exec_readHdr crtcId)]
  rfl

/-- The first connected connector of the CRTC carries HDR metadata that says something. -/
def AdvertisesHdr (crtcId : UInt32) : Prop :=
  ∃ res conn props bytes, k.resources = some res ∧
    k.driver true crtcId res.connectors = some conn ∧
    k.props conn.connectorId = some props ∧ (k.hdrBlobs props).getLast? = some bytes ∧
    hdrOfBlob bytes ≠ (0, 0)

theorem hdr_true_ne_iff {crtcId : UInt32} (h0 : crtcId ≠ 0) :
    k.hdr true crtcId ≠ (0, 0) ↔ k.AdvertisesHdr crtcId := by
  have hlisted : ∀ id, k.listed true id = k.props id := by
    intro id
    unfold listed
    cases k.props id <;> simp
  unfold hdr
  rw [if_neg h0]
  constructor
  · intro h
    cases hres : k.resources with
    | none => simp [hres] at h
    | some res =>
      cases hd : k.driver true crtcId res.connectors with
      | none => simp [hres, hd] at h
      | some conn =>
        cases hp : k.props conn.connectorId with
        | none => simp [hres, hd, hlisted, hp] at h
        | some props =>
          cases hb : (k.hdrBlobs props).getLast? with
          | none => simp [hres, hd, hlisted, hp, hb] at h
          | some bytes =>
            exact ⟨res, conn, props, bytes, hres, hd, hp, hb, by
              simpa [hres, hd, hlisted, hp, hb] using h⟩
  · rintro ⟨res, conn, props, bytes, hres, hd, hp, hb, hne⟩
    simpa [hres, hd, hlisted, hp, hb] using hne

/-- The helper sends what the library reads exactly when there is nothing to send: its
descriptor lacks the capability, so it finds no connector for any CRTC. -/
theorem helperHdr_eq_libraryHdr_iff (m : Machine) (crtcId : UInt32) :
    k.helperHdr crtcId = k.libraryHdr m crtcId ↔
      ¬ (k.atomic = true ∧ crtcId ≠ 0 ∧ k.AdvertisesHdr crtcId) := by
  rw [helperHdr_eq, libraryHdr_eq, Option.some_inj]
  cases ha : k.atomic with
  | false => simp [k.hdr_false]
  | true =>
    by_cases h0 : crtcId = 0
    · simp [h0, hdr]
    · have := k.hdr_true_ne_iff h0
      constructor
      · rintro h ⟨-, -, had⟩
        exact this.mpr had h.symm
      · intro h
        by_contra hne
        exact h ⟨rfl, h0, this.mp (Ne.symm hne)⟩

end Kms

/-- HDR metadata that says PQ, with a MaxCLL of 1000. -/
def pqBlob : List UInt8 :=
  [0, 0, 0, 0, 2] ++ List.replicate 21 0 ++ [0xE8, 0x03] ++ List.replicate 4 0

/-- A display on CRTC 2 with that metadata. -/
def hdrDisplay : Kms where
  atomic := true
  resources := some ⟨[2], [1]⟩
  connector id := if id = 1 then some ⟨1, true⟩ else none
  props id := if id = 1 then some [(10, 2), (11, 20)] else none
  propName id :=
    if id = 10 then some "CRTC_ID" else if id = 11 then some "HDR_OUTPUT_METADATA" else none
  blob id := if id = 20 then some pqBlob else none

theorem hdrDisplay_differs : ¬ ∀ (k : Kms) (m : Machine) (crtcId : UInt32),
    k.helperHdr crtcId = k.libraryHdr m crtcId := by
  have hadv : hdrDisplay.AdvertisesHdr 2 := by
    refine ⟨⟨[2], [1]⟩, ⟨1, true⟩, [(10, 2), (11, 20)], pqBlob, rfl, ?_, rfl, ?_, by decide⟩
    · simp [Kms.driver, Kms.drives, Kms.boundTo, Kms.listed, Kms.find, hdrDisplay]
    · simp [Kms.hdrBlobs, Kms.hdrBlob, hdrDisplay, sizeofHdrOutputMetadata, pqBlob]
  intro h
  have heq := h hdrDisplay (.opened "i915") 2
  rw [Kms.helperHdr_eq, Kms.libraryHdr_eq, Option.some_inj] at heq
  exact (Kms.hdr_true_ne_iff hdrDisplay (by decide)).mpr hadv heq.symm

end Drmtap
