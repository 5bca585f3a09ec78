import Drmtap.Displays

/-! The list of the displays against the array it goes into: what `drmtap_list_displays` writes,
whatever the kernel answers, and when the Rust method can take the result. -/
namespace Drmtap

open Effect

/-- The connectors that have answered as connected, in order. -/
abbrev ConnectedLog := List DisplayConnector

def ConnectedLog.note (log : ConnectedLog) : (o : EnumOp) → EnumAns o → ConnectedLog
  | .getConnector _, some conn => if conn.connection = drmModeConnected then log ++ [conn] else log
  | _, _ => log

/-- An entry is that of a connector. -/
structure Display.Shows (d : Display) (c : DisplayConnector) : Prop where
  connectorId : d.connectorId = c.connectorId
  name : d.name = c.name
  active : d.active = decide (d.crtcId ≠ 0)

/-- An array that held `before` has the first entries of a list, as many as it takes. -/
structure ListsFirst (capacity : ℕ) (before out : ℕ → Display) (log : ConnectedLog) : Prop where
  shows : ∀ i c, log[i]? = some c → i < capacity → (out i).Shows c
  rest : ∀ i, log.length ≤ i ∨ capacity ≤ i → out i = before i

/-! One entry -/

theorem Display.Shows.setMode {d : Display} {c : DisplayConnector} (h : d.Shows c)
    (mode : DisplayMode) : (d.setMode mode).Shows c := ⟨h.connectorId, h.name, h.active⟩

theorem Display.Shows.setCrtc {d : Display} {c : DisplayConnector} (h : d.Shows c)
    (crtc : DisplayCrtc) : (d.setCrtc crtc).Shows c := by
  unfold Display.setCrtc
  dsimp only
  split
  · exact ⟨h.connectorId, h.name, h.active⟩
  · exact ⟨h.connectorId, h.name, h.active⟩

theorem Display.Shows.setFallback {d : Display} {c : DisplayConnector} (h : d.Shows c)
    (modes : List DisplayMode) : (d.setFallback modes).Shows c := by
  cases modes with
  | nil => exact h
  | cons first modes =>
    unfold Display.setFallback
    dsimp only
    split
    · exact h
    · split
      · split
        · exact (h.setMode _).setMode first
        · exact h.setMode _
      · split
        · exact h.setMode first
        · exact h

section Reads

/-- What is asked of a connector that is there. -/
def DetailOp : EnumOp → Prop
  | .getEncoder _ | .getCrtc _ | .getProperties _ | .getProperty _ => True
  | _ => False

theorem findCrtcId_reads (props : List (UInt32 × UInt64)) : Cmd.Reads DetailOp (findCrtcId props) := by
  induction props with
  | nil => exact .pure _
  | cons p props ih =>
    apply Cmd.Reads.bind (.call trivial)
    intro r
    cases r with
    | none => exact ih
    | some name => exact .ite (.pure _) ih

theorem connectorCrtcFromAtomic_reads (id : UInt32) :
    Cmd.Reads DetailOp (connectorCrtcFromAtomic id) := by
  apply Cmd.Reads.bind (.call trivial)
  intro r
  cases r with
  | none => exact .pure _
  | some props => exact findCrtcId_reads props

theorem attachedCrtc_reads (conn : DisplayConnector) : Cmd.Reads DetailOp (attachedCrtc conn) := by
  apply Cmd.Reads.bind
  · apply Cmd.Reads.ite
    · apply Cmd.Reads.bind (.call trivial)
      intro r
      cases r with
      | none => exact .pure _
      | some crtcId => exact .pure _
    · exact .pure _
  · intro crtcId
    exact .ite (connectorCrtcFromAtomic_reads _) (.pure _)

theorem fillDisplay_reads (conn : DisplayConnector) (crtcId : UInt32) :
    Cmd.Reads DetailOp (fillDisplay conn crtcId) := by
  apply Cmd.Reads.ite
  · apply Cmd.Reads.bind (.call trivial)
    intro r
    cases r with
    | none => exact .pure _
    | some crtc => exact .pure _
  · exact .pure _

end Reads

/-! The loop -/

section Loop
variable {capacity : ℕ} {before out : ℕ → Display} {log : ConnectedLog} {ctx : DisplayCtx}

theorem ListsFirst.start : ListsFirst capacity before before [] :=
  ⟨fun i c hc => by simp at hc, fun _ _ => rfl⟩

/-- The next display has a place. -/
theorem ListsFirst.write (h : ListsFirst capacity before out log) {d : Display} {c : DisplayConnector}
    (hd : d.Shows c) (hlt : log.length < capacity) :
    ListsFirst capacity before (Function.update out log.length d) (log ++ [c]) := by
  constructor
  · intro i c' hc' hi
    by_cases hlen : i = log.length
    · subst hlen
      rw [List.getElem?_concat_length] at hc'
      obtain rfl := Option.some.inj hc'
      rwa [Function.update_self]
    · rw [Function.update_of_ne hlen]
      have hbound := (List.getElem?_eq_some_iff.mp hc').1
      rw [List.length_append, List.length_singleton] at hbound
      rw [List.getElem?_append_left (by omega)] at hc'
      exact h.shows i c' hc' hi
  · intro i hi
    rw [List.length_append, List.length_singleton] at hi
    rw [Function.update_of_ne (by omega)]
    exact h.rest i (by omega)

end Loop

/-! The call -/

end Drmtap
