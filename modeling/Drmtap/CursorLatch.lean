import Drmtap.FailedGrabs
import Drmtap.Footprint

/-! What makes a context take its helper for one that does not know CMD_GET_CURSOR2. -/
namespace Drmtap

open Memory Effect

/-! Probes: requests for the extended reply -/

/-- What was seen of the helpers of a context, and of the probes of the present call. -/
structure ProbeLog where
  /-- how many were spawned, which numbers them -/
  process : ℕ
  /-- what is still to come of the answer to a probe -/
  awaited : ℕ
  /-- those that left a probe of this call unanswered -/
  unanswered : List ℕ
  /-- a probe was ever answered -/
  answered : Bool

namespace ProbeLog

def start : ProbeLog := ⟨0, 0, [], false⟩

/-- Another call begins. -/
def nextCall (l : ProbeLog) : ProbeLog := { l with awaited := 0, unanswered := [] }

/-- A command was sent; a probe counts if the socket took it whole. -/
def sent (l : ProbeLog) (bytes : List UInt8) (taken : ℕ) : ProbeLog :=
  { l with awaited :=
      if (HelperCmd.decode bytes).type = cmdGetCursor2 ∧ taken = sizeofHelperCmd then
        sizeofCursorWire2
      else 0 }

def received (l : ProbeLog) (n : ℕ) : ProbeLog :=
  { l with awaited := l.awaited - n, answered := l.answered || (0 < l.awaited && l.awaited ≤ n) }

/-- The stream ended, before the answer if there was one to come. -/
def ended (l : ProbeLog) : ProbeLog :=
  if l.awaited = 0 then l
  else { l with awaited := 0, unanswered := l.unanswered ++ [l.process] }

def note (l : ProbeLog) : (o : Op) → Ans o → ProbeLog
  | .helperSpawn, .ok _ => { l with process := l.process + 1 }
  | .send _ bytes, .ok n => l.sent bytes n
  | .send _ bytes, .error _ => l.sent bytes 0
  | .recv _ _, .error e => if e.interrupted then l else l.ended
  | .recv _ _, .ok bytes => if bytes = [] then l.ended else l.received bytes.length
  | _, _ => l

theorem sent_of_ne {bytes : List UInt8} (h : (HelperCmd.decode bytes).type ≠ cmdGetCursor2)
    (l : ProbeLog) (n : ℕ) : l.sent bytes n = { l with awaited := 0 } := by
  simp [sent, h]

theorem ended_of_idle {l : ProbeLog} (h : l.awaited = 0) : l.ended = l := if_pos h

theorem received_of_idle {l : ProbeLog} (h : l.awaited = 0) (n : ℕ) : l.received n = l := by
  simp [received, h]
  rw [← h]

end ProbeLog

/-- Any answers, of which the log is kept. -/
abbrev probeEnv : Env := .noting ProbeLog.note

/-- The flags of the latch are as they were, and the log is but for helpers that were spawned. -/
structure Stands (x y : Machine × ProbeLog) : Prop where
  noCursor2 : y.1.ctx.helperNoCursor2 = x.1.ctx.helperNoCursor2
  cursor2Ok : y.1.ctx.helperCursor2Ok = x.1.ctx.helperCursor2Ok
  retried : y.1.ctx.helperCursor2Retried = x.1.ctx.helperCursor2Retried
  unanswered : y.2.unanswered = x.2.unanswered
  answered : y.2.answered = x.2.answered
  process : x.2.process ≤ y.2.process

theorem Stands.refl (x : Machine × ProbeLog) : Stands x x := ⟨rfl, rfl, rfl, rfl, rfl, le_rfl⟩

theorem Stands.trans {x y z : Machine × ProbeLog} (h : Stands x y) (h' : Stands y z) :
    Stands x z :=
  ⟨h'.noCursor2.trans h.noCursor2, h'.cursor2Ok.trans h.cursor2Ok, h'.retried.trans h.retried,
    h'.unanswered.trans h.unanswered, h'.answered.trans h.answered, h.process.trans h'.process⟩

/-- While no answer is awaited the log stands, and none comes to be awaited. -/
def Idles (x y : Machine × ProbeLog) : Prop := x.2.awaited = 0 → Stands x y ∧ y.2.awaited = 0

instance : IsPreorder (Machine × ProbeLog) Idles where
  refl x h := ⟨.refl x, h⟩
  trans _ _ _ h h' h0 := ⟨(h h0).1.trans (h' (h h0).2).1, (h' (h h0).2).2⟩

theorem ProbeLog.note_idle {o : Op} (ho : Unprobing o) {l : ProbeLog} (h : l.awaited = 0)
    (m : Machine) (r : Ans o) : Stands (m, l) (m, l.note o r) ∧ (l.note o r).awaited = 0 := by
  have hsame : Stands (m, l) (m, l) ∧ l.awaited = 0 := ⟨.refl _, h⟩
  have hsent : ∀ bytes n, (HelperCmd.decode bytes).type ≠ cmdGetCursor2 →
      Stands (m, l) (m, l.sent bytes n) ∧ (l.sent bytes n).awaited = 0 := by
    intro bytes n hne
    rw [sent_of_ne hne]
    exact ⟨⟨rfl, rfl, rfl, rfl, rfl, le_rfl⟩, rfl⟩
  cases o with
  | helperSpawn =>
    rcases r with e | p
    · exact hsame
    · exact ⟨⟨rfl, rfl, rfl, rfl, rfl, Nat.le_succ _⟩, h⟩
  | send fd bytes =>
    rcases r with e | n
    · exact hsent bytes 0 ho
    · exact hsent bytes n ho
  | recv fd len =>
    rcases r with e | bytes
    · simpa only [note, ended_of_idle h, ite_self] using hsame
    · simpa only [note, ended_of_idle h, received_of_idle h, ite_self] using hsame
  | _ => exact hsame

theorem idles_tracks : Tracks Unprobing probeEnv Idles where
  beside _ h := h.unprobing
  legal _ _ _ := trivial
  call m l _ r _ ho hs h := hs ▸ l.note_idle ho h m r
  untouched _ _ _ h h0 := ⟨⟨h.noCursor2, h.cursor2Ok, h.cursor2Retried, rfl, rfl, le_rfl⟩, h0⟩

theorem idles_select : Cmd.Follows probeEnv Idles selectFirstActiveCrtc :=
  follows_select idles_tracks fun _ _ _ h => ⟨⟨rfl, rfl, rfl, rfl, rfl, le_rfl⟩, h⟩

theorem idles_plane (m : Machine) (id : UInt32) (l : ProbeLog) :
    Idles (m, l) (⟨m.ctx.setGrabPlane id, m.heap⟩, l) :=
  fun h => ⟨⟨rfl, rfl, rfl, rfl, rfl, le_rfl⟩, h⟩

theorem idles_pixel (m : Machine) (buf : Option Slice) (l : ProbeLog) :
    Idles (m, l) (⟨m.ctx.setPixelBuf buf, m.heap⟩, l) :=
  fun h => ⟨⟨rfl, rfl, rfl, rfl, rfl, le_rfl⟩, h⟩

/-! Commands -/

section Commands
variable {m : Machine} {l : ProbeLog} {fd : ℤ} {type : UInt16} {respawnError : ℤ → ℤ}

/-- What a whole command lets expect. -/
def expected (type : UInt16) : ℕ := if type = cmdGetCursor2 then sizeofCursorWire2 else 0

theorem sent_stands (m : Machine) (l : ProbeLog) (bytes : List UInt8) (n : ℕ) :
    Stands (m, l) (m, l.sent bytes n) := ⟨rfl, rfl, rfl, rfl, rfl, le_rfl⟩

theorem drmtapHelperStop_probe : Cmd.wlp probeEnv drmtapHelperStop (fun _ m' l' =>
    Stands (m, l) (m', l') ∧ l'.process = l.process ∧ m'.ctx.helperFd < 0) m l := by
  have hreap : ∀ m₁ l₁, Stands (m, l) (m₁, l₁) → l₁.process = l.process → m₁.ctx.helperFd < 0 →
      Cmd.wlp probeEnv (if 0 < m.ctx.helperPid then do
          sys .helperReap
          modifyCtx Ctx.withoutHelperPid
        else pure () : M Unit) (fun _ m' l' =>
          Stands (m, l) (m', l') ∧ l'.process = l.process ∧ m'.ctx.helperFd < 0) m₁ l₁ := by
    intro m₁ l₁ hs hp hfd
    simp only [Cmd.wlp_ite, Cmd.wlp_bind, Cmd.wlp_call, Cmd.wlp_pure, wlp_modifyCtx]
    refine ⟨fun _ => ⟨trivial, ?_⟩, fun _ => ⟨hs, hp, hfd⟩⟩
    rintro _ _ rfl
    exact ⟨hs.trans ⟨rfl, rfl, rfl, rfl, rfl, le_rfl⟩, hp, hfd⟩
  unfold drmtapHelperStop hangUp
  rw [Cmd.wlp_bind, wlp_getCtx, Cmd.wlp_bind, Cmd.wlp_ite]
  constructor
  · intro _
    rw [Cmd.wlp_bind, Cmd.wlp_call]
    refine ⟨trivial, ?_⟩
    intro r l₁ hl
    have hs : Stands (m, l) (m, l₁) ∧ l₁.process = l.process := by
      rcases r with e | n
      · exact ⟨hl ▸ sent_stands m l _ 0, hl ▸ rfl⟩
      · exact ⟨hl ▸ sent_stands m l _ n, hl ▸ rfl⟩
    rw [Cmd.wlp_bind, Cmd.wlp_call]
    refine ⟨trivial, ?_⟩
    rintro _ l₁ rfl
    rw [wlp_modifyCtx]
    have hfd : (-1 : ℤ) < 0 := by decide
    exact hreap _ l₁ (hs.1.trans ⟨rfl, rfl, rfl, rfl, rfl, le_rfl⟩) hs.2 hfd
  · intro hneg
    exact hreap m l (.refl _) rfl (not_le.mp hneg)

/-- A helper is spawned where there is none, and counted. -/
theorem drmtapHelperSpawn_probe : Cmd.wlp probeEnv drmtapHelperSpawn (fun r m' l' =>
    Stands (m, l) (m', l') ∧ (m.ctx.helperFd < 0 →
      (r < 0 ∧ l'.process = l.process) ∨ (r = 0 ∧ l'.process = l.process + 1))) m l := by
  unfold drmtapHelperSpawn
  rw [Cmd.wlp_bind, wlp_getCtx, Cmd.wlp_ite]
  constructor
  · intro hle
    exact ⟨.refl _, fun hlt => absurd hle (not_le.mpr hlt)⟩
  · intro _
    rw [Cmd.wlp_bind, Cmd.wlp_call]
    refine ⟨trivial, ?_⟩
    rintro (e | ⟨fd, pid⟩) l' rfl
    · exact ⟨.refl _, fun _ => .inl ⟨e.neg_lt_zero, rfl⟩⟩
    · exact ⟨⟨rfl, rfl, rfl, rfl, rfl, Nat.le_succ _⟩, fun _ => .inr ⟨rfl, rfl⟩⟩

theorem trySend_probe : Cmd.wlp probeEnv (trySend type) (fun sent m' l' =>
    Stands (m, l) (m', l') ∧ (sent = true → l'.awaited = expected type)) m l := by
  unfold trySend
  rw [Cmd.wlp_bind, wlp_getCtx, Cmd.wlp_bind, Cmd.wlp_call]
  refine ⟨trivial, ?_⟩
  rintro (e | n) l' rfl
  · exact ⟨sent_stands m l _ 0, fun h => absurd h (by simp)⟩
  · refine ⟨sent_stands m l _ n, fun h => ?_⟩
    have hn : n = sizeofHelperCmd := of_decide_eq_true h
    have htype : (HelperCmd.decode (wireCmd type m.ctx.crtcId).encode).type = type := by
      rw [decode_wireCmd]
      rfl
    simp only [ProbeLog.note, ProbeLog.sent, htype, hn, and_true, expected]

/-- What a command comes to: an answer is awaited to it, or it failed. -/
def Asked (type : UInt16) (x : Machine × ProbeLog) (r : ℤ) (y : Machine × ProbeLog) : Prop :=
  Stands x y ∧ (0 ≤ r → y.2.awaited = expected type)

theorem resend_probe (hneg : ∀ r, r < 0 → respawnError r < 0) :
    Cmd.wlp probeEnv (resend type respawnError) (fun r m' l' => Asked type (m, l) r (m', l'))
      m l := by
  unfold resend
  rw [Cmd.wlp_bind]
  apply Cmd.wlp_mono drmtapHelperStop_probe
  rintro _ m₁ l₁ ⟨h₁, -, -⟩
  rw [Cmd.wlp_bind]
  apply Cmd.wlp_mono drmtapHelperSpawn_probe
  rintro ret m₂ l₂ ⟨h₂, -⟩
  rw [Cmd.wlp_ite]
  constructor
  · intro hlt
    exact ⟨h₁.trans h₂, fun h => absurd h (not_le.mpr (hneg ret hlt))⟩
  · intro _
    rw [Cmd.wlp_bind]
    apply Cmd.wlp_mono trySend_probe
    rintro sent m₃ l₃ ⟨h₃, hsent⟩
    refine ⟨(h₁.trans h₂).trans h₃, fun h => hsent ?_⟩
    have heio : ¬ (0 : ℤ) ≤ - EIO := by decide
    cases sent with
    | true => rfl
    | false => exact absurd h heio

theorem sendCommand_probe (hneg : ∀ r, r < 0 → respawnError r < 0) :
    Cmd.wlp probeEnv (sendCommand type respawnError)
      (fun r m' l' => Asked type (m, l) r (m', l')) m l := by
  unfold sendCommand sendOrResend
  rw [Cmd.wlp_bind]
  apply Cmd.wlp_mono drmtapHelperSpawn_probe
  rintro ret m₁ l₁ ⟨h₁, -⟩
  rw [Cmd.wlp_ite]
  constructor
  · intro hlt
    exact ⟨h₁, fun h => absurd h (not_le.mpr hlt)⟩
  · intro _
    rw [Cmd.wlp_bind]
    apply Cmd.wlp_mono trySend_probe
    rintro sent m₂ l₂ ⟨h₂, hsent⟩
    rw [Cmd.wlp_ite]
    constructor
    · intro h
      exact ⟨h₁.trans h₂, fun _ => hsent h⟩
    · intro _
      apply Cmd.wlp_mono (resend_probe hneg)
      exact fun r m₃ l₃ h => ⟨(h₁.trans h₂).trans h.1, h.2⟩

end Commands

/-! Answers -/

section Answers
variable {m : Machine} {l : ProbeLog} {fd : ℤ}

/-- The receptions that take bytes of an answer. -/
theorem recv_answer {r : Except Errno (List UInt8)} {l' : ProbeLog} {len : ℕ}
    (hl : l' = l.note (.recv fd len) r) :
    (∀ bytes, r = .ok bytes → bytes ≠ [] → l' = l.received bytes.length) ∧
      ((∀ bytes, r = .ok bytes → bytes = []) →
        (∀ e, r = .error e → e.interrupted = false) → l' = l.ended) ∧
      ∀ e, r = .error e → e.interrupted = true → l' = l := by
  subst hl
  refine ⟨?_, ?_, ?_⟩
  · rintro bytes rfl hne
    exact if_neg hne
  · intro hok herr
    rcases r with e | bytes
    · have he := herr e rfl
      simp [ProbeLog.note, he]
    · exact if_pos (hok bytes rfl)
  · rintro e rfl he
    exact if_pos he

/-- A reception of an answer: it comes whole, or its helper left the probe unanswered. -/
theorem recvProbe (hl : l.awaited = sizeofCursorWire2) :
    Cmd.wlp probeEnv (wireRecvAll fd sizeofCursorWire2) (fun r m' l' => m' = m ∧
      l'.process = l.process ∧ l'.awaited = 0 ∧
        ((r = none ∧ l'.unanswered = l.unanswered ++ [l.process] ∧ l'.answered = l.answered) ∨
          (r ≠ none ∧ l'.unanswered = l.unanswered ∧ l'.answered = true))) m l := by
  have hsize : 0 < sizeofCursorWire2 := by decide
  unfold wireRecvAll
  refine Cmd.wlp_loop (fun got m' l' => m' = m ∧ l'.process = l.process ∧
    l'.unanswered = l.unanswered ∧ l'.awaited = sizeofCursorWire2 - got.length ∧
      (if sizeofCursorWire2 ≤ got.length then l'.answered = true
        else l'.answered = l.answered)) ?_ ?_
  · exact ⟨rfl, rfl, rfl, hl, by simp [hsize.ne']⟩
  · rintro got _ l₁ ⟨rfl, hp, hu, ha, hans⟩
    rw [Cmd.wlp_ite]
    constructor
    · intro hle
      rw [if_pos hle] at hans
      exact ⟨rfl, hp, by omega, .inr ⟨by simp, hu, hans⟩⟩
    · intro hlt
      rw [if_neg hlt] at hans
      have hpos : l₁.awaited ≠ 0 := by omega
      rw [Cmd.wlp_bind, Cmd.wlp_call]
      refine ⟨trivial, ?_⟩
      intro r l₂ hl₂
      obtain ⟨hok, hend, hintr⟩ := recv_answer hl₂
      have hgone : l₂ = l₁.ended → l₂.process = l.process ∧ l₂.awaited = 0 ∧
          l₂.unanswered = l.unanswered ++ [l.process] ∧ l₂.answered = l.answered := by
        rintro rfl
        rw [ProbeLog.ended, if_neg hpos]
        exact ⟨hp, rfl, by rw [hu, hp], hans⟩
      rcases r with e | bytes
      · rw [Cmd.wlp_ite]
        constructor
        · intro he
          rw [hintr e rfl he]
          exact ⟨rfl, hp, hu, ha, by rw [if_neg hlt]; exact hans⟩
        · intro he
          obtain ⟨h₁, h₂, h₃, h₄⟩ := hgone (hend (by simp) (by simpa using he))
          exact ⟨rfl, h₁, h₂, .inl ⟨rfl, h₃, h₄⟩⟩
      · rw [Cmd.wlp_ite]
        constructor
        · intro hnil
          obtain ⟨h₁, h₂, h₃, h₄⟩ := hgone (hend (by simpa using hnil) (by simp))
          exact ⟨rfl, h₁, h₂, .inl ⟨rfl, h₃, h₄⟩⟩
        · intro hne
          rw [hok bytes rfl hne]
          refine ⟨rfl, hp, hu, ?_, ?_⟩
          · simp only [ProbeLog.received, List.length_append]
            omega
          · simp only [ProbeLog.received, List.length_append]
            split_ifs with hle
            · simp only [Bool.or_eq_true, Bool.and_eq_true, decide_eq_true_eq]
              omega
            · have hnot : ¬ l₁.awaited ≤ bytes.length := by omega
              simp [hnot, hans]

end Answers

/-! One call of `drmtap_helper_get_cursor`, from `x` to `y` -/

/-- The one retry of a context is behind it, and nothing was learned from it. -/
def Ctx.Spent (c : Ctx) : Prop :=
  c.helperNoCursor2 = false ∧ c.helperCursor2Ok = false ∧ c.helperCursor2Retried = true

/-- Who answered a probe is remembered. -/
def Heard (y : Machine × ProbeLog) : Prop :=
  y.2.answered = true → y.1.ctx.helperCursor2Ok = true

/-- The latch was set after two probes, the second to a helper of this call. -/
structure LatchedFairly (x y : Machine × ProbeLog) : Prop where
  latched : y.1.ctx.helperNoCursor2 = true
  twice : ∃ p q, y.2.unanswered = [p, q] ∧ p < q ∧ x.2.process < q
  answered : y.2.answered = false

/-- The latch was set after one. -/
structure LatchedEarly (x y : Machine × ProbeLog) : Prop where
  spent : x.1.ctx.Spent
  latched : y.1.ctx.helperNoCursor2 = true
  once : ∃ p, y.2.unanswered = [p] ∧ p < y.2.process

/-- What a context is like at the start of an activation. -/
inductive Probing (x y : Machine × ProbeLog) : Prop where
  | untried (hs : Stands x y) (hu : y.2.unanswered = [])
  | retried (hx : x.1.ctx.helperNoCursor2 = false) (hr : x.1.ctx.helperCursor2Retried = false)
      (hy : y.1.ctx.helperNoCursor2 = false) (hr' : y.1.ctx.helperCursor2Retried = true)
      (p : ℕ) (hu : y.2.unanswered = [p]) (hp : p < y.2.process) (hq : x.2.process < y.2.process)
  | fairly (hr : x.1.ctx.helperCursor2Retried = false) (h : LatchedFairly x y)
  | early (h : LatchedEarly x y)

/-- After a probe that was left unanswered. -/
inductive Missed (x y : Machine × ProbeLog) : Prop where
  | first (hx : x.1.ctx.helperNoCursor2 = false)
      (hok : y.1.ctx.helperCursor2Ok = x.1.ctx.helperCursor2Ok)
      (hr : y.1.ctx.helperCursor2Retried = x.1.ctx.helperCursor2Retried)
      (hu : y.2.unanswered = [y.2.process]) (hq : x.2.process ≤ y.2.process)
  | second (hx : x.1.ctx.helperNoCursor2 = false) (hr : x.1.ctx.helperCursor2Retried = false)
      (hr' : y.1.ctx.helperCursor2Retried = true) (p : ℕ)
      (hu : y.2.unanswered = [p, y.2.process]) (hp : p < y.2.process)
      (hq : x.2.process < y.2.process)

/-- What a call comes to. -/
inductive Concluded (x y : Machine × ProbeLog) : Prop where
  | unlatched (h : y.1.ctx.helperNoCursor2 = x.1.ctx.helperNoCursor2)
      (hs : x.1.ctx.Spent → ∀ p ∈ y.2.unanswered, y.2.process ≤ p)
  | fairly (hr : x.1.ctx.helperCursor2Retried = false) (h : LatchedFairly x y)
  | early (h : LatchedEarly x y)

/-- No probe of the call is left to decide anything. -/
inductive Decided (x y : Machine × ProbeLog) : Prop where
  | unlatched (h : y.1.ctx.helperNoCursor2 = x.1.ctx.helperNoCursor2)
      (hs : x.1.ctx.Spent → y.2.unanswered = [])
  | fairly (hr : x.1.ctx.helperCursor2Retried = false) (h : LatchedFairly x y)
  | early (h : LatchedEarly x y)

section Phases
variable {x y z : Machine × ProbeLog}

theorem Heard.stands (h : Heard y) (hs : Stands y z) : Heard z := by
  intro ha
  rw [hs.cursor2Ok]
  exact h (hs.answered.symm.trans ha)

theorem LatchedFairly.stands (h : LatchedFairly x y) (hs : Stands y z) : LatchedFairly x z :=
  ⟨hs.noCursor2.trans h.latched, hs.unanswered.symm ▸ h.twice, hs.answered.trans h.answered⟩

theorem LatchedEarly.stands (h : LatchedEarly x y) (hs : Stands y z) : LatchedEarly x z := by
  obtain ⟨p, hu, hp⟩ := h.once
  exact ⟨h.spent, hs.noCursor2.trans h.latched, p, hs.unanswered.trans hu, hp.trans_le hs.process⟩

theorem Probing.stands (h : Probing x y) (hs : Stands y z) : Probing x z := by
  cases h with
  | untried h hu => exact .untried (h.trans hs) (hs.unanswered.trans hu)
  | retried hx hr hy hr' p hu hp hq =>
    exact .retried hx hr (hs.noCursor2.trans hy) (hs.retried.trans hr') p (hs.unanswered.trans hu)
      (hp.trans_le hs.process) (hq.trans_le hs.process)
  | fairly hr h => exact .fairly hr (h.stands hs)
  | early h => exact .early (h.stands hs)

theorem Decided.stands (h : Decided x y) (hs : Stands y z) : Decided x z := by
  cases h with
  | unlatched h hu =>
    exact .unlatched (hs.noCursor2.trans h) fun hspent => hs.unanswered.trans (hu hspent)
  | fairly hr h => exact .fairly hr (h.stands hs)
  | early h => exact .early (h.stands hs)

theorem Decided.concluded (h : Decided x y) : Concluded x y := by
  cases h with
  | unlatched h hu =>
    refine .unlatched h fun hspent p hp => ?_
    rw [hu hspent] at hp
    exact absurd hp List.not_mem_nil
  | fairly hr h => exact .fairly hr h
  | early h => exact .early h

/-- A call may end anywhere between its probes. -/
theorem Probing.decided (h : Probing x y) : Decided x y := by
  cases h with
  | untried h hu => exact .unlatched h.noCursor2 fun _ => hu
  | retried hx hr hy =>
    refine .unlatched (hy.trans hx.symm) fun hs => ?_
    rw [hs.2.2] at hr
    cases hr
  | fairly hr h => exact .fairly hr h
  | early h => exact .early h

/-- So it is settled by an answer. -/
theorem Probing.answered {m : Machine} {l l' : ProbeLog} (h : Probing x (m, l))
    (hno : m.ctx.helperNoCursor2 = false) (hu : l'.unanswered = l.unanswered) :
    Decided x (m, l') := by
  cases h.decided with
  | unlatched h hu' => exact .unlatched h fun hspent => hu.trans (hu' hspent)
  | fairly hr h =>
    have hlatched := h.latched
    rw [hno] at hlatched
    cases hlatched
  | early h =>
    have hlatched := h.latched
    rw [hno] at hlatched
    cases hlatched

/-- And an activation ends with one probe more if there is none. -/
theorem Probing.missed {m : Machine} {l l' : ProbeLog} (h : Probing x (m, l))
    (hno : m.ctx.helperNoCursor2 = false) (hu : l'.unanswered = l.unanswered ++ [l.process])
    (hp : l'.process = l.process) : Missed x (m, l') := by
  cases h with
  | untried h hnil =>
    have hnil : l.unanswered = [] := hnil
    refine .first (h.noCursor2.symm.trans hno) h.cursor2Ok h.retried ?_ (hp ▸ h.process)
    rw [hu, hp, hnil, List.nil_append]
  | retried hx hr hy hr' p hu' hlt hq =>
    have hu' : l.unanswered = [p] := hu'
    refine .second hx hr hr' p ?_ (hp ▸ hlt) (hp ▸ hq)
    rw [hu, hp, hu', List.singleton_append]
  | fairly hr h =>
    have hlatched := h.latched
    rw [hno] at hlatched
    cases hlatched
  | early h =>
    have hlatched := h.latched
    rw [hno] at hlatched
    cases hlatched

theorem Missed.unlatched (h : Missed x y) (hy : y.1.ctx.helperNoCursor2 = false)
    (hs : Stands y z) (hp : z.2.process = y.2.process) : Concluded x z := by
  cases h with
  | first hx hok hr hu hq =>
    refine .unlatched (hs.noCursor2.trans (hy.trans hx.symm)) fun _ p hmem => ?_
    rw [hs.unanswered, hu, List.mem_singleton] at hmem
    rw [hp, hmem]
  | second hx hr =>
    refine .unlatched (hs.noCursor2.trans (hy.trans hx.symm)) fun hspent => ?_
    rw [hspent.2.2] at hr
    cases hr

/-- What the flags become once the helper was replaced. -/
theorem Missed.noted {m : Machine} {l : ProbeLog} (h : Missed x y) (hheard : Heard y)
    (hy : y.1.ctx.helperNoCursor2 = false) (hok : y.1.ctx.helperCursor2Ok = false)
    (hs : Stands y (m, l)) (hp : l.process = y.2.process + 1) :
    Probing x (⟨m.ctx.noteNoAnswer, m.heap⟩, l) := by
  have hans : l.answered = false := by
    rw [hs.answered]
    by_contra hne
    rw [hheard (by simpa using hne)] at hok
    cases hok
  have hno : m.ctx.helperNoCursor2 = false := hs.noCursor2.trans hy
  cases h with
  | first hx hok' hr hu hq =>
    have hu' : l.unanswered = [y.2.process] := hs.unanswered.trans hu
    have hlt : y.2.process < l.process := by omega
    by_cases hret : m.ctx.helperCursor2Retried = true
    · rw [Ctx.noteNoAnswer, if_pos hret]
      have hspent : x.1.ctx.Spent :=
        ⟨hx, hok'.symm.trans hok, hr.symm.trans (hs.retried.symm.trans hret)⟩
      exact .early ⟨hspent, rfl, _, hu', hlt⟩
    · rw [Ctx.noteNoAnswer, if_neg hret]
      have hfalse : x.1.ctx.helperCursor2Retried = false := by
        rw [← hr, ← hs.retried]
        simpa using hret
      exact .retried hx hfalse hno rfl _ hu' hlt (hq.trans_lt hlt)
  | second hx hr hr' p hu hp' hq =>
    have hret : m.ctx.helperCursor2Retried = true := hs.retried.trans hr'
    rw [Ctx.noteNoAnswer, if_pos hret]
    exact .fairly hr ⟨rfl, ⟨p, _, hs.unanswered.trans hu, hp', hq⟩, hans⟩

theorem noteNoAnswer_heard {m : Machine} {l : ProbeLog} (h : Heard (m, l)) :
    Heard (⟨m.ctx.noteNoAnswer, m.heap⟩, l) := by
  intro ha
  have hok : m.ctx.noteNoAnswer.helperCursor2Ok = m.ctx.helperCursor2Ok := by
    unfold Ctx.noteNoAnswer
    split <;> rfl
  rw [hok]
  exact h ha

end Phases

section Activation
variable {x : Machine × ProbeLog} {m : Machine} {l : ProbeLog} {fd : ℤ}

/-- Where an activation leads: to another one, or out of the call. -/
def Leads {α : Type} (x : Machine × ProbeLog) (r : Unit ⊕ α) (y : Machine × ProbeLog) : Prop :=
  Heard y ∧ match r with
    | .inl () => Probing x y
    | .inr _ => Concluded x y

theorem cursorUnanswered_probe (h : Missed x (m, l)) (hheard : Heard (m, l))
    (hno : m.ctx.helperNoCursor2 = false) :
    Cmd.wlp probeEnv (cursorUnanswered true) (fun r m' l' => Leads x r (m', l')) m l := by
  unfold cursorUnanswered
  rw [Cmd.wlp_bind, wlp_getCtx, Cmd.wlp_ite]
  constructor
  · rintro ⟨-, hok⟩
    have hok : m.ctx.helperCursor2Ok = false := by simpa using hok
    rw [Cmd.wlp_bind]
    apply Cmd.wlp_mono drmtapHelperStop_probe
    rintro _ m₁ l₁ ⟨h₁, hp₁, hfd⟩
    rw [Cmd.wlp_bind]
    apply Cmd.wlp_mono drmtapHelperSpawn_probe
    rintro ret m₂ l₂ ⟨h₂, hspawn⟩
    have hs : Stands (m, l) (m₂, l₂) := h₁.trans h₂
    rw [Cmd.wlp_ite]
    rcases hspawn hfd with ⟨hlt, hp₂⟩ | ⟨rfl, hp₂⟩
    · exact ⟨fun _ => ⟨hheard.stands hs, h.unlatched hno hs (hp₂.trans hp₁)⟩, fun hge => absurd hlt hge⟩
    · refine ⟨fun hlt => absurd hlt (lt_irrefl 0), fun _ => ?_⟩
      rw [Cmd.wlp_bind, wlp_modifyCtx]
      have hp : l₂.process = l.process + 1 := by rw [hp₂, hp₁]
      exact ⟨noteNoAnswer_heard (hheard.stands hs), h.noted hheard hno hok hs hp⟩
  · intro _
    exact ⟨hheard, h.unlatched hno (.refl _) rfl⟩

/-- The rest of a reply whose head was received. -/
theorem receiveCursor_probe {extended : Bool} {w : CursorWire} (hl : l.awaited = 0)
    (hs : Decided x (m, l)) (hheard : extended = true ∨ Heard (m, l)) :
    Cmd.wlp probeEnv (receiveCursor fd extended w) (fun _ m' l' =>
      Heard (m', l') ∧ Decided x (m', l')) m l := by
  have hno : (m.ctx.knowsCursor2 extended).helperNoCursor2 = m.ctx.helperNoCursor2 := by
    unfold Ctx.knowsCursor2
    split <;> rfl
  have hs₁ : Decided x (⟨m.ctx.knowsCursor2 extended, m.heap⟩, l) := by
    cases hs with
    | unlatched h hu => exact .unlatched (hno.trans h) hu
    | fairly hr h => exact .fairly hr ⟨hno.trans h.latched, h.twice, h.answered⟩
    | early h => exact .early ⟨h.spent, hno.trans h.latched, h.once⟩
  have hheard₁ : Heard (⟨m.ctx.knowsCursor2 extended, m.heap⟩, l) := by
    intro ha
    rcases Bool.eq_false_or_eq_true extended with he | he
    · rw [he]
      rfl
    · rw [he]
      exact (hheard.resolve_left (by simp [he])) ha
  unfold receiveCursor
  rw [Cmd.wlp_bind, wlp_modifyCtx, Cmd.wlp_ite]
  refine ⟨fun _ => ?_, fun _ => ⟨hheard₁, hs₁⟩⟩
  apply Cmd.wlp_mono (follows_receiveCursorPixels idles_tracks _ _ _ _ l)
  intro r m' l' h
  exact ⟨hheard₁.stands (h hl).1, hs₁.stands (h hl).1⟩

theorem getCursorOnce_probe (h : Probing x (m, l)) (hheard : Heard (m, l)) :
    Cmd.wlp probeEnv getCursorOnce (fun r m' l' => Leads x r (m', l')) m l := by
  have hneg : (- EIO : ℤ) < 0 := by decide
  have heio : ∀ r : ℤ, r < 0 → (fun _ => - EIO) r < 0 := fun _ _ => hneg
  unfold getCursorOnce
  rw [Cmd.wlp_bind, wlp_getCtx, Cmd.wlp_bind]
  apply Cmd.wlp_mono (sendCommand_probe heio)
  rintro ret m₁ l₁ ⟨hs₁, hawait⟩
  have h₁ := h.stands hs₁
  have hheard₁ := hheard.stands hs₁
  have hno₁ : m₁.ctx.helperNoCursor2 = m.ctx.helperNoCursor2 := hs₁.noCursor2
  rw [Cmd.wlp_ite]
  refine ⟨fun _ => ⟨hheard₁, h₁.decided.concluded⟩, fun hge => ?_⟩
  have hawait := hawait (not_lt.mp hge)
  rw [Cmd.wlp_bind, wlp_getCtx, Cmd.wlp_bind]
  cases hno : m.ctx.helperNoCursor2 with
  | false =>
    -- a probe
    rw [hno] at hawait hno₁
    apply Cmd.wlp_mono (recvProbe hawait)
    rintro r m₂ l₂ ⟨rfl, hp, hidle, ⟨rfl, hu, hans⟩ | ⟨hsome, hu, hans⟩⟩
    · have hheard₂ : Heard (m₂, l₂) := fun ha => hheard₁ (hans.symm.trans ha)
      exact cursorUnanswered_probe (h₁.missed hno₁ hu hp) hheard₂ hno₁
    · obtain ⟨bytes, rfl⟩ := Option.ne_none_iff_exists'.mp hsome
      rw [Cmd.wlp_bind]
      apply Cmd.wlp_mono (receiveCursor_probe hidle (h₁.answered hno₁ hu) (.inl rfl))
      exact fun _ _ _ h => ⟨h.1, h.2.concluded⟩
  | true =>
    rw [hno] at hawait hno₁
    have hidle : l₁.awaited = 0 := hawait
    apply Cmd.wlp_mono (follows_wireRecvAll idles_tracks _ _ m₁ l₁)
    intro r m₂ l₂ hi
    obtain ⟨hs₂, hidle₂⟩ := hi hidle
    have hset := h₁.decided.stands hs₂
    cases r with
    | none => exact ⟨hheard₁.stands hs₂, hset.concluded⟩
    | some bytes =>
      rw [Cmd.wlp_bind]
      apply Cmd.wlp_mono (receiveCursor_probe hidle₂ hset (.inr (hheard₁.stands hs₂)))
      exact fun _ _ _ h => ⟨h.1, h.2.concluded⟩

/-- By induction on the activations. -/
theorem drmtapHelperGetCursor_probe (hu : l.unanswered = []) (hheard : Heard (m, l)) :
    Cmd.wlp probeEnv drmtapHelperGetCursor (fun _ m' l' =>
      Heard (m', l') ∧ Concluded (m, l) (m', l')) m l := by
  refine Cmd.wlp_loop (fun _ m' l' => Heard (m', l') ∧ Probing (m, l) (m', l')) ?_ ?_
  · exact ⟨hheard, .untried (.refl _) hu⟩
  · rintro _ m₁ l₁ ⟨hheard₁, h₁⟩
    apply Cmd.wlp_mono (getCursorOnce_probe h₁ hheard₁)
    rintro (_ | r) m₂ l₂ h₂
    · exact h₂
    · exact h₂

end Activation

/-! Runs -/

/-- The calls that go through the helper, and the releases of what they hand out. -/
inductive HelperCall where
  | getCursor
  | grab (entry : GrabEntry) (frame : FrameInfo)
  | releaseCursor (cursor : CursorInfo)
  | releaseFrame (frame : FrameInfo)

def HelperCall.run : HelperCall → M Unit
  | .getCursor => do
    let _ ← drmtapGetCursor
    pure ()
  | .grab entry frame => do
    let _ ← entry.run frame
    pure ()
  | .releaseCursor cursor => do
    let _ ← drmtapCursorRelease cursor
    pure ()
  | .releaseFrame frame => do
    let _ ← drmtapFrameRelease frame
    pure ()

/-- One call on a context; the log is of this call, but for what it has of the context's life. -/
def LatchStep (x y : Machine × ProbeLog) : Prop :=
  ∃ call : HelperCall, Cmd.Runs probeEnv call.run x.1 x.2.nextCall () y.1 y.2

/-- A latch that is set by a call follows two probes of that call which two helpers left
unanswered, the second of them spawned by the call; none was ever answered. -/
def LatchDeserved (x y : Machine × ProbeLog) : Prop :=
  x.1.ctx.helperNoCursor2 = false → y.1.ctx.helperNoCursor2 = true →
    (∃ p q, y.2.unanswered = [p, q] ∧ p ≠ q ∧ x.2.process < q) ∧ y.2.answered = false

/-- A call that starts with the retry spent leaves no probe unanswered, or cannot spawn a helper
after the one that did. -/
def SpentWell (x y : Machine × ProbeLog) : Prop :=
  x.1.ctx.Spent → ∀ p ∈ y.2.unanswered, y.2.process ≤ p

section Runs
variable {x y : Machine × ProbeLog} {m : Machine} {l : ProbeLog}

theorem Concluded.of_stands {z : Machine × ProbeLog} (hs : Stands x y) (h : Concluded y z) :
    Concluded x z := by
  have hspent : x.1.ctx.Spent ↔ y.1.ctx.Spent := by
    rw [Ctx.Spent, Ctx.Spent, hs.noCursor2, hs.cursor2Ok, hs.retried]
  cases h with
  | unlatched h hu => exact .unlatched (h.trans hs.noCursor2) fun hx => hu (hspent.mp hx)
  | fairly hr h =>
    obtain ⟨p, q, hu, hpq, hq⟩ := h.twice
    exact .fairly (hs.retried.symm.trans hr)
      ⟨h.latched, ⟨p, q, hu, hpq, hs.process.trans_lt hq⟩, h.answered⟩
  | early h => exact .early ⟨hspent.mpr h.spent, h.latched, h.once⟩

theorem Concluded.stood (hs : Stands x y) (hu : x.2.unanswered = []) : Concluded x y :=
  .unlatched hs.noCursor2 fun _ p hp => by simp [hs.unanswered, hu] at hp

theorem drmtapGetCursor_probe (ha : l.awaited = 0) (hu : l.unanswered = []) (hheard : Heard (m, l)) :
    Cmd.wlp probeEnv drmtapGetCursor (fun _ m' l' =>
      Heard (m', l') ∧ Concluded (m, l) (m', l')) m l := by
  unfold drmtapGetCursor
  rw [Cmd.wlp_bind, wlp_getCtx, Cmd.wlp_ite]
  refine ⟨fun _ => drmtapHelperGetCursor_probe hu hheard, fun _ => ?_⟩
  apply wlp_getCursorDirect idles_tracks
  · intro r m₁ l₁ hi
    exact ⟨hheard.stands (hi ha).1, .stood (hi ha).1 hu⟩
  · intro m₁ l₁ hi
    have hs : Stands (m, l) (m₁, l₁) := (hi ha).1
    apply Cmd.wlp_mono (drmtapHelperGetCursor_probe (hs.unanswered.trans hu) (hheard.stands hs))
    exact fun r m₂ l₂ h => ⟨h.1, h.2.of_stands hs⟩

theorem HelperCall.run_probe (ha : l.awaited = 0) (hu : l.unanswered = []) (hheard : Heard (m, l))
    (call : HelperCall) : Cmd.wlp probeEnv call.run (fun _ m' l' =>
      Heard (m', l') ∧ Concluded (m, l) (m', l')) m l := by
  have hidles : ∀ {α : Type} {c : M α}, Cmd.Follows probeEnv Idles c →
      Cmd.wlp probeEnv (c >>= fun _ => pure ()) (fun _ m' l' =>
        Heard (m', l') ∧ Concluded (m, l) (m', l')) m l := by
    intro α c hc
    rw [Cmd.wlp_bind]
    apply Cmd.wlp_mono (hc m l)
    exact fun _ m' l' hi => ⟨hheard.stands (hi ha).1, .stood (hi ha).1 hu⟩
  cases call with
  | getCursor =>
    unfold HelperCall.run
    rw [Cmd.wlp_bind]
    exact drmtapGetCursor_probe ha hu hheard
  | grab entry frame =>
    exact hidles (follows_grabEntry idles_tracks idles_select idles_pixel idles_plane entry frame)
  | releaseCursor cursor => exact hidles (follows_cursorRelease idles_tracks cursor)
  | releaseFrame frame => exact hidles (follows_frameRelease idles_tracks frame)

theorem LatchStep.concluded (hx : Heard x) (h : LatchStep x y) :
    Heard y ∧ Concluded (x.1, x.2.nextCall) y := by
  obtain ⟨call, hrun⟩ := h
  have hheard : Heard (x.1, x.2.nextCall) := hx
  exact Cmd.wlp_runs (call.run_probe rfl rfl hheard) hrun

theorem heard_start (m : Machine) : Heard (m, .start) := by
  intro ha
  cases ha

theorem heard_of_run (h : Relation.ReflTransGen LatchStep (m, .start) x) : Heard x := by
  induction h with
  | refl => exact heard_start m
  | tail _ hstep ih => exact (hstep.concluded ih).1

theorem Concluded.deserved_iff (h : Concluded (x.1, x.2.nextCall) y) :
    LatchDeserved x y ↔ SpentWell x y := by
  cases h with
  | unlatched h hs =>
    refine iff_of_true (fun hx hy => ?_) hs
    rw [h, show x.1.ctx.helperNoCursor2 = false from hx] at hy
    cases hy
  | fairly hr h =>
    refine iff_of_true (fun _ _ => ?_) fun hspent => ?_
    · obtain ⟨p, q, hu, hpq, hq⟩ := h.twice
      exact ⟨⟨p, q, hu, hpq.ne, hq⟩, h.answered⟩
    · have htrue : x.1.ctx.helperCursor2Retried = true := hspent.2.2
      rw [show x.1.ctx.helperCursor2Retried = false from hr] at htrue
      cases htrue
  | early h =>
    obtain ⟨p, hu, hp⟩ := h.once
    refine iff_of_false (fun hd => ?_) fun hs => ?_
    · obtain ⟨⟨p', q', hu', -⟩, -⟩ := hd h.spent.1 h.latched
      rw [hu] at hu'
      cases hu'
    · exact absurd (hs h.spent p (by simp [hu])) (not_le.mpr hp)

/-- Where no call leaves two probes unanswered, a fair latch stays as it was. -/
theorem Concluded.unlatched_of_once (h : Concluded (x.1, x.2.nextCall) y) (hw : SpentWell x y)
    (hu : y.2.unanswered.length ≤ 1) :
    y.1.ctx.helperNoCursor2 = x.1.ctx.helperNoCursor2 := by
  cases h with
  | unlatched h => exact h
  | fairly hr h =>
    obtain ⟨p, q, hpq, -⟩ := h.twice
    rw [hpq] at hu
    exact absurd hu (by simp)
  | early h =>
    obtain ⟨p, hp, hlt⟩ := h.once
    exact absurd (hw h.spent p (by simp [hp])) (not_le.mpr hlt)

end Runs

/-- In every run the calls that set the latch deserve it, but for those that start with the retry
spent, see one probe unanswered and spawn another helper. So a helper that dies once costs a
context nothing in a run without such calls. -/
theorem cursor_latch_iff {m : Machine} {x y : Machine × ProbeLog}
    (hrun : Relation.ReflTransGen LatchStep (m, .start) x) (hstep : LatchStep x y) :
    (LatchDeserved x y ↔ SpentWell x y) ∧
      ∀ z, Relation.ReflTransGen (fun x y => LatchStep x y ∧ SpentWell x y ∧
          y.2.unanswered.length ≤ 1) (m, .start) z →
        z.1.ctx.helperNoCursor2 = m.ctx.helperNoCursor2 := by
  refine ⟨(hstep.concluded (heard_of_run hrun)).2.deserved_iff, fun z hz => ?_⟩
  have hall : Heard z ∧ z.1.ctx.helperNoCursor2 = m.ctx.helperNoCursor2 := by
    induction hz with
    | refl => exact ⟨heard_start m, rfl⟩
    | tail _ hstep ih =>
      obtain ⟨hs, hw, hu⟩ := hstep
      obtain ⟨hheard, hc⟩ := hs.concluded ih.1
      exact ⟨hheard, (hc.unlatched_of_once hw hu).trans ih.2⟩
  exact hall.2

/-! A helper that does not answer, twice, many calls apart. -/

/-- No command after the first one is taken by the second helper, and no third one can be had in
that call. Later ones can, and none answers. -/
def silentHelpers (l : ProbeLog) : Device
  | .getPlaneResources => .ok [1]
  | .getPlane _ => some ⟨1, 5, 3⟩
  | .objectGetProperties _ _ => some [(0, drmPlaneTypeCursor)]
  | .getProperty _ => some "type"
  | .getFB2 _ => .error ⟨13, by decide⟩
  | .helperSpawn => if l.process = 2 ∧ l.unanswered ≠ [] then .error ⟨11, by decide⟩ else .ok (5, 6)
  | .send _ bytes => if l.process = 2 then .error ⟨32, by decide⟩ else .ok bytes.length
  | o => Device.blank o

/-- They answer, and the log is kept. -/
def silentRun (l : ProbeLog) (o : Op) : Option (Ans o × ProbeLog) :=
  some (silentHelpers l o, l.note o (silentHelpers l o))

theorem silentHelpers_latch :
    (HelperCall.getCursor.run.exec 10 silentRun ⟨.opened "i915" 5, .empty⟩
      ProbeLog.start.nextCall).bind (fun x =>
        (HelperCall.getCursor.run.exec 10 silentRun x.1.2 x.2.nextCall).map fun y =>
          (x.1.2.ctx.helperNoCursor2, y.1.2.ctx.helperNoCursor2, y.2.unanswered)) =
      some (false, true, [3]) := by
  decide +kernel

theorem silentRun_step {call : HelperCall} {m m' : Machine} {l l' : ProbeLog}
    (h : call.run.exec 10 silentRun m l.nextCall = some (((), m'), l')) :
    LatchStep (m, l) (m', l') := by
  refine ⟨call, Cmd.exec_runs (E := probeEnv) ?_ h⟩
  intro s o r s' hs
  obtain ⟨rfl, rfl⟩ := Prod.mk.inj (Option.some.inj hs)
  rfl

theorem silentHelpers_steps : ∃ x y, LatchStep (⟨.opened "i915" 5, .empty⟩, .start) x ∧
    LatchStep x y ∧ x.1.ctx.helperNoCursor2 = false ∧ y.1.ctx.helperNoCursor2 = true ∧
      y.2.unanswered = [3] := by
  obtain ⟨⟨⟨_, m₁⟩, l₁⟩, h₁, hrest⟩ := Option.bind_eq_some_iff.mp silentHelpers_latch
  obtain ⟨⟨⟨_, m₂⟩, l₂⟩, h₂, heq⟩ := Option.map_eq_some_iff.mp hrest
  obtain ⟨hno, hno', hu⟩ : m₁.ctx.helperNoCursor2 = false ∧ m₂.ctx.helperNoCursor2 = true ∧
      l₂.unanswered = [3] := by simpa using heq
  exact ⟨(m₁, l₁), (m₂, l₂), silentRun_step h₁, silentRun_step h₂, hno, hno', hu⟩

/-- The second call is the one that sets the latch. -/
theorem cursor_latch_iff_silent : ∃ x y, LatchStep (⟨.opened "i915" 5, .empty⟩, .start) x ∧
    LatchStep x y ∧ x.1.ctx.helperNoCursor2 = false ∧ y.1.ctx.helperNoCursor2 = true ∧
      (LatchDeserved x y ↔ SpentWell x y) := by
  obtain ⟨x, y, hx, hy, hno, hno', -⟩ := silentHelpers_steps
  exact ⟨x, y, hx, hy, hno, hno', (cursor_latch_iff (.single hx) hy).1⟩

/-- And it does so after one probe. -/
theorem cursor_latch_early : ¬ ∀ x y,
    Relation.ReflTransGen LatchStep (⟨.opened "i915" 5, .empty⟩, .start) x → LatchStep x y →
      LatchDeserved x y := by
  intro h
  obtain ⟨x, y, hx, hy, hno, hno', hu⟩ := silentHelpers_steps
  obtain ⟨⟨p, q, hpq, -⟩, -⟩ := h x y (.single hx) hy hno hno'
  rw [hu] at hpq
  cases hpq

end Drmtap
