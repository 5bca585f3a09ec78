import Drmtap.Lib.Program

/-! The choice of a card: `open_drm_auto` of drmtap.c takes the card that drives the most displays,
and of all the descriptors it opens it keeps that of the card alone. -/
namespace Drmtap

open Effect

/-- `drmModeCrtc`, the part that the scan reads. -/
structure ScanCrtc where
  modeValid : Bool
  bufferId : UInt32

inductive CardOp where
  | getuid
  | geteuid
  | secureGetenv (name : String)
  | openNode (path : String)
  | close (fd : ℤ)
  | getResources (fd : ℤ)
  | getCrtc (fd : ℤ) (id : UInt32)

abbrev CardAns : CardOp → Type
  | .getuid | .geteuid => ℕ
  | .secureGetenv _ => Option String
  | .openNode _ => ℤ
  | .close _ => Unit
  | .getResources _ => Option (List UInt32)
  | .getCrtc _ _ => Option ScanCrtc

/-- The part of `struct drmtap_ctx` that the scan sets. -/
structure OpenCtx where
  devicePath : String

abbrev CardM := Cmd OpenCtx CardOp CardAns

def os (o : CardOp) : CardM (CardAns o) := Cmd.call o

/-- `snprintf` into the 256 bytes of `device_path` -/
def setDevicePath (path : String) : CardM Unit :=
  modify fun _ => ⟨String.ofList (path.toList.take 255)⟩

def cardPath (i : ℕ) : String := "/dev/dri/card" ++ toString i

/-- DRM_DEVICE, for an unprivileged process only. -/
def drmDeviceEnv : CardM (Option String) := do
  let uid ← os .getuid
  if uid = 0 then pure none
  else do
    let euid ← os .geteuid
    if euid = 0 then pure none else os (.secureGetenv "DRM_DEVICE")

/-- The two running candidates of the scan; a descriptor is negative where there is none. -/
structure Candidates where
  fallbackFd : ℤ
  fallbackPath : String
  bestFd : ℤ
  bestActive : ℕ
  bestPath : String

def Candidates.start : Candidates := ⟨-1, "", -1, 0, ""⟩

/-- A CRTC drives a display. -/
def ScanCrtc.Active (crtc : ScanCrtc) : Prop := crtc.modeValid = true ∧ 0 < crtc.bufferId

instance (crtc : ScanCrtc) : Decidable crtc.Active := inferInstanceAs (Decidable (_ ∧ _))

def countActive (fd : ℤ) : List UInt32 → ℕ → CardM ℕ
  | [], active => pure active
  | id :: ids, active => do
    match ← os (.getCrtc fd id) with
    | some crtc => countActive fd ids (if crtc.Active then active + 1 else active)
    | none => countActive fd ids active

/-- A card that drives displays: the best so far, or closed. -/
def offerBest (c : Candidates) (fd : ℤ) (path : String) (active : ℕ) : CardM Candidates :=
  if c.bestActive < active then
    if 0 ≤ c.bestFd then do
      os (.close c.bestFd)
      pure { c with bestFd := fd, bestActive := active, bestPath := path }
    else pure { c with bestFd := fd, bestActive := active, bestPath := path }
  else do
    os (.close fd)
    pure c

/-- A card that drives none: the first one is kept. -/
def offerFallback (c : Candidates) (fd : ℤ) (path : String) : CardM Candidates :=
  if c.fallbackFd < 0 then pure { c with fallbackFd := fd, fallbackPath := path }
  else do
    os (.close fd)
    pure c

def probeCard (i : ℕ) (c : Candidates) : CardM Candidates := do
  let fd ← os (.openNode (cardPath i))
  if fd < 0 then pure c
  else
    match ← os (.getResources fd) with
    | none => do
      os (.close fd)
      pure c
    | some crtcs => do
      let active ← countActive fd crtcs 0
      if 0 < active then offerBest c fd (cardPath i) active else offerFallback c fd (cardPath i)

def scanCards : List ℕ → Candidates → CardM Candidates
  | [], c => pure c
  | i :: rest, c => do
    let c ← probeCard i c
    scanCards rest c

def chooseCard (c : Candidates) : CardM ℤ :=
  if 0 ≤ c.bestFd then
    if 0 ≤ c.fallbackFd then do
      os (.close c.fallbackFd)
      setDevicePath c.bestPath
      pure c.bestFd
    else do
      setDevicePath c.bestPath
      pure c.bestFd
  else if 0 ≤ c.fallbackFd then do
    setDevicePath c.fallbackPath
    pure c.fallbackFd
  else pure (-1)

def autoScan : CardM ℤ := do
  let c ← scanCards (List.range 16) .start
  chooseCard c

def openDrmAuto : CardM ℤ := do
  match ← drmDeviceEnv with
  | none => autoScan
  | some path => do
    let fd ← os (.openNode path)
    if 0 ≤ fd then do
      setDevicePath path
      pure fd
    else autoScan

/-! The machine it runs on -/

/-- What a node that can be opened gives. -/
structure Card where
  resources : Option (List UInt32)
  crtc : UInt32 → Option ScanCrtc

structure CardHost where
  uid : ℕ
  euid : ℕ
  drmDevice : Option String
  /-- the nodes that can be opened -/
  node : String → Option Card

/-- The open descriptors of the process, with the paths they were opened by. -/
abbrev FdTable := ℤ → Option String

namespace CardHost
variable (host : CardHost)

/-- The card behind a descriptor. -/
def behind (t : FdTable) (fd : ℤ) : Option Card := (t fd).bind host.node

/-- A descriptor is new when it is opened, and only an open one may be used or closed. -/
abbrev env : Env CardOp CardAns where
  State := FdTable
  legal t
    | .close fd | .getResources fd | .getCrtc fd _ => (t fd).isSome
    | _ => True
  step t
    | .getuid, r, t' => r = host.uid ∧ t' = t
    | .geteuid, r, t' => r = host.euid ∧ t' = t
    | .secureGetenv _, r, t' => r = host.drmDevice ∧ t' = t
    | .openNode path, fd, t' => match host.node path with
      | none => fd < 0 ∧ t' = t
      | some _ => 0 ≤ fd ∧ t fd = none ∧ t' = Function.update t fd (some path)
    | .close fd, _, t' => t' = Function.update t fd none
    | .getResources fd, r, t' => r = (host.behind t fd).bind Card.resources ∧ t' = t
    | .getCrtc fd id, r, t' => r = (host.behind t fd).bind (·.crtc id) ∧ t' = t

/-- The environment names a device that can be opened. -/
def Overridden : Prop :=
  host.uid ≠ 0 ∧ host.euid ≠ 0 ∧ ∃ path, host.drmDevice = some path ∧ (host.node path).isSome

/-- The CRTCs of a card with KMS resources. -/
def crtcs (i : ℕ) : Option (List UInt32) := (host.node (cardPath i)).bind Card.resources

/-- A card can be opened and has KMS resources. -/
def Kms (i : ℕ) : Prop := (host.crtcs i).isSome

def drives (i : ℕ) (id : UInt32) : Bool :=
  match (host.node (cardPath i)).bind (·.crtc id) with
  | some crtc => crtc.Active
  | none => false

/-- How many displays a card drives. -/
def active (i : ℕ) : ℕ := ((host.crtcs i).getD []).countP (host.drives i)

/-- The card to take: the first of those that drive the most displays, or else the first card with
KMS resources. -/
inductive Picked (i : ℕ) : Prop where
  | busiest (hi : i < 16) (hpos : 0 < host.active i) (hmost : ∀ j < 16, host.active j ≤ host.active i)
      (hfirst : ∀ j < i, host.active j < host.active i)
  | first (hi : i < 16) (hnone : ∀ j < 16, host.active j = 0) (hkms : host.Kms i)
      (hfirst : ∀ j < i, ¬ host.Kms j)

variable {host}

theorem active_of_not_kms {i : ℕ} (h : ¬ host.Kms i) : host.active i = 0 := by
  have hnone : host.crtcs i = none := Option.not_isSome_iff_eq_none.mp h
  simp [active, hnone]

theorem kms_of_active {i : ℕ} (h : 0 < host.active i) : host.Kms i := by
  by_contra hno
  rw [active_of_not_kms hno] at h
  omega

end CardHost

/-! The descriptors of the candidates -/

/-- The table with what the candidates hold. -/
def Candidates.over (c : Candidates) (t : FdTable) : FdTable := fun n =>
  if 0 ≤ c.bestFd ∧ n = c.bestFd then some c.bestPath
  else if 0 ≤ c.fallbackFd ∧ n = c.fallbackFd then some c.fallbackPath
  else t n

theorem Candidates.over_of_not {c : Candidates} {t : FdTable} {n : ℤ}
    (h : ¬ (0 ≤ c.bestFd ∧ n = c.bestFd)) :
    c.over t n = if 0 ≤ c.fallbackFd ∧ n = c.fallbackFd then some c.fallbackPath else t n := if_neg h

/-- The candidates after the first `k` cards, and the table then. -/
structure Scanned (host : CardHost) (before : FdTable) (k : ℕ) (c : Candidates) (t : FdTable) :
    Prop where
  best : c.bestFd < 0 ∧ c.bestActive = 0 ∧ (∀ j < k, host.active j = 0) ∨
    ∃ i < k, 0 ≤ c.bestFd ∧ c.bestActive = host.active i ∧ c.bestPath = cardPath i ∧
      0 < host.active i ∧ (∀ j < k, host.active j ≤ host.active i) ∧
      ∀ j < i, host.active j < host.active i
  fallback : c.fallbackFd < 0 ∧ (∀ j < k, host.Kms j → 0 < host.active j) ∨
    ∃ i < k, 0 ≤ c.fallbackFd ∧ c.fallbackPath = cardPath i ∧ host.Kms i ∧
      ∀ j < i, host.Kms j → 0 < host.active j
  table : t = c.over before
  bestNew : 0 ≤ c.bestFd → before c.bestFd = none
  fallbackNew : 0 ≤ c.fallbackFd → before c.fallbackFd = none
  apart : 0 ≤ c.bestFd → c.bestFd ≠ c.fallbackFd

section Steps
variable {host : CardHost} {before t : FdTable} {k : ℕ} {c : Candidates} {fd : ℤ} {ctx : OpenCtx}

theorem forall_lt_succ {P : ℕ → Prop} (h : ∀ j < k, P j) (hk : P k) : ∀ j < k + 1, P j := by
  intro j hj
  rcases Nat.lt_succ_iff_lt_or_eq.mp hj with hlt | rfl
  · exact h j hlt
  · exact hk

/-- A descriptor that was closed again. -/
theorem closed_again (h : t fd = none) (path : String) :
    Function.update (Function.update t fd (some path)) fd none = t := by
  rw [Function.update_idem, ← h, Function.update_eq_self]

theorem Scanned.start : Scanned host before 0 .start before where
  best := .inl ⟨by decide, rfl, fun j hj => absurd hj (Nat.not_lt_zero j)⟩
  fallback := .inl ⟨by decide, fun j hj => absurd hj (Nat.not_lt_zero j)⟩
  table := by
    funext n
    have hneg : ¬ (0 : ℤ) ≤ -1 := by decide
    simp [Candidates.over, Candidates.start]
  bestNew h := absurd h (by decide)
  fallbackNew h := absurd h (by decide)
  apart h := absurd h (by decide)

/-- A new descriptor is none of the candidates'. -/
theorem Scanned.new (h : Scanned host before k c t) (hfd : t fd = none) :
    before fd = none ∧ (0 ≤ c.bestFd → fd ≠ c.bestFd) ∧ (0 ≤ c.fallbackFd → fd ≠ c.fallbackFd) := by
  rw [h.table] at hfd
  unfold Candidates.over at hfd
  split_ifs at hfd with hb hf
  exact ⟨hfd, fun h0 he => hb ⟨h0, he⟩, fun h0 he => hf ⟨h0, he⟩⟩

/-- The card is no candidate: it has no KMS resources, or does not drive more than the best. -/
theorem Scanned.skip (h : Scanned host before k c t) (hbest : host.active k ≤ c.bestActive)
    (hfallback : host.Kms k → 0 < host.active k ∨ 0 ≤ c.fallbackFd) :
    Scanned host before (k + 1) c t := by
  refine ⟨?_, ?_, h.table, h.bestNew, h.fallbackNew, h.apart⟩
  · rcases h.best with ⟨hneg, hzero, hall⟩ | ⟨i, hi, hfd, hactive, hpath, hpos, hall, hfirst⟩
    · exact .inl ⟨hneg, hzero, forall_lt_succ hall (by omega)⟩
    · exact .inr ⟨i, by omega, hfd, hactive, hpath, hpos, forall_lt_succ hall (hactive ▸ hbest), hfirst⟩
  · rcases h.fallback with ⟨hneg, hall⟩ | ⟨i, hi, hrest⟩
    · refine .inl ⟨hneg, forall_lt_succ hall fun hk => ?_⟩
      rcases hfallback hk with hpos | h0
      · exact hpos
      · exact absurd h0 (not_le.mpr hneg)
    · exact .inr ⟨i, by omega, hrest⟩

/-- The card drives more displays than the best so far, which is given up. -/
theorem Scanned.replaceBest (h : Scanned host before k c t) (hfd : 0 ≤ fd) (hnew : t fd = none)
    (hmore : c.bestActive < host.active k) {t' : FdTable}
    (ht : t' = if 0 ≤ c.bestFd then Function.update (Function.update t fd (some (cardPath k))) c.bestFd none
      else Function.update t fd (some (cardPath k))) :
    Scanned host before (k + 1)
      { c with bestFd := fd, bestActive := host.active k, bestPath := cardPath k } t' := by
  obtain ⟨hbefore, hnb, hnf⟩ := h.new hnew
  have hpos : 0 < host.active k := by omega
  have hless : ∀ j < k, host.active j < host.active k := by
    intro j hj
    rcases h.best with ⟨-, hzero, hall⟩ | ⟨i, -, -, hactive, -, -, hall, -⟩
    · rw [hall j hj]
      exact hpos
    · exact (hall j hj).trans_lt (hactive ▸ hmore)
  refine ⟨.inr ⟨k, by omega, hfd, rfl, rfl, hpos, forall_lt_succ (fun j hj => (hless j hj).le) le_rfl,
    hless⟩, ?_, ?_, fun _ => hbefore, h.fallbackNew, fun _ => ?_⟩
  · rcases h.fallback with ⟨hneg, hall⟩ | ⟨i, hi, hrest⟩
    · exact .inl ⟨hneg, forall_lt_succ hall fun _ => hpos⟩
    · exact .inr ⟨i, by omega, hrest⟩
  · have hbn := h.bestNew
    have hapart := h.apart
    rw [ht, h.table]
    funext n
    simp only [Candidates.over]
    by_cases hb : 0 ≤ c.bestFd
    · have h1 := hnb hb
      have h2 := hbn hb
      have h3 := hapart hb
      rw [if_pos hb]
      by_cases hn : n = c.bestFd
      · subst hn
        rw [Function.update_self, if_neg (fun hc => h1 hc.2.symm), if_neg (fun hc => h3 hc.2), h2]
      · rw [Function.update_of_ne hn]
        by_cases hn' : n = fd
        · subst hn'
          rw [Function.update_self, if_pos ⟨hfd, rfl⟩]
        · rw [Function.update_of_ne hn', Candidates.over_of_not (fun hc => hn hc.2)]
          exact (if_neg (fun hc => hn' hc.2)).symm
    · rw [if_neg hb]
      by_cases hn' : n = fd
      · subst hn'
        rw [Function.update_self, if_pos ⟨hfd, rfl⟩]
      · rw [Function.update_of_ne hn', Candidates.over_of_not (fun hc => hb hc.1)]
        exact (if_neg (fun hc => hn' hc.2)).symm
  · by_cases hf : 0 ≤ c.fallbackFd
    · exact hnf hf
    · dsimp only
      omega

/-- The first card that has KMS resources and drives nothing. -/
theorem Scanned.setFallback (h : Scanned host before k c t) (hfd : 0 ≤ fd) (hnew : t fd = none)
    (hnone : c.fallbackFd < 0) (hkms : host.Kms k) (hidle : host.active k = 0) :
    Scanned host before (k + 1) { c with fallbackFd := fd, fallbackPath := cardPath k }
      (Function.update t fd (some (cardPath k))) := by
  obtain ⟨hbefore, hnb, -⟩ := h.new hnew
  refine ⟨?_, ?_, ?_, h.bestNew, fun _ => hbefore, fun hb => (hnb hb).symm⟩
  · rcases h.best with ⟨hneg, hzero, hall⟩ | ⟨i, hi, hfd, hactive, hpath, hpos, hall, hfirst⟩
    · exact .inl ⟨hneg, hzero, forall_lt_succ hall hidle⟩
    · exact .inr ⟨i, by omega, hfd, hactive, hpath, hpos, forall_lt_succ hall (by omega), hfirst⟩
  · rcases h.fallback with ⟨-, hall⟩ | ⟨i, -, h0, -⟩
    · exact .inr ⟨k, by omega, hfd, rfl, hkms, hall⟩
    · exact absurd h0 (not_le.mpr hnone)
  · rw [h.table]
    funext n
    simp only [Candidates.over]
    by_cases hn : n = fd
    · subst hn
      rw [Function.update_self, if_neg (fun hc => hnb hc.1 hc.2), if_pos ⟨hfd, rfl⟩]
    · have hnone' : ¬ (0 ≤ c.fallbackFd ∧ n = c.fallbackFd) := fun hc => absurd hc.1 (not_le.mpr hnone)
      have hrest : ¬ (0 ≤ fd ∧ n = fd) := fun hc => hn hc.2
      rw [Function.update_of_ne hn, if_neg hrest]
      by_cases hb : 0 ≤ c.bestFd ∧ n = c.bestFd
      · rw [if_pos hb, Candidates.over, if_pos hb]
      · rw [if_neg hb, Candidates.over_of_not hb, if_neg hnone']

/-- The best card alone, once the fallback is closed. -/
theorem Scanned.table_best (h : Scanned host before k c t) (hbest : 0 ≤ c.bestFd) :
    (if 0 ≤ c.fallbackFd then Function.update t c.fallbackFd none else t) =
      Function.update before c.bestFd (some c.bestPath) := by
  have hne := h.apart hbest
  rw [h.table]
  funext n
  by_cases hn : n = c.bestFd
  · subst hn
    have hbest' : c.over before c.bestFd = some c.bestPath := if_pos ⟨hbest, rfl⟩
    split
    · rw [Function.update_of_ne hne, Function.update_self, hbest']
    · rw [Function.update_self, hbest']
  · have hover := Candidates.over_of_not (t := before) fun hc : 0 ≤ c.bestFd ∧ n = c.bestFd => hn hc.2
    rw [Function.update_of_ne hn]
    split
    next hf =>
      by_cases hnf : n = c.fallbackFd
      · rw [hnf, Function.update_self, h.fallbackNew hf]
      · rw [Function.update_of_ne hnf, hover, if_neg fun hc => hnf hc.2]
    next hf => rw [hover, if_neg fun hc => hf hc.1]

theorem Scanned.table_fallback (h : Scanned host before k c t) (hbest : ¬ 0 ≤ c.bestFd)
    (hfallback : 0 ≤ c.fallbackFd) :
    t = Function.update before c.fallbackFd (some c.fallbackPath) := by
  rw [h.table]
  funext n
  rw [Candidates.over_of_not fun hc => hbest hc.1]
  by_cases hn : n = c.fallbackFd
  · rw [hn, Function.update_self, if_pos ⟨hfallback, rfl⟩]
  · rw [Function.update_of_ne hn, if_neg fun hc => hn hc.2]

theorem Scanned.table_none (h : Scanned host before k c t) (hbest : ¬ 0 ≤ c.bestFd)
    (hfallback : ¬ 0 ≤ c.fallbackFd) : t = before := by
  rw [h.table]
  funext n
  rw [Candidates.over_of_not fun hc => hbest hc.1, if_neg fun hc => hfallback hc.1]

/-- Without a best card none drives a display. -/
theorem Scanned.idle (h : Scanned host before k c t) (hbest : ¬ 0 ≤ c.bestFd) :
    ∀ j < k, host.active j = 0 := by
  rcases h.best with ⟨-, -, hall⟩ | ⟨i, -, h0, -⟩
  · exact hall
  · exact absurd h0 hbest

end Steps

/-! The calls -/

section Calls
variable {host : CardHost} {before t : FdTable} {k : ℕ} {c : Candidates} {fd : ℤ} {ctx : OpenCtx}

theorem wp_close {Q : Unit → OpenCtx → FdTable → Prop} (hopen : (t fd).isSome)
    (h : Q () ctx (Function.update t fd none)) :
    Cmd.wp host.env (os (.close fd)) Q ctx t := by
  rw [os, Cmd.wp_call]
  refine ⟨hopen, ?_⟩
  rintro ⟨⟩ t' rfl
  exact h

theorem countActive_spec (hfd : t fd = some (cardPath k)) (ids : List UInt32) (active : ℕ) :
    Cmd.wp host.env (countActive fd ids active) (fun n ctx' t' =>
      n = active + ids.countP (host.drives k) ∧ ctx' = ctx ∧ t' = t) ctx t := by
  induction ids generalizing active with
  | nil => exact ⟨rfl, rfl, rfl⟩
  | cons id ids ih =>
    have hbehind : host.behind t fd = host.node (cardPath k) := by
      rw [CardHost.behind, hfd, Option.bind_some]
    rw [countActive, Cmd.wp_bind, os, Cmd.wp_call]
    refine ⟨by simp [hfd], ?_⟩
    rintro r t' ⟨hr, rfl⟩
    rw [hbehind] at hr
    cases r with
    | none =>
      have hdrives : host.drives k id = false := by rw [CardHost.drives, ← hr]
      rw [List.countP_cons_of_neg (by simp [hdrives])]
      exact ih active
    | some crtc =>
      have hdrives : host.drives k id = decide crtc.Active := by rw [CardHost.drives, ← hr]
      by_cases hactive : crtc.Active
      · rw [List.countP_cons_of_pos (by simp [hdrives, hactive])]
        simp only [if_pos hactive]
        apply Cmd.wp_mono (ih (active + 1))
        rintro n ctx' t' ⟨hn, hctx, ht⟩
        exact ⟨by omega, hctx, ht⟩
      · rw [List.countP_cons_of_neg (by simp [hdrives, hactive])]
        simp only [if_neg hactive]
        exact ih active

theorem offerBest_spec (h : Scanned host before k c t) (hfd : 0 ≤ fd) (hnew : t fd = none)
    (hpos : 0 < host.active k) :
    Cmd.wp host.env (offerBest c fd (cardPath k) (host.active k))
      (fun c' ctx' t' => ctx' = ctx ∧ Scanned host before (k + 1) c' t') ctx
      (Function.update t fd (some (cardPath k))) := by
  apply Cmd.wp_ite.mpr
  constructor
  · intro hmore
    apply Cmd.wp_ite.mpr
    constructor
    · intro hbest
      rw [Cmd.wp_bind]
      have hopen : (Function.update t fd (some (cardPath k)) c.bestFd).isSome := by
        rw [Function.update_of_ne ((h.new hnew).2.1 hbest).symm, h.table, Candidates.over,
          if_pos ⟨hbest, rfl⟩]
        rfl
      exact wp_close hopen ⟨rfl, h.replaceBest hfd hnew hmore (if_pos hbest).symm⟩
    · intro hbest
      exact ⟨rfl, h.replaceBest hfd hnew hmore (if_neg hbest).symm⟩
  · intro hless
    rw [Cmd.wp_bind]
    apply wp_close (by simp)
    rw [closed_again hnew]
    exact ⟨rfl, h.skip (not_lt.mp hless) fun _ => .inl hpos⟩

theorem offerFallback_spec (h : Scanned host before k c t) (hfd : 0 ≤ fd) (hnew : t fd = none)
    (hkms : host.Kms k) (hidle : host.active k = 0) :
    Cmd.wp host.env (offerFallback c fd (cardPath k))
      (fun c' ctx' t' => ctx' = ctx ∧ Scanned host before (k + 1) c' t') ctx
      (Function.update t fd (some (cardPath k))) := by
  apply Cmd.wp_ite.mpr
  constructor
  · intro hnone
    exact ⟨rfl, h.setFallback hfd hnew hnone hkms hidle⟩
  · intro hsome
    rw [Cmd.wp_bind]
    apply wp_close (by simp)
    rw [closed_again hnew]
    exact ⟨rfl, h.skip (by omega) fun _ => .inr (not_lt.mp hsome)⟩

theorem probeCard_spec (h : Scanned host before k c t) :
    Cmd.wp host.env (probeCard k c)
      (fun c' ctx' t' => ctx' = ctx ∧ Scanned host before (k + 1) c' t') ctx t := by
  rw [probeCard, Cmd.wp_bind, os, Cmd.wp_call]
  refine ⟨trivial, fun fd t' hs => ?_⟩
  cases hnode : host.node (cardPath k) with
  | none =>
    simp only [hnode] at hs
    obtain ⟨hneg, rfl⟩ := hs
    have hkms : ¬ host.Kms k := by simp [CardHost.Kms, CardHost.crtcs, hnode]
    rw [if_pos hneg]
    refine ⟨rfl, h.skip ?_ fun hk => absurd hk hkms⟩
    rw [CardHost.active_of_not_kms hkms]
    exact Nat.zero_le _
  | some card =>
    simp only [hnode] at hs
    obtain ⟨hfd, hnew, rfl⟩ := hs
    have hcrtcs : host.crtcs k = card.resources := by simp [CardHost.crtcs, hnode]
    rw [if_neg (not_lt.mpr hfd), Cmd.wp_bind, os, Cmd.wp_call]
    refine ⟨by simp, ?_⟩
    rintro r t' ⟨hr, rfl⟩
    rw [CardHost.behind, Function.update_self, Option.bind_some, hnode, Option.bind_some] at hr
    cases r with
    | none =>
      have hkms : ¬ host.Kms k := by simp [CardHost.Kms, hcrtcs, ← hr]
      dsimp only
      rw [Cmd.wp_bind]
      apply wp_close (by simp)
      rw [closed_again hnew]
      refine ⟨rfl, h.skip ?_ fun hk => absurd hk hkms⟩
      rw [CardHost.active_of_not_kms hkms]
      exact Nat.zero_le _
    | some crtcs =>
      have hkms : host.Kms k := by simp [CardHost.Kms, hcrtcs, ← hr]
      have hcount : crtcs.countP (host.drives k) = host.active k := by
        simp [CardHost.active, hcrtcs, ← hr]
      dsimp only
      rw [Cmd.wp_bind]
      apply Cmd.wp_mono (countActive_spec (k := k) (Function.update_self _ _ _) crtcs 0)
      rintro active ctx t' ⟨rfl, rfl, rfl⟩
      rw [Nat.zero_add, hcount]
      apply Cmd.wp_ite.mpr
      exact ⟨fun hpos => offerBest_spec h hfd hnew hpos,
        fun hidle => offerFallback_spec h hfd hnew hkms (Nat.eq_zero_of_not_pos hidle)⟩

theorem scanCards_spec (n : ℕ) (h : Scanned host before k c t) :
    Cmd.wp host.env (scanCards (List.range' k n) c)
      (fun c' ctx' t' => ctx' = ctx ∧ Scanned host before (k + n) c' t') ctx t := by
  induction n generalizing k c t ctx with
  | zero => exact ⟨rfl, h⟩
  | succ n ih =>
    rw [List.range'_succ, scanCards, Cmd.wp_bind]
    apply Cmd.wp_mono (probeCard_spec h)
    rintro c' ctx t' ⟨rfl, h'⟩
    rw [show k + (n + 1) = k + 1 + n by omega]
    exact ih h'

theorem setDevicePath_card {i : ℕ} (hi : i < 16) {Q : Unit → OpenCtx → FdTable → Prop}
    (h : Q () ⟨cardPath i⟩ t) : Cmd.wp host.env (setDevicePath (cardPath i)) Q ctx t := by
  have hshort : ∀ i < 16, String.ofList ((cardPath i).toList.take 255) = cardPath i := by decide
  unfold setDevicePath
  rw [Cmd.wp_modify, hshort i hi]
  exact h

/-- What the scan comes to: the picked card, its path and its descriptor alone, or nothing. -/
def Selected (host : CardHost) (ctx : OpenCtx) (before : FdTable) (fd : ℤ) (ctx' : OpenCtx)
    (t' : FdTable) : Prop :=
  (∃ i, host.Picked i ∧ 0 ≤ fd ∧ before fd = none ∧ ctx'.devicePath = cardPath i ∧
    t' = Function.update before fd (some (cardPath i))) ∨
  (∀ i < 16, ¬ host.Kms i) ∧ fd = -1 ∧ ctx' = ctx ∧ t' = before

theorem chooseCard_spec (h : Scanned host before 16 c t) :
    Cmd.wp host.env (chooseCard c) (Selected host ctx before) ctx t := by
  apply Cmd.wp_ite.mpr
  constructor
  · intro hbest
    rcases h.best with ⟨hneg, -⟩ | ⟨i, hi, -, -, hpath, hpos, hmost, hfirst⟩
    · exact absurd hbest (not_le.mpr hneg)
    have hnew := h.bestNew hbest
    have hpicked : host.Picked i := .busiest hi hpos hmost hfirst
    apply Cmd.wp_ite.mpr
    constructor
    · intro hfallback
      have hne := h.apart hbest
      have hopen : (t c.fallbackFd).isSome := by
        rw [h.table, Candidates.over_of_not fun hc => hne hc.2.symm, if_pos ⟨hfallback, rfl⟩]
        rfl
      rw [Cmd.wp_bind]
      apply wp_close hopen
      rw [Cmd.wp_bind, hpath]
      apply setDevicePath_card hi
      have htable := h.table_best hbest
      rw [if_pos hfallback, hpath] at htable
      exact .inl ⟨i, hpicked, hbest, hnew, rfl, htable⟩
    · intro hfallback
      rw [Cmd.wp_bind, hpath]
      apply setDevicePath_card hi
      have htable := h.table_best hbest
      rw [if_neg hfallback, hpath] at htable
      exact .inl ⟨i, hpicked, hbest, hnew, rfl, htable⟩
  · intro hbest
    have hidle := h.idle hbest
    have hkms : ∀ j < 16, host.Kms j → ¬ 0 < host.active j := by
      intro j hj _
      rw [hidle j hj]
      exact Nat.lt_irrefl 0
    apply Cmd.wp_ite.mpr
    constructor
    · intro hfallback
      rcases h.fallback with ⟨hneg, -⟩ | ⟨i, hi, -, hpath, hki, hfirst⟩
      · exact absurd hfallback (not_le.mpr hneg)
      have hpicked : host.Picked i :=
        .first hi hidle hki fun j hj hkj => hkms j (by omega) hkj (hfirst j hj hkj)
      have htable := h.table_fallback hbest hfallback
      rw [hpath] at htable
      rw [Cmd.wp_bind, hpath]
      apply setDevicePath_card hi
      exact .inl ⟨i, hpicked, hfallback, h.fallbackNew hfallback, rfl, htable⟩
    · intro hfallback
      rcases h.fallback with ⟨-, hall⟩ | ⟨i, -, h0, -⟩
      · exact .inr ⟨fun j hj hkj => hkms j hj hkj (hall j hj hkj), rfl, rfl,
          h.table_none hbest hfallback⟩
      · exact absurd h0 hfallback

theorem autoScan_spec (t : FdTable) : Cmd.wp host.env autoScan (Selected host ctx t) ctx t := by
  have hstart : Scanned host t 0 .start t := Scanned.start
  rw [autoScan, Cmd.wp_bind, List.range_eq_range']
  apply Cmd.wp_mono (scanCards_spec 16 hstart)
  rintro c ctx t' ⟨rfl, h⟩
  exact chooseCard_spec h

/-- The environment variable that the scan takes note of, if any. -/
theorem drmDeviceEnv_spec (t : FdTable) :
    Cmd.wp host.env drmDeviceEnv (fun r ctx' t' => ctx' = ctx ∧ t' = t ∧
      ∀ path, r = some path → host.uid ≠ 0 ∧ host.euid ≠ 0 ∧ host.drmDevice = some path) ctx t := by
  rw [drmDeviceEnv, Cmd.wp_bind, os, Cmd.wp_call]
  refine ⟨trivial, ?_⟩
  rintro uid t' ⟨rfl, rfl⟩
  apply Cmd.wp_ite.mpr
  refine ⟨fun _ => ⟨rfl, rfl, fun path h => by cases h⟩, fun huid => ?_⟩
  rw [Cmd.wp_bind, os, Cmd.wp_call]
  refine ⟨trivial, ?_⟩
  rintro euid t' ⟨rfl, rfl⟩
  apply Cmd.wp_ite.mpr
  refine ⟨fun _ => ⟨rfl, rfl, fun path h => by cases h⟩, fun heuid => ⟨trivial, ?_⟩⟩
  rintro r t' ⟨rfl, rfl⟩
  exact ⟨rfl, rfl, fun path h => ⟨huid, heuid, h⟩⟩

/-- Unless the environment names a device that can be opened, the scan returns the descriptor of the
card that drives the most displays, the first of them, or else of the first card with KMS
resources, with its path in the context; and the other descriptors are all closed again, each one
once. Without such a card it returns -1. -/
theorem open_drm_auto_picks (hauto : ¬ host.Overridden) (ctx : OpenCtx) (t : FdTable) :
    Cmd.wp host.env openDrmAuto (Selected host ctx t) ctx t := by
  rw [openDrmAuto, Cmd.wp_bind]
  apply Cmd.wp_mono (drmDeviceEnv_spec t)
  rintro r ctx t' ⟨rfl, rfl, hr⟩
  cases r with
  | none => exact autoScan_spec t'
  | some path =>
    obtain ⟨huid, heuid, hdevice⟩ := hr path rfl
    have hnode : host.node path = none := by
      by_contra hne
      exact hauto ⟨huid, heuid, path, hdevice, Option.isSome_iff_ne_none.mpr hne⟩
    dsimp only
    rw [Cmd.wp_bind, os, Cmd.wp_call]
    refine ⟨trivial, fun fd t'' hs => ?_⟩
    simp only [hnode] at hs
    obtain ⟨hneg, rfl⟩ := hs
    rw [if_neg (not_le.mpr hneg)]
    exact autoScan_spec t''

end Calls

/-- A virtual GPU with one display as the first card, and a real one with two as the second. -/
def twoCards : CardHost where
  uid := 0
  euid := 0
  drmDevice := none
  node path :=
    if path = "/dev/dri/card0" then some ⟨some [1], fun _ => some ⟨true, 9⟩⟩
    else if path = "/dev/dri/card1" then some ⟨some [1, 2, 3], fun id => some ⟨id ≠ 3, 9⟩⟩
    else none

theorem open_drm_auto_picks_second : Cmd.wp twoCards.env openDrmAuto
    (fun fd ctx _ => 0 ≤ fd ∧ ctx.devicePath = "/dev/dri/card1") ⟨""⟩ fun _ => none := by
  have hauto : ¬ twoCards.Overridden := fun h => h.1 rfl
  have hless : ∀ i < 16, i ≠ 1 → twoCards.active i < twoCards.active 1 := by decide
  apply Cmd.wp_mono (open_drm_auto_picks hauto ⟨""⟩ fun _ => none)
  rintro fd ctx t (⟨i, hi, hfd, -, hpath, -⟩ | ⟨hnone, -⟩)
  · refine ⟨hfd, hpath.trans ?_⟩
    cases hi with
    | busiest hi _ hmost _ =>
      by_cases h1 : i = 1
      · rw [h1]
        rfl
      · exact absurd (hmost 1 (by decide)) (not_le.mpr (hless i hi h1))
    | first _ hnone =>
      have h2 : twoCards.active 1 = 2 := by decide
      have h0 := hnone 1 (by decide)
      omega
  · exact absurd rfl (hnone 1 (by decide))

end Drmtap
