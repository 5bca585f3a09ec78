import Drmtap.DeviceFiles

/-! `drmtap_list_devices`, and how far it agrees with the choice of `drmtap_open`. -/
namespace Drmtap

open Effect

namespace DeviceHost
variable (host : DeviceHost)

def driverName (path : String) : String := ((host.driver path).map (snprintf 32)).getD ""

def nodeName (path : String) : String := ((host.renderNode path).join.map (snprintf 64)).getD ""

/-- A card as an entry of the list. -/
def entry (i : ℕ) : Option DrmtapDevice :=
  (host.crtcs i).map fun _ => ⟨cardPath i, host.nodeName (cardPath i),
    host.driverName (cardPath i), .ofNat (host.active i)⟩

/-- The cards with KMS resources, in the order of their numbers. -/
def entries : List DrmtapDevice := (List.range 16).filterMap host.entry

end DeviceHost

section List
variable {host : DeviceHost} {s t : Files} {c : OpenCtx} {fd : ℤ} {left : Prop} {f i : ℕ}

/-- The count of a device is that of the scan. -/
theorem countActive_device (h : s.Adds fd (cardPath i) left f t) (ids : List UInt32) (n : ℕ) :
    Cmd.wp host.files.left (countActive fd ids n) (fun n' c' t' =>
      n' = n + ids.countP (host.drives i) ∧ c' = c ∧ t' = t) c t := by
  induction ids generalizing n with
  | nil => exact ⟨rfl, rfl, rfl⟩
  | cons id ids ih =>
    have hopen : (t.file fd).isSome := by simp [h.at]
    have hbehind : t.behind fd host.node = host.node (cardPath i) := by
      simp [Files.behind, h.at, h.path]
    rw [countActive, Cmd.wp_bind, os, Cmd.wp_call]
    refine ⟨hopen, ?_⟩
    intro r t' h
    obtain ⟨hr, ht⟩ := h
    subst ht
    rw [hbehind] at hr
    cases r with
    | none =>
      have hdrives : host.drives i id = false := by rw [CardHost.drives, ← hr]
      rw [List.countP_cons_of_neg (by simp [hdrives])]
      exact ih n
    | some crtc =>
      have hdrives : host.drives i id = decide crtc.Active := by rw [CardHost.drives, ← hr]
      by_cases hactive : crtc.Active
      · rw [List.countP_cons_of_pos (by simp [hdrives, hactive])]
        simp only [if_pos hactive]
        apply Cmd.wp_mono (ih (n + 1))
        intro n' c' t' h
        obtain ⟨hn, hc, ht⟩ := h
        exact ⟨by omega, hc, ht⟩
      · rw [List.countP_cons_of_neg (by simp [hdrives, hactive])]
        simp only [if_neg hactive]
        exact ih n

theorem deviceDriver_spec (h : s.Adds fd (cardPath i) left f t) :
    Cmd.wp host.files (deviceDriver fd) (fun r c' t' =>
      r = host.driverName (cardPath i) ∧ c' = c ∧ t' = t) c t := by
  have hopen : (t.file fd).isSome := by simp [h.at]
  unfold deviceDriver
  rw [Cmd.wp_bind]
  apply wp_ask (o := .getVersion fd) hopen (fun _ _ hs => hs.2)
  intro driver h
  obtain ⟨hdriver, _⟩ := h
  have hname : driver = host.driver (cardPath i) := by
    simpa [Files.behind, h.at, h.path] using hdriver
  cases driver <;> simp [DeviceHost.driverName, ← hname]

theorem deviceRenderNode_spec (h : s.Adds fd (cardPath i) left f t) :
    Cmd.wp host.files (deviceRenderNode fd) (fun r c' t' =>
      r = host.nodeName (cardPath i) ∧ c' = c ∧ t' = t) c t := by
  have hopen : (t.file fd).isSome := by simp [h.at]
  unfold deviceRenderNode
  rw [Cmd.wp_bind]
  apply wp_ask (o := .getDevice2 fd) hopen (fun _ _ hs => hs.2)
  intro device h
  obtain ⟨hdevice, _⟩ := h
  have hname : device = host.renderNode (cardPath i) := by
    simpa [Files.behind, h.at, h.path] using hdevice
  rcases device with _ | _ | node <;> simp [DeviceHost.nodeName, ← hname]

/-- One card, which is closed again. -/
theorem listDevice_spec (i : ℕ) (s : Files) : Cmd.wp host.files (listDevice i) (fun r c' t =>
    r = host.entry i ∧ c' = c ∧ s.Same t) c s := by
  unfold listDevice
  rw [Cmd.wp_bind, wp_onCard]
  refine ⟨trivial, fun fd t hstep => ?_⟩
  unfold DeviceHost.cardStep at hstep
  rw [Cmd.wp_ite]
  cases hnode : host.node (cardPath i) with
  | none =>
    simp only [hnode] at hstep
    obtain ⟨hneg, rfl⟩ := hstep
    refine ⟨fun _ => ⟨?_, rfl, .refl t⟩, fun hpos => absurd hneg hpos⟩
    simp [DeviceHost.entry, CardHost.crtcs, hnode]
  | some card =>
    simp only [hnode] at hstep
    obtain ⟨hfd, hfree, grant, rfl⟩ := hstep
    refine ⟨fun hneg => absurd hfd (not_le.mpr hneg), fun _ => ?_⟩
    rw [Cmd.wp_bind]
    apply Cmd.wp_mono (giveUpMaster_spec (Files.adds_opened hfd hfree grant))
    intro _ c' t h
    obtain ⟨hc, h⟩ := h
    subst hc
    have hopen : (t.file fd).isSome := by simp [h.at]
    have hbehind {α : Type} (answer : String → Option α) :
        t.behind fd answer = answer (cardPath i) := by simp [Files.behind, h.at, h.path]
    have hclose {r : Option DrmtapDevice} (hr : r = host.entry i) :
        Cmd.wp host.files (onCard (.close fd) >>= fun _ => pure r)
          (fun r c'' t => r = host.entry i ∧ c'' = c' ∧ s.Same t) c' t := by
      rw [Cmd.wp_bind, wp_onCard]
      refine ⟨hopen, fun _ t' ht => ?_⟩
      have ht : t' = t.closed fd := ht
      subst ht
      exact ⟨hr, rfl, h.closed⟩
    rw [Cmd.wp_bind, wp_onCard]
    refine ⟨hopen, ?_⟩
    intro r t' h
    obtain ⟨hr, ht⟩ := h
    subst ht
    rw [hbehind, hnode] at hr
    have hcrtcs : host.crtcs i = r := by
      rw [CardHost.crtcs, hnode]
      exact hr.symm
    cases r with
    | none => exact hclose (by simp [DeviceHost.entry, hcrtcs])
    | some crtcs =>
      have hactive : crtcs.countP (host.drives i) = host.active i := by
        simp [CardHost.active, hcrtcs]
      simp only [Cmd.wp_bind, Cmd.wp_zoom]
      apply Cmd.wp_mono (countActive_device h crtcs 0)
      intro n c'' t' h
      obtain ⟨hn, hc, ht⟩ := h
      subst hn hc ht
      apply Cmd.wp_mono (deviceDriver_spec h)
      intro driver c₁ t₁ h
      obtain ⟨hdriver, hc, ht⟩ := h
      subst hdriver hc ht
      apply Cmd.wp_mono (deviceRenderNode_spec h)
      intro node c₂ t₂ h
      obtain ⟨hnode, hc, ht⟩ := h
      subst hnode hc ht
      apply hclose
      rw [Nat.zero_add, hactive]
      simp [DeviceHost.entry, hcrtcs]

/-- The list so far and the cards to come. -/
theorem listFrom_spec {maxCount : ℕ} (cards : List ℕ) {out : List DrmtapDevice} (s : Files)
    (hout : out.length ≤ maxCount) : Cmd.wp host.files (listFrom maxCount cards out)
      (fun r c' t => r = (out ++ cards.filterMap host.entry).take maxCount ∧ c' = c ∧ s.Same t)
      c s := by
  induction cards generalizing out s with
  | nil =>
    refine ⟨?_, rfl, .refl s⟩
    simp [List.take_of_length_le hout]
  | cons i cards ih =>
    unfold listFrom
    rw [Cmd.wp_ite]
    constructor
    · intro hroom
      rw [Cmd.wp_bind]
      apply Cmd.wp_mono (listDevice_spec i s)
      intro r c' t h
      obtain ⟨hr, hc, hsame⟩ := h
      subst hr hc
      have hlen : (out ++ (host.entry i).toList).length ≤ maxCount := by
        cases host.entry i <;> simp <;> omega
      apply Cmd.wp_mono (ih t hlen)
      intro r c'' t' h
      obtain ⟨hr, hc, hsame'⟩ := h
      refine ⟨?_, hc, hsame.trans hsame'⟩
      rw [hr, List.append_assoc]
      cases hentry : host.entry i <;> simp [hentry]
    · intro hfull
      refine ⟨?_, rfl, .refl s⟩
      have heq : out.length = maxCount := by omega
      rw [← heq, List.take_left]

theorem drmtapListDevices_spec {maxCount : ℤ} (hmax : 0 < maxCount) (s : Files) :
    Cmd.wp host.files (drmtapListDevices true maxCount) (fun r c' t =>
      r = .ok (host.entries.take maxCount.toNat) ∧ c' = c ∧ s.Same t) c s := by
  unfold drmtapListDevices
  rw [if_neg (by simp [hmax]), Cmd.wp_bind]
  apply Cmd.wp_mono (listFrom_spec (List.range 16) s (Nat.zero_le _))
  intro r c' t h
  obtain ⟨hr, hc, hsame⟩ := h
  subst hr
  exact ⟨rfl, hc, hsame⟩

theorem DeviceHost.entry_some {d : DrmtapDevice} (h : host.entry i = some d) :
    host.Kms i ∧ d.path = cardPath i ∧ d.displayCount.toNat = host.active i := by
  obtain ⟨crtcs, hcrtcs, hd⟩ := Option.map_eq_some_iff.mp h
  subst hd
  refine ⟨by simp [CardHost.Kms, hcrtcs], rfl, ?_⟩
  obtain ⟨card, hnode, hres⟩ := Option.bind_eq_some_iff.mp hcrtcs
  have hfew := host.few _ card crtcs hnode hres
  have hle : host.active i ≤ crtcs.length := by
    simp only [CardHost.active, hcrtcs, Option.getD_some]
    exact List.countP_le_length
  show (UInt32.ofNat (host.active i)).toNat = host.active i
  rw [UInt32.toNat_ofNat']
  apply Nat.mod_eq_of_lt
  omega

theorem DeviceHost.mem_entries {d : DrmtapDevice} (h : d ∈ host.entries) :
    ∃ j < 16, host.entry j = some d := by
  obtain ⟨j, hj, hd⟩ := List.mem_filterMap.mp h
  exact ⟨j, List.mem_range.mp hj, hd⟩

theorem DeviceHost.entries_length : host.entries.length ≤ 16 :=
  (List.length_filterMap_le _ _).trans_eq List.length_range

end List

/-- A device of a list that shows the most displays, and is the first that does. -/
def FirstBusiest (devices : List DrmtapDevice) (path : String) : Prop :=
  ∃ before d after, devices = before ++ d :: after ∧ d.path = path ∧
    (∀ b ∈ before, b.displayCount < d.displayCount) ∧
    ∀ a ∈ after, a.displayCount ≤ d.displayCount

/-- The scan picks by the rule that is read off the list. -/
theorem DeviceHost.picked_firstBusiest {host : DeviceHost} {i : ℕ} (hi : host.Picked i) :
    FirstBusiest host.entries (cardPath i) := by
  have hlt : i < 16 := by
    cases hi <;> assumption
  have hkms : host.Kms i := by
    cases hi with
    | busiest _ hpos => exact CardHost.kms_of_active hpos
    | first _ _ hkms => exact hkms
  have hmost : ∀ j < 16, host.active j ≤ host.active i := by
    cases hi with
    | busiest _ _ hmost => exact hmost
    | first _ hnone =>
      intro j hj
      rw [hnone j hj]
      exact Nat.zero_le _
  have hfirst : ∀ j < i, host.Kms j → host.active j < host.active i := by
    cases hi with
    | busiest _ _ _ hfirst => exact fun j hj _ => hfirst j hj
    | first _ _ _ hfirst => exact fun j hj hk => absurd hk (hfirst j hj)
  obtain ⟨crtcs, hcrtcs⟩ := Option.isSome_iff_exists.mp hkms
  obtain ⟨d, hd⟩ : ∃ d, host.entry i = some d := ⟨_, by simp [entry, hcrtcs]; rfl⟩
  obtain ⟨-, hpath, hcount⟩ := entry_some hd
  have hsplit : List.range 16 = List.range i ++ i :: List.range' (i + 1) (15 - i) := by
    have happend : List.range' 0 i ++ List.range' (0 + i) (15 - i + 1) =
        List.range' 0 (i + (15 - i + 1)) := List.range'_append_1
    rw [List.range'_succ, Nat.zero_add, show i + (15 - i + 1) = 16 by omega] at happend
    rw [List.range_eq_range', List.range_eq_range', happend]
  refine ⟨(List.range i).filterMap host.entry, d,
    (List.range' (i + 1) (15 - i)).filterMap host.entry, ?_, hpath, ?_, ?_⟩
  · rw [entries, hsplit, List.filterMap_append, List.filterMap_cons_some hd]
  · intro b hb
    obtain ⟨j, hj, hbj⟩ := List.mem_filterMap.mp hb
    obtain ⟨hkj, -, hcj⟩ := entry_some hbj
    rw [UInt32.lt_iff_toNat_lt, hcj, hcount]
    exact hfirst j (List.mem_range.mp hj) hkj
  · intro a ha
    obtain ⟨j, hj, haj⟩ := List.mem_filterMap.mp ha
    obtain ⟨-, -, hcj⟩ := entry_some haj
    rw [UInt32.le_iff_toNat_le, hcj, hcount]
    apply hmost
    simp only [List.mem_range'] at hj
    omega

/-- Where no device is named, a list with room for all the cards and the scan of `drmtap_open`
agree: it opens the device of the list that shows the most displays, the first of these, and if
there is memory it fails only where the list is empty. The list itself leaves no trace. -/
theorem open_takes_first_busiest {host : DeviceHost} {maxCount : ℤ}
    {config : Option DrmtapConfig} (c : OpenCtx) (s : Files) (hroom : 16 ≤ maxCount)
    (hauto : ¬ host.Overridden)
    (hnone : snprintf 256 ((config.bind (·.devicePath)).getD "") = "") :
    Cmd.wp host.files (do
      let devices ← drmtapListDevices true maxCount
      let o ← drmtapOpen config
      pure (devices, o)) (fun r _ t => ∃ devices, r.1 = .ok devices ∧
        (host.memory = true → r.2 = none → devices = []) ∧
        (r.2 = none → s.Same t) ∧
        ∀ o, r.2 = some o → FirstBusiest devices o.devicePath ∧ s.Same (t.closed o.drmFd)) c s := by
  have hall : host.entries.take maxCount.toNat = host.entries := by
    apply List.take_of_length_le
    have := host.entries_length
    omega
  rw [Cmd.wp_bind]
  apply Cmd.wp_mono (drmtapListDevices_spec (by omega) s)
  intro devices c' t h
  obtain ⟨hdevices, hc, hsame⟩ := h
  rw [hall] at hdevices
  subst hdevices hc
  rw [Cmd.wp_bind]
  apply Cmd.wp_mono (drmtapOpen_spec config c' t)
  intro r c'' t' h
  obtain ⟨hfail, hopen⟩ := h
  rw [Cmd.wp_pure]
  rw [hnone] at hfail hopen
  refine ⟨host.entries, rfl, fun hmemory hr => ?_, fun hr => hsame.trans (hfail hr).1, ?_⟩
  · obtain ⟨-, hcards⟩ := ((hfail hr).2 hmemory).resolve_left fun h => h.1 rfl
    apply List.eq_nil_iff_forall_not_mem.mpr
    intro d hd
    obtain ⟨j, hj, hentry⟩ := DeviceHost.mem_entries hd
    exact hcards j hj (DeviceHost.entry_some hentry).1
  · intro o ho
    obtain ⟨path, f, hchosen, hadds, -, -⟩ := hopen o ho
    refine ⟨?_, hsame.trans hadds.closed⟩
    generalize o.devicePath = shown at hchosen
    cases hchosen with
    | named h => exact absurd rfl h
    | told _ huid heuid hpath hnode => exact absurd ⟨huid, heuid, _, hpath, hnode⟩ hauto
    | picked _ hi => exact DeviceHost.picked_firstBusiest hi

/-- A privileged process on the machine with two cards. -/
def twoDevices : DeviceHost where
  toCardHost := twoCards
  effective := some 0x200000
  memory := true
  room := true
  driver _ := some "i915"
  renderNode _ := none
  few := by
    intro path card crtcs hnode hres
    simp only [twoCards] at hnode
    split_ifs at hnode <;> cases hnode <;> cases hres <;> decide

def noFiles : Files := ⟨0, fun _ => none, fun _ => "", ∅, ∅, by simp, by simp, by simp⟩

theorem open_takes_first_busiest_second : Cmd.wp twoDevices.files (do
    let devices ← drmtapListDevices true 16
    let o ← drmtapOpen none
    pure (devices, o)) (fun r _ t => ∃ devices, r.1 = .ok devices ∧
      (twoDevices.memory = true → r.2 = none → devices = []) ∧ (r.2 = none → noFiles.Same t) ∧
      ∀ o, r.2 = some o → FirstBusiest devices o.devicePath ∧ noFiles.Same (t.closed o.drmFd))
    ⟨""⟩ noFiles :=
  open_takes_first_busiest ⟨""⟩ noFiles (by decide) (fun h => h.1 rfl) (by decide)

end Drmtap
