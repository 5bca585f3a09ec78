import Drmtap.Rotation

/-! `drmtap_mode_refresh` in its 64-bit words: the fraction is the rate of the timings, in lowest
terms, and no product on the way wraps. -/
namespace Drmtap

/-- A run of the loop of `refresh_gcd`, from its two variables to the result. -/
inductive GcdRun : ℕ → ℕ → ℕ → Prop where
  | done (a : ℕ) : GcdRun a 0 a
  | round {a b g : ℕ} (hb : b ≠ 0) (hr : GcdRun b (a % b) g) : GcdRun a b g

/-- A product in a `uint64_t`; `none` where it wraps. -/
def mul64 (a b : ℕ) : Option ℕ := if a * b < 2 ^ 64 then some (a * b) else none

/-- `drmtap_mode_refresh` with its pointers, `none` for NULL, and what it leaves in the outputs;
`none` altogether where a product wraps. -/
def drmtapModeRefreshInto (mode : Option ModeTimings) (num den : Option ℕ) :
    Option (ℤ × Option ℕ × Option ℕ) :=
  match mode, num, den with
  | some mode, some _, some _ =>
    if mode.clock = 0 ∨ mode.htotal = 0 ∨ mode.vtotal = 0 then some (- EINVAL, num, den)
    else do
      let n ← mul64 mode.clock.toNat 1000
      let d ← mul64 mode.htotal.toNat mode.vtotal.toNat
      let n ← (if mode.flags &&& drmModeFlagInterlace ≠ 0 then mul64 n 2 else some n)
      let d ← (if mode.flags &&& drmModeFlagDblscan ≠ 0 then mul64 d 2 else some d)
      let d ← (if 1 < mode.vscan then mul64 d mode.vscan.toNat else some d)
      let g := refreshGcd n d
      some (0, some (n / g), some (d / g))
  | _, _, _ => some (- EINVAL, num, den)

namespace ModeTimings
variable (m : ModeTimings)

/-- All three timings are there. -/
def Timed : Prop := m.clock ≠ 0 ∧ m.htotal ≠ 0 ∧ m.vtotal ≠ 0

def fields : ℕ := if m.flags &&& drmModeFlagInterlace ≠ 0 then 2 else 1

def doublings : ℕ := if m.flags &&& drmModeFlagDblscan ≠ 0 then 2 else 1

def scans : ℕ := if 1 < m.vscan then m.vscan.toNat else 1

/-- The pixel clock in hertz, for each field. -/
def pixels : ℕ := m.clock.toNat * 1000 * m.fields

/-- The pixels of a frame, its blanking included, as often as they are scanned. -/
def total : ℕ := m.htotal.toNat * m.vtotal.toNat * m.doublings * m.scans

/-- The refresh in hertz. -/
def refresh : ℚ := m.pixels / m.total

variable {m}

theorem pixels_lt : m.clock.toNat * 1000 * m.fields < 2 ^ 64 := by
  have hc := m.clock.toNat_lt
  have hf : m.fields ≤ 2 := by
    unfold fields
    split <;> omega
  calc m.clock.toNat * 1000 * m.fields ≤ m.clock.toNat * 1000 * 2 := Nat.mul_le_mul_left _ hf
    _ < 2 ^ 64 := by omega

theorem total_lt : m.htotal.toNat * m.vtotal.toNat * m.doublings * m.scans < 2 ^ 64 := by
  have hd : m.doublings ≤ 2 := by
    unfold doublings
    split <;> omega
  have hs : m.scans ≤ 2 ^ 16 := by
    have hv := m.vscan.toNat_lt
    unfold scans
    split <;> omega
  calc m.htotal.toNat * m.vtotal.toNat * m.doublings * m.scans
      ≤ 2 ^ 16 * 2 ^ 16 * 2 * 2 ^ 16 := by
        have hh := m.htotal.toNat_lt.le
        have hv := m.vtotal.toNat_lt.le
        gcongr
    _ < 2 ^ 64 := by norm_num

theorem scans_pos : 0 < m.scans := by
  unfold scans
  split
  next h =>
    have h1 : 1 < m.vscan.toNat := UInt16.lt_iff_toNat_lt.mp h
    omega
  next => omega

theorem Timed.total_pos (h : m.Timed) : 0 < m.total := by
  obtain ⟨-, hh, hv⟩ := h
  have hh' : m.htotal.toNat ≠ 0 := fun h0 => hh (UInt16.toNat_inj.mp h0)
  have hv' : m.vtotal.toNat ≠ 0 := fun h0 => hv (UInt16.toNat_inj.mp h0)
  have hd : 0 < m.doublings := by
    unfold doublings
    split <;> omega
  have hs := scans_pos (m := m)
  unfold total
  positivity

end ModeTimings

/-! The loop of the code is the algorithm of Euclid. -/

theorem gcdRun (a b : ℕ) : GcdRun a b (Nat.gcd a b) := by
  rw [← refreshGcd_eq]
  induction a, b using refreshGcd.induct with
  | case1 a =>
    have hz : refreshGcd a 0 = a := by simp [refreshGcd]
    rw [hz]
    exact .done a
  | case2 a b h ih =>
    rw [refreshGcd, if_neg h]
    exact .round h ih

/-! The products -/

theorem mul64_of_lt {a b : ℕ} (h : a * b < 2 ^ 64) : mul64 a b = some (a * b) := if_pos h

/-- An optional factor. -/
theorem mul64_factor {c : Prop} [Decidable c] {n k : ℕ} (h : n * (if c then k else 1) < 2 ^ 64) :
    (if c then mul64 n k else some n) = some (n * if c then k else 1) := by
  split
  next hc =>
    rw [if_pos hc] at h
    exact mul64_of_lt h
  next => rw [Nat.mul_one]

/-- What is left of a product below 2^64 without its last factor. -/
theorem lt_of_mul_lt {a b n : ℕ} (hb : 0 < b) (h : a * b < n) : a < n :=
  (Nat.le_mul_of_pos_right a hb).trans_lt h

theorem drmtapModeRefreshInto_timed {mode : ModeTimings} (h : mode.Timed) (num den : ℕ) :
    drmtapModeRefreshInto (some mode) (some num) (some den) =
      some (0, some (mode.pixels / Nat.gcd mode.pixels mode.total),
        some (mode.total / Nat.gcd mode.pixels mode.total)) := by
  have hvalid : ¬ (mode.clock = 0 ∨ mode.htotal = 0 ∨ mode.vtotal = 0) := by
    rcases h with ⟨h1, h2, h3⟩
    tauto
  have hd : 0 < mode.doublings := by
    unfold ModeTimings.doublings
    split <;> omega
  have hf : 0 < mode.fields := by
    unfold ModeTimings.fields
    split <;> omega
  have hpixels := ModeTimings.pixels_lt (m := mode)
  have htotal := ModeTimings.total_lt (m := mode)
  have hdoubled := lt_of_mul_lt ModeTimings.scans_pos htotal
  have hn := mul64_of_lt (lt_of_mul_lt hf hpixels)
  have hd := mul64_of_lt (lt_of_mul_lt hd hdoubled)
  have hinterlace : (if mode.flags &&& drmModeFlagInterlace ≠ 0 then
      mul64 (mode.clock.toNat * 1000) 2 else some (mode.clock.toNat * 1000)) =
        some mode.pixels := mul64_factor hpixels
  have hdblscan : (if mode.flags &&& drmModeFlagDblscan ≠ 0 then
      mul64 (mode.htotal.toNat * mode.vtotal.toNat) 2
        else some (mode.htotal.toNat * mode.vtotal.toNat)) =
        some (mode.htotal.toNat * mode.vtotal.toNat * mode.doublings) := mul64_factor hdoubled
  have hvscan : (if 1 < mode.vscan then
      mul64 (mode.htotal.toNat * mode.vtotal.toNat * mode.doublings) mode.vscan.toNat
        else some (mode.htotal.toNat * mode.vtotal.toNat * mode.doublings)) =
        some mode.total := mul64_factor htotal
  simp only [drmtapModeRefreshInto, if_neg hvalid, hn, hd, hinterlace, hdblscan, hvscan,
    Option.bind_eq_bind, Option.bind_some, refreshGcd_eq]

/-- The pair of Rotation's `drmtap_crtc_refresh` is what the outputs hold. -/
theorem drmtapModeRefreshInto_eq (mode : ModeTimings) (num den : ℕ) :
    drmtapModeRefreshInto (some mode) (some num) (some den) =
      some (match drmtapModeRefresh mode with
        | some (n, d) => (0, some n, some d)
        | none => (- EINVAL, some num, some den)) := by
  by_cases h : mode.Timed
  · rw [drmtapModeRefreshInto_timed h]
    have hvalid : ¬ (mode.clock = 0 ∨ mode.htotal = 0 ∨ mode.vtotal = 0) := by
      rcases h with ⟨h1, h2, h3⟩
      tauto
    simp only [drmtapModeRefresh, if_neg hvalid, refreshGcd_eq, ModeTimings.pixels,
      ModeTimings.total, ModeTimings.fields, ModeTimings.doublings, ModeTimings.scans, mul_ite,
      mul_one]
  · have hvoid : mode.clock = 0 ∨ mode.htotal = 0 ∨ mode.vtotal = 0 := by
      unfold ModeTimings.Timed at h
      tauto
    simp [drmtapModeRefreshInto, drmtapModeRefresh, hvoid]

/-- A mode with its timings has the refresh that they give, in lowest terms and with no product
wrapped; another is refused and leaves the outputs alone. The loop of the gcd ends from every pair. -/
theorem mode_refresh_exact :
    (∀ (mode : ModeTimings) (num den : ℕ),
      (mode.Timed → ∃ n d,
        drmtapModeRefreshInto (some mode) (some num) (some den) = some (0, some n, some d) ∧
          (n : ℚ) / d = mode.refresh ∧ n.Coprime d ∧ d ≠ 0) ∧
      (¬ mode.Timed → drmtapModeRefreshInto (some mode) (some num) (some den) =
        some (- EINVAL, some num, some den))) ∧
    ∀ a b : ℕ, ∃ g, GcdRun a b g := by
  constructor
  · intro mode num den
    constructor
    · intro h
      have hpos := h.total_pos
      have hg : 0 < Nat.gcd mode.pixels mode.total := Nat.gcd_pos_of_pos_right _ hpos
      refine ⟨_, _, drmtapModeRefreshInto_timed h num den, ?_, ?_, ?_⟩
      · rw [Nat.cast_div_charZero (Nat.gcd_dvd_left _ _), Nat.cast_div_charZero (Nat.gcd_dvd_right _ _)]
        exact div_div_div_cancel_right₀ (Nat.cast_ne_zero.mpr hg.ne') _ _
      · exact Nat.coprime_div_gcd_div_gcd hg
      · have hle : Nat.gcd mode.pixels mode.total ≤ mode.total := Nat.gcd_le_right _ hpos
        exact (Nat.div_pos hle hg).ne'
    · intro h
      have hvoid : mode.clock = 0 ∨ mode.htotal = 0 ∨ mode.vtotal = 0 := by
        unfold ModeTimings.Timed at h
        tauto
      rw [drmtapModeRefreshInto_eq]
      simp [drmtapModeRefresh, hvoid]
  · intro a b
    exact ⟨_, gcdRun a b⟩

end Drmtap
