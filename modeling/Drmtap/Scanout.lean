import Drmtap.Kms

/-! The width that a CRTC scans out of a framebuffer, and its memo in the context. -/
namespace Drmtap

open Memory Effect

/-- `drmtap_plane_rect` -/
structure PlaneRect where
  valid : Bool
  srcX : UInt32
  srcY : UInt32
  srcW : UInt32
  srcH : UInt32
  crtcW : UInt32
  crtcH : UInt32
deriving DecidableEq

def PlaneRect.zero : PlaneRect := ⟨false, 0, 0, 0, 0, 0, 0⟩

/-- `drmtap_scanout_why` -/
inductive ScanoutWhy where
  | asIs
  | narrowed
  | offsetUnsupported
  | tiledNotNarrowed
  | scalingNotNarrowed
  | noPlaneRect
deriving DecidableEq

/-- The decision alone: the width to report and the branch that was taken. -/
def drmtapScanoutWidthOf (fbWidth : UInt32) (rect : Option PlaneRect) (layoutIsLinear : Bool) :
    UInt32 × ScanoutWhy :=
  match rect with
  | none => (fbWidth, if layoutIsLinear ∧ 0 < fbWidth then .noPlaneRect else .asIs)
  | some r =>
    if ¬ layoutIsLinear then
      (fbWidth, if r.valid ∧ 0 < r.srcW ∧ r.srcW < fbWidth then .tiledNotNarrowed else .asIs)
    else if ¬ r.valid then (fbWidth, if 0 < fbWidth then .noPlaneRect else .asIs)
    else if r.srcX ≠ 0 ∨ r.srcY ≠ 0 then (fbWidth, .offsetUnsupported)
    else if r.srcW ≠ r.crtcW ∨ r.srcH ≠ r.crtcH then (fbWidth, .scalingNotNarrowed)
    else if 0 < r.srcW ∧ r.srcW < fbWidth then (r.srcW, .narrowed)
    else (fbWidth, .asIs)

/-- One property of the rectangle, and the bit that says it was there. The source rectangle is
16.16 fixed point. -/
def PlaneRect.put (name : String) (v : UInt64) (acc : PlaneRect × ℕ) : PlaneRect × ℕ :=
  let (rect, got) := acc
  if name = "SRC_X" then ({ rect with srcX := (v >>> 16).toUInt32 }, got ||| 1)
  else if name = "SRC_Y" then ({ rect with srcY := (v >>> 16).toUInt32 }, got ||| 2)
  else if name = "SRC_W" then ({ rect with srcW := (v >>> 16).toUInt32 }, got ||| 4)
  else if name = "SRC_H" then ({ rect with srcH := (v >>> 16).toUInt32 }, got ||| 8)
  else if name = "CRTC_W" then ({ rect with crtcW := v.toUInt32 }, got ||| 16)
  else if name = "CRTC_H" then ({ rect with crtcH := v.toUInt32 }, got ||| 32)
  else (rect, got)

def readRectProps : List (UInt32 × UInt64) → PlaneRect × ℕ → M (PlaneRect × ℕ)
  | [], acc => pure acc
  | (id, v) :: props, acc => do
    match ← sys (.getProperty id) with
    | none => readRectProps props acc
    | some name => readRectProps props (PlaneRect.put name v acc)

def Ctx.tryAtomicCap (c : Ctx) : Ctx := { c with atomicCapTried := true }

/-- Asks for the atomic capability, once in the life of a context. -/
def requestAtomicCap : M Unit := do
  if (← getCtx).atomicCapTried then pure ()
  else do
    modifyCtx Ctx.tryAtomicCap
    let _ ← sys (.setClientCap .atomic)
    pure ()

/-- The rectangle of a plane; not valid when a property is missing. -/
def readRectOf (planeId : UInt32) : M PlaneRect := do
  if planeId = 0 then pure .zero
  else
    match ← sys (.objectGetProperties planeId .plane) with
    | none => pure .zero
    | some props => do
      let (rect, got) ← readRectProps props (.zero, 0)
      pure { rect with valid := got = 63 }

def readPrimaryPlaneRect : M PlaneRect := do
  requestAtomicCap
  let planeId ← findPrimaryPlane
  readRectOf planeId

/-- The layouts whose width only the output depends on. -/
def widthIsFree (modifier : UInt64) : Bool :=
  modifier = drmFormatModLinear ∨ modifier = drmFormatModInvalid

namespace Ctx

/-- The memo is for this mode width, framebuffer width and modifier, on the CRTC of the
context. -/
def swHit (c : Ctx) (hdisplay fbWidth : UInt32) (modifier : UInt64) : Prop :=
  c.swCached = true ∧ c.swKeyCrtc = c.crtcId ∧ c.swKeyHdisplay = hdisplay ∧
    c.swKeyFbWidth = fbWidth ∧ c.swKeyModifier = modifier

instance (c : Ctx) (hdisplay fbWidth : UInt32) (modifier : UInt64) :
    Decidable (c.swHit hdisplay fbWidth modifier) :=
  inferInstanceAs (Decidable (_ ∧ _))

def memoise (c : Ctx) (hdisplay fbWidth : UInt32) (modifier : UInt64) (out : UInt32) : Ctx :=
  { c with
    swKeyCrtc := c.crtcId
    swKeyHdisplay := hdisplay
    swKeyFbWidth := fbWidth
    swKeyModifier := modifier
    swCachedWidth := out
    swCached := true }

end Ctx

/-- The decision for the rectangle as it stands, kept in the memo. -/
def decideScanout (hdisplay fbWidth : UInt32) (modifier : UInt64) : M UInt32 := do
  let rect ← readPrimaryPlaneRect
  let out := (drmtapScanoutWidthOf fbWidth (some rect) (widthIsFree modifier)).1
  modifyCtx (·.memoise hdisplay fbWidth modifier out)
  pure out

def drmtapScanoutWidth (fbWidth : UInt32) (modifier : UInt64) : M UInt32 := do
  let ctx ← getCtx
  if ctx.crtcId = 0 then pure fbWidth
  else
    match ← sys (.getCrtc ctx.crtcId) with
    | none => pure fbWidth
    | some crtc =>
      let hdisplay := crtc.hdisplay.toUInt32
      if ¬ (crtc.modeValid ∧ 0 < hdisplay ∧ hdisplay < fbWidth) then pure fbWidth
      else if ctx.swHit hdisplay fbWidth modifier then pure ctx.swCachedWidth
      else decideScanout hdisplay fbWidth modifier

/-! What a call may do to the context. -/

/-- The memo holds a width that is there to be seen. -/
def Ctx.MemoOk (c : Ctx) : Prop :=
  c.swCached = true → 0 < c.swCachedWidth ∧ c.swCachedWidth ≤ c.swKeyFbWidth

/-- The context may have selected its CRTC, asked for the atomic capability and decided a
width. -/
structure Scans (m m' : Machine) : Prop where
  heap : m'.heap = m.heap
  ctx : m'.ctx =
    { m.ctx with
      crtcId := m'.ctx.crtcId
      atomicCapTried := m'.ctx.atomicCapTried
      swKeyCrtc := m'.ctx.swKeyCrtc
      swKeyHdisplay := m'.ctx.swKeyHdisplay
      swKeyFbWidth := m'.ctx.swKeyFbWidth
      swKeyModifier := m'.ctx.swKeyModifier
      swCachedWidth := m'.ctx.swCachedWidth
      swCached := m'.ctx.swCached }
  memo : m.ctx.MemoOk → m'.ctx.MemoOk

instance : IsPreorder Machine Scans where
  refl _ := ⟨rfl, rfl, id⟩
  trans _ _ _ h₁ h₂ := ⟨h₂.heap.trans h₁.heap, by rw [h₂.ctx, h₁.ctx], h₂.memo ∘ h₁.memo⟩

theorem Scans.of_selects {m m' : Machine} (h : Selects m m') : Scans m m' where
  heap := h.heap
  ctx := by
    rw [h.ctx]
  memo := by
    rw [h.ctx]
    exact id

/-- The calls that look at the scanout. -/
def ScanoutOp (o : Op) : Prop := KmsOp o ∨ o = .setClientCap .atomic

theorem readRectProps_reads (props : List (UInt32 × UInt64)) (acc : PlaneRect × ℕ) :
    Cmd.Reads ScanoutOp (readRectProps props acc) := by
  induction props generalizing acc with
  | nil => exact .pure _
  | cons p props ih =>
    apply Cmd.Reads.bind (.call (.inl trivial))
    rintro (_ | name) <;> exact ih _

theorem readRectOf_reads (planeId : UInt32) : Cmd.Reads ScanoutOp (readRectOf planeId) := by
  apply Cmd.Reads.ite (.pure _)
  apply Cmd.Reads.bind (.call (.inl trivial))
  rintro (_ | props)
  · exact .pure _
  · exact .bind (readRectProps_reads _ _) fun _ => .pure _

theorem readPrimaryPlaneRect_steps : Cmd.Steps ScanoutOp Scans readPrimaryPlaneRect := by
  have hcap : Cmd.Steps ScanoutOp Scans requestAtomicCap := by
    refine .bind (fun m => refl_of Scans m) fun ctx => .ite (.pure _) ?_
    refine .bind (.modify fun m => ⟨rfl, rfl, id⟩) fun _ => ?_
    exact .bind (.call (.inr rfl)) fun _ => .pure _
  have hfind : Cmd.Steps ScanoutOp Scans findPrimaryPlane :=
    findPrimaryPlane_steps.mono (fun _ => .inl) fun _ _ => Scans.of_selects
  exact .bind hcap fun _ => .bind hfind fun planeId => .of_reads (readRectOf_reads planeId)

theorem drmtapScanoutWidthOf_bounds {fbWidth : UInt32} (h0 : 0 < fbWidth)
    (rect : Option PlaneRect) (linear : Bool) :
    0 < (drmtapScanoutWidthOf fbWidth rect linear).1 ∧
      (drmtapScanoutWidthOf fbWidth rect linear).1 ≤ fbWidth := by
  have hle : fbWidth ≤ fbWidth := UInt32.le_refl _
  cases rect with
  | none => exact ⟨h0, hle⟩
  | some r =>
    simp only [drmtapScanoutWidthOf, ↓apply_ite Prod.fst]
    by_cases hn : 0 < r.srcW ∧ r.srcW < fbWidth
    · have hsrc : 0 < r.srcW ∧ r.srcW ≤ fbWidth := ⟨hn.1, UInt32.le_of_lt hn.2⟩
      rw [if_pos hn]
      split_ifs <;> first | exact ⟨h0, hle⟩ | exact hsrc
    · simp only [hn, if_false, ite_self]
      exact ⟨h0, hle⟩

/-- The width is narrowed at most. -/
theorem drmtapScanoutWidth_spec {m : Machine} (hm : m.ctx.MemoOk) (fbWidth : UInt32)
    (modifier : UInt64) :
    Cmd.wp (.only ScanoutOp fun _ _ => True) (drmtapScanoutWidth fbWidth modifier)
      (fun w m' _ => Scans m m' ∧ (0 < fbWidth → 0 < w) ∧ w ≤ fbWidth) m () := by
  have hsame : Scans m m ∧ (0 < fbWidth → 0 < fbWidth) ∧ fbWidth ≤ fbWidth :=
    ⟨refl_of Scans m, id, UInt32.le_refl _⟩
  unfold drmtapScanoutWidth
  simp only [Cmd.wp_bind, wp_getCtx, Cmd.wp_ite, Cmd.wp_pure, Cmd.wp_call]
  refine ⟨fun _ => hsame, fun _ => ⟨.inl trivial, ?_⟩⟩
  rintro (_ | crtc) _ -
  · exact hsame
  · simp only [Cmd.wp_ite, Cmd.wp_pure, not_not]
    refine ⟨fun _ => hsame, fun hworth => ⟨fun hhit => ⟨refl_of Scans m, ?_⟩, fun _ => ?_⟩⟩
    · have := hm hhit.1
      rw [hhit.2.2.2.1] at this
      exact ⟨fun _ => this.1, this.2⟩
    · have h0 : 0 < fbWidth := UInt32.lt_trans hworth.2.1 hworth.2.2
      rw [decideScanout, Cmd.wp_bind]
      refine Cmd.wp_mono (readPrimaryPlaneRect_steps m) fun rect m₁ _ hs => ?_
      have hw := drmtapScanoutWidthOf_bounds h0 (some rect) (widthIsFree modifier)
      have hmemo (out : UInt32) (h : 0 < out ∧ out ≤ fbWidth) :
          Scans m₁ { m₁ with ctx := m₁.ctx.memoise crtc.hdisplay.toUInt32 fbWidth modifier out } :=
        ⟨rfl, rfl, fun _ _ => h⟩
      exact ⟨trans_of Scans hs (hmemo _ hw), fun _ => hw.1, hw.2⟩

section Returns

theorem readRectProps_returns (props : List (UInt32 × UInt64)) (acc : PlaneRect × ℕ) :
    Cmd.Returns (readRectProps props acc) := by
  induction props generalizing acc with
  | nil => exact .pure _
  | cons p props ih =>
    apply Cmd.Returns.bind (.call _)
    rintro (_ | name) <;> exact ih _

theorem readRectOf_returns (planeId : UInt32) : Cmd.Returns (readRectOf planeId) := by
  apply Cmd.Returns.ite (.pure _)
  apply Cmd.Returns.bind (.call _)
  rintro (_ | props)
  · exact .pure _
  · exact .bind (readRectProps_returns _ _) fun _ => .pure _

theorem readPrimaryPlaneRect_returns : Cmd.Returns readPrimaryPlaneRect :=
  .bind (.bind getCtx_returns fun _ => .ite (.pure _)
    (.bind (modifyCtx_returns _) fun _ => .bind (.call _) fun _ => .pure _))
    fun _ => .bind findPrimaryPlane_returns readRectOf_returns

end Returns

/-! Runs of one context over a changing device. -/

/-- A device as it stands during one call. -/
abbrev Device := (o : Op) → Ans o

/-- The result of a command on a device that stands still. -/
def Device.Gives {α : Type} (dev : Device) (m : M α) (st : Machine) (a : α) (st' : Machine) :
    Prop :=
  m.exec 0 (Cmd.still dev) st () = some ((a, st'), ())

/-- The memo fields of two contexts agree. -/
def Ctx.SameMemo (c c' : Ctx) : Prop :=
  c'.swCached = c.swCached ∧ c'.swKeyCrtc = c.swKeyCrtc ∧ c'.swKeyHdisplay = c.swKeyHdisplay ∧
    c'.swKeyFbWidth = c.swKeyFbWidth ∧ c'.swKeyModifier = c.swKeyModifier ∧
    c'.swCachedWidth = c.swCachedWidth

/-- The selected CRTC has a valid mode of this width, narrower than the framebuffer. -/
def Device.NarrowerMode (dev : Device) (crtcId fbWidth hdisplay : UInt32) : Prop :=
  crtcId ≠ 0 ∧ ∃ crtc, dev (.getCrtc crtcId) = some crtc ∧ crtc.modeValid ∧
    crtc.hdisplay.toUInt32 = hdisplay ∧ 0 < hdisplay ∧ hdisplay < fbWidth

/-- The width decided for a rectangle. -/
def freshWidth (fbWidth : UInt32) (modifier : UInt64) (rect : PlaneRect) : UInt32 :=
  (drmtapScanoutWidthOf fbWidth (some rect) (widthIsFree modifier)).1

/-- The plane scans out the left part of a framebuffer, without an offset and without scaling. -/
structure PlaneRect.Crops (rect : PlaneRect) (fbWidth : UInt32) : Prop where
  valid : rect.valid = true
  left : rect.srcX = 0
  top : rect.srcY = 0
  width : rect.srcW = rect.crtcW
  height : rect.srcH = rect.crtcH
  pos : 0 < rect.srcW
  lt : rect.srcW < fbWidth

/-- Neither rectangle crops a framebuffer, or both do to one width. -/
def PlaneRect.SameCrop (fbWidth : UInt32) (seen rect : PlaneRect) : Prop :=
  (seen.Crops fbWidth ↔ rect.Crops fbWidth) ∧ (seen.Crops fbWidth → seen.srcW = rect.srcW)

theorem freshWidth_tiled {fbWidth : UInt32} {modifier : UInt64} (h : widthIsFree modifier = false)
    (rect : PlaneRect) : freshWidth fbWidth modifier rect = fbWidth := by
  simp [freshWidth, drmtapScanoutWidthOf, h]

theorem freshWidth_crops {fbWidth : UInt32} {modifier : UInt64} {rect : PlaneRect}
    (h : widthIsFree modifier = true) (hc : rect.Crops fbWidth) :
    freshWidth fbWidth modifier rect = rect.srcW := by
  have hbounds : 0 < rect.srcW ∧ rect.srcW < fbWidth := ⟨hc.pos, hc.lt⟩
  simp [freshWidth, drmtapScanoutWidthOf, h, hc.valid, hc.left, hc.top, hc.width.symm, hc.height,
    hbounds]

theorem freshWidth_whole {fbWidth : UInt32} {modifier : UInt64} {rect : PlaneRect}
    (hc : ¬ rect.Crops fbWidth) : freshWidth fbWidth modifier rect = fbWidth := by
  unfold freshWidth drmtapScanoutWidthOf
  dsimp only
  split_ifs with hlayout hvalid hoffset hscale hwidth
  all_goals first | rfl | skip
  exact absurd ⟨by simpa using hvalid, (not_not.mp (not_or.mp hoffset).1),
    (not_not.mp (not_or.mp hoffset).2), (not_not.mp (not_or.mp hscale).1),
    (not_not.mp (not_or.mp hscale).2), hwidth.1, hwidth.2⟩ hc

/-- When the decision is the same for two rectangles. -/
theorem freshWidth_eq_iff {fbWidth : UInt32} {modifier : UInt64} {seen rect : PlaneRect} :
    freshWidth fbWidth modifier seen = freshWidth fbWidth modifier rect ↔
      (widthIsFree modifier = true → seen.SameCrop fbWidth rect) := by
  by_cases hfree : widthIsFree modifier = true
  · by_cases hseen : seen.Crops fbWidth <;> by_cases hrect : rect.Crops fbWidth
    · rw [freshWidth_crops hfree hseen, freshWidth_crops hfree hrect]
      exact ⟨fun h _ => ⟨iff_of_true hseen hrect, fun _ => h⟩, fun h => (h hfree).2 hseen⟩
    · rw [freshWidth_crops hfree hseen, freshWidth_whole hrect]
      exact iff_of_false (UInt32.ne_of_lt hseen.lt) fun h => hrect ((h hfree).1.mp hseen)
    · rw [freshWidth_whole hseen, freshWidth_crops hfree hrect]
      exact iff_of_false (UInt32.ne_of_lt hrect.lt).symm fun h => hseen ((h hfree).1.mpr hrect)
    · rw [freshWidth_whole hseen, freshWidth_whole hrect]
      exact iff_of_true rfl fun _ => ⟨iff_of_false hseen hrect, fun h => absurd h hseen⟩
  · have htiled : widthIsFree modifier = false := by simpa using hfree
    rw [freshWidth_tiled htiled, freshWidth_tiled htiled]
    exact iff_of_true rfl fun h => absurd h hfree

/-- One step in the life of a context: a call of `drmtap_scanout_width`, on the device as it
stands, or anything else, which leaves the memo alone. With the context goes the rectangle the
last decision was made for. -/
inductive ScanoutStep : Machine × PlaneRect → Machine × PlaneRect → Prop where
  | decided {m m' m₁ : Machine} {seen rect : PlaneRect} {dev : Device} {fbWidth w hdisplay : UInt32}
      {modifier : UInt64} (hmode : dev.NarrowerMode m.ctx.crtcId fbWidth hdisplay)
      (hmiss : ¬ m.ctx.swHit hdisplay fbWidth modifier)
      (hrect : dev.Gives readPrimaryPlaneRect m rect m₁)
      (hcall : dev.Gives (drmtapScanoutWidth fbWidth modifier) m w m') :
      ScanoutStep (m, seen) (m', rect)
  | served {m m' : Machine} {seen : PlaneRect} {dev : Device} {fbWidth w : UInt32}
      {modifier : UInt64} (hnone : ∀ hdisplay, dev.NarrowerMode m.ctx.crtcId fbWidth hdisplay →
        m.ctx.swHit hdisplay fbWidth modifier)
      (hcall : dev.Gives (drmtapScanoutWidth fbWidth modifier) m w m') :
      ScanoutStep (m, seen) (m', seen)
  | other {m m' : Machine} {seen : PlaneRect} (h : m.ctx.SameMemo m'.ctx) :
      ScanoutStep (m, seen) (m', seen)

/-- What the memo holds was decided for the rectangle seen last. -/
def MemoFor (c : Ctx) (seen : PlaneRect) : Prop :=
  c.swCached = true → c.swCachedWidth = freshWidth c.swKeyFbWidth c.swKeyModifier seen

section
variable {m : Machine} {dev : Device} {fbWidth hdisplay : UInt32} {modifier : UInt64}

/-- Without a narrower mode, or with a memo for it, the call reads no rectangle. -/
theorem drmtapScanoutWidth_served
    (hnone : ∀ hdisplay, dev.NarrowerMode m.ctx.crtcId fbWidth hdisplay →
      m.ctx.swHit hdisplay fbWidth modifier) :
    ∃ w, dev.Gives (drmtapScanoutWidth fbWidth modifier) m w m ∧
      ∀ hdisplay, dev.NarrowerMode m.ctx.crtcId fbWidth hdisplay → w = m.ctx.swCachedWidth := by
  unfold drmtapScanoutWidth Device.Gives
  rw [Cmd.exec_bind_of (a := m.ctx) (t := m) (u := ()) rfl]
  split
  next h0 => exact ⟨fbWidth, rfl, fun _ h => absurd h0 h.1⟩
  next h0 =>
    rw [Cmd.exec_bind_of (a := dev (.getCrtc m.ctx.crtcId)) (t := m) (u := ()) rfl]
    cases hc : dev (.getCrtc m.ctx.crtcId) with
    | none =>
      refine ⟨fbWidth, rfl, ?_⟩
      rintro _ ⟨-, crtc, hcrtc, -⟩
      exact absurd (hc.symm.trans hcrtc) (by simp)
    | some crtc =>
      by_cases hw : crtc.modeValid ∧ 0 < crtc.hdisplay.toUInt32 ∧ crtc.hdisplay.toUInt32 < fbWidth
      · have hn : dev.NarrowerMode m.ctx.crtcId fbWidth crtc.hdisplay.toUInt32 :=
          ⟨h0, crtc, hc, hw.1, rfl, hw.2⟩
        refine ⟨m.ctx.swCachedWidth, ?_, fun _ _ => rfl⟩
        simp only [not_not.mpr hw, if_false, hnone _ hn, if_true]
        rfl
      · refine ⟨fbWidth, ?_, ?_⟩
        · simp only [hw, not_false_eq_true, if_true]
          rfl
        · rintro _ ⟨-, crtc', hcrtc, hv, rfl, hpos⟩
          obtain rfl := Option.some.inj (hc.symm.trans hcrtc)
          exact absurd ⟨hv, hpos⟩ hw

/-- Otherwise it reads the rectangle, and keeps the decision for it. -/
theorem drmtapScanoutWidth_decided (hmode : dev.NarrowerMode m.ctx.crtcId fbWidth hdisplay)
    (hmiss : ¬ m.ctx.swHit hdisplay fbWidth modifier) {rect : PlaneRect} {m₁ : Machine}
    (hrect : dev.Gives readPrimaryPlaneRect m rect m₁) :
    dev.Gives (drmtapScanoutWidth fbWidth modifier) m (freshWidth fbWidth modifier rect)
      { m₁ with ctx := m₁.ctx.memoise hdisplay fbWidth modifier (freshWidth fbWidth modifier rect) } := by
  obtain ⟨h0, crtc, hc, hv, rfl, hpos⟩ := hmode
  unfold drmtapScanoutWidth Device.Gives
  rw [Cmd.exec_bind_of (a := m.ctx) (t := m) (u := ()) rfl, if_neg h0,
    Cmd.exec_bind_of (a := dev (.getCrtc m.ctx.crtcId)) (t := m) (u := ()) rfl, hc]
  simp only [not_not.mpr (⟨hv, hpos⟩ : _ ∧ _), if_false, hmiss]
  rw [decideScanout, Cmd.exec_bind_of hrect]
  rfl

end

/-- One step keeps the memo in step with the rectangle it was filled from. -/
theorem ScanoutStep.memoFor {s t : Machine × PlaneRect} (hst : ScanoutStep s t)
    (h : MemoFor s.1.ctx s.2) : MemoFor t.1.ctx t.2 := by
  cases hst with
  | decided hmode hmiss hrect hcall =>
    have hcall' := drmtapScanoutWidth_decided hmode hmiss hrect
    obtain ⟨⟨⟩, -⟩ := Prod.mk.inj (Option.some.inj (hcall.symm.trans hcall'))
    exact fun _ => rfl
  | served hnone hcall =>
    obtain ⟨w, hcall', -⟩ := drmtapScanoutWidth_served hnone
    obtain ⟨⟨⟩, -⟩ := Prod.mk.inj (Option.some.inj (hcall.symm.trans hcall'))
    exact h
  | other hsame =>
    obtain ⟨hc, -, -, hw, hm, hcw⟩ := hsame
    intro hcached
    rw [hcw, hw, hm]
    exact h (hc ▸ hcached)

/-- A memo is always the decision for the rectangle it was filled from. -/
theorem memoFor_of_run {m₀ : Machine} {seen₀ : PlaneRect} {t : Machine × PlaneRect}
    (h0 : m₀.ctx.swCached = false) (hrun : Relation.ReflTransGen ScanoutStep (m₀, seen₀) t) :
    MemoFor t.1.ctx t.2 := by
  induction hrun with
  | refl => exact fun h => absurd (h0.symm.trans h) (by simp)
  | tail _ hst ih => exact hst.memoFor ih

/-- The memoised width is the one decided afresh unless the memo is hit, for a layout that may be
cropped, and the rectangle that it was filled from and the one that is readable now crop the
framebuffer differently. -/
theorem scanout_width_fresh_iff {m₀ : Machine} {seen₀ : PlaneRect} {t : Machine × PlaneRect}
    {dev : Device} {fbWidth hdisplay : UInt32} {modifier : UInt64}
    (h0 : m₀.ctx.swCached = false) (hrun : Relation.ReflTransGen ScanoutStep (m₀, seen₀) t)
    (hmode : dev.NarrowerMode t.1.ctx.crtcId fbWidth hdisplay) :
    ∃ w m' rect m₁, dev.Gives (drmtapScanoutWidth fbWidth modifier) t.1 w m' ∧
      dev.Gives readPrimaryPlaneRect t.1 rect m₁ ∧
      (w = freshWidth fbWidth modifier rect ↔
        (t.1.ctx.swHit hdisplay fbWidth modifier → widthIsFree modifier = true →
          t.2.SameCrop fbWidth rect)) := by
  obtain ⟨rect, m₁, hrect⟩ := readPrimaryPlaneRect_returns dev t.1
  by_cases hhit : t.1.ctx.swHit hdisplay fbWidth modifier
  · have hnone : ∀ hd, dev.NarrowerMode t.1.ctx.crtcId fbWidth hd →
        t.1.ctx.swHit hd fbWidth modifier := by
      rintro hd ⟨-, crtc, hc, -, rfl, -⟩
      obtain ⟨-, crtc', hc', -, rfl, -⟩ := hmode
      obtain rfl := Option.some.inj (hc.symm.trans hc')
      exact hhit
    obtain ⟨w, hcall, hw⟩ := drmtapScanoutWidth_served hnone
    refine ⟨w, _, rect, m₁, hcall, hrect, ?_⟩
    have hmemo := memoFor_of_run h0 hrun hhit.1
    rw [hhit.2.2.2.1, hhit.2.2.2.2] at hmemo
    rw [hw hdisplay hmode, hmemo, freshWidth_eq_iff]
    exact ⟨fun h _ => h, fun h => h hhit⟩
  · exact ⟨_, _, rect, m₁, drmtapScanoutWidth_decided hmode hhit hrect, hrect,
      fun _ h => absurd h hhit, fun _ => rfl⟩

/-! A padded panel whose plane rectangle is read, or is not for one call. -/

def Device.blank : Device
  | .getPlaneResources | .getFB2 _ | .primeHandleToFD _ | .modeMapDumb _ | .mmap _ _ _
  | .helperSpawn | .send _ _ | .sendmsg _ _ _ | .recv _ _ | .recvmsg _ _ =>
    .error ⟨2, by decide⟩
  | .getPlane _ | .getResources | .getCrtc _ | .getConnectorCurrent _
  | .objectGetProperties _ _ | .getProperty _ | .getPropertyBlob _ | .virtTransferFromHost _ _ _
  | .virtWait _ | .virtGetParam3D | .fstatSize _ | .malloc _ | .eglRender _ _ _ _ _ _ _ => none
  | .setClientCap _ | .dmabufSyncStart _ | .callocPriv | .forceMmapFail | .eglAvailable =>
    false
  | .gemClose _ | .munmap _ | .close _ | .dmabufSyncEnd _ | .free _ | .freePriv _ | .helperReap
  | .eglThreadCleanup => ()
  | .lseekEnd _ => -1
  | .eglReadback _ => .unchanged
  | .clockMs => 0
  | .errno => 0

/-- A mode 60 wide on CRTC 2, whose plane 1 scans out 60 by 2170 of a wider framebuffer. -/
def paddedPanel (planes : Except Errno (List UInt32)) : Device
  | .getPlaneResources => planes
  | .getPlane _ => some ⟨1, 2, 3⟩
  | .getCrtc _ => some ⟨2, true, 60, ⟨148352, 2200, 1125, 0, 0⟩⟩
  | .objectGetProperties _ _ =>
    some [(0, 1), (1, 0), (2, 0), (3, (60 : UInt64) <<< 16), (4, (2170 : UInt64) <<< 16), (5, 60),
      (6, 2170)]
  | .getProperty id =>
    (["type", "SRC_X", "SRC_Y", "SRC_W", "SRC_H", "CRTC_W", "CRTC_H"] : List String)[id.toNat]?
  | o => Device.blank o

def paddedStart : Machine := ⟨.opened "appletbdrm" 2, .empty⟩

/-- The context once a rectangle could not be read. -/
def paddedAfter : Machine where
  ctx := paddedStart.ctx.tryAtomicCap.memoise 60 64 drmFormatModLinear 64
  heap := .empty

theorem paddedPanel_mode (planes : Except Errno (List UInt32)) :
    (paddedPanel planes).NarrowerMode 2 64 60 :=
  ⟨by decide, ⟨2, true, 60, ⟨148352, 2200, 1125, 0, 0⟩⟩, rfl, rfl, by decide, by decide, by decide⟩

/-- The context once a rectangle was read. -/
def paddedKept : Machine where
  ctx := paddedStart.ctx.tryAtomicCap.memoise 60 64 drmFormatModLinear 60
  heap := .empty

/-- The memo that is filled from a rectangle serves the next call as long as it stands. -/
theorem scanout_width_fresh_iff_padded :
    ScanoutStep (paddedStart, .zero) (paddedKept, ⟨true, 0, 0, 60, 2170, 60, 2170⟩) ∧
      paddedKept.ctx.swHit 60 64 drmFormatModLinear ∧
      ∃ w m' rect m₁,
        (paddedPanel (.ok [1])).Gives (drmtapScanoutWidth 64 drmFormatModLinear) paddedKept w m' ∧
        (paddedPanel (.ok [1])).Gives readPrimaryPlaneRect paddedKept rect m₁ ∧
        w = freshWidth 64 drmFormatModLinear rect := by
  have hfill : (paddedPanel (.ok [1])).Gives readPrimaryPlaneRect paddedStart
      ⟨true, 0, 0, 60, 2170, 60, 2170⟩ { paddedStart with ctx := paddedStart.ctx.tryAtomicCap } := rfl
  have hmiss : ¬ paddedStart.ctx.swHit 60 64 drmFormatModLinear := by decide
  have hstep : ScanoutStep (paddedStart, .zero) (paddedKept, ⟨true, 0, 0, 60, 2170, 60, 2170⟩) :=
    .decided (paddedPanel_mode _) hmiss hfill
      (drmtapScanoutWidth_decided (paddedPanel_mode _) hmiss hfill)
  obtain ⟨w, m', rect, m₁, hcall, hread, hiff⟩ :=
    scanout_width_fresh_iff rfl (.single hstep) (paddedPanel_mode (.ok [1]))
  have hsame : (paddedPanel (.ok [1])).Gives readPrimaryPlaneRect paddedKept
      ⟨true, 0, 0, 60, 2170, 60, 2170⟩ paddedKept := rfl
  obtain ⟨hrect, -⟩ := Prod.mk.inj (Prod.mk.inj (Option.some.inj (hread.symm.trans hsame))).1
  refine ⟨hstep, by decide, w, m', rect, m₁, hcall, hread, hiff.mpr fun _ _ => ?_⟩
  rw [hrect]
  exact ⟨Iff.rfl, fun _ => rfl⟩

/-- The rectangle that one call could not read decides the width of later calls. -/
theorem scanout_width_stale : ¬ ∀ (m₀ : Machine) (seen₀ : PlaneRect) (t : Machine × PlaneRect)
    (dev : Device) (fbWidth hdisplay : UInt32) (modifier : UInt64) (w : UInt32) (m' : Machine)
    (rect : PlaneRect) (m₁ : Machine), m₀.ctx.swCached = false →
    Relation.ReflTransGen ScanoutStep (m₀, seen₀) t →
    dev.NarrowerMode t.1.ctx.crtcId fbWidth hdisplay →
    dev.Gives (drmtapScanoutWidth fbWidth modifier) t.1 w m' →
    dev.Gives readPrimaryPlaneRect t.1 rect m₁ → w = freshWidth fbWidth modifier rect := by
  intro h
  have hrect : (paddedPanel (.error ⟨5, by decide⟩)).Gives readPrimaryPlaneRect paddedStart .zero
      { paddedStart with ctx := paddedStart.ctx.tryAtomicCap } := rfl
  have hmiss : ¬ paddedStart.ctx.swHit 60 64 drmFormatModLinear := by decide
  have hcall := drmtapScanoutWidth_decided (paddedPanel_mode _) hmiss hrect
  have hstep : ScanoutStep (paddedStart, .zero) (paddedAfter, .zero) :=
    .decided (paddedPanel_mode _) hmiss hrect hcall
  have hread : (paddedPanel (.ok [1])).Gives readPrimaryPlaneRect paddedAfter
      ⟨true, 0, 0, 60, 2170, 60, 2170⟩ paddedAfter := rfl
  have hw := h paddedStart .zero (paddedAfter, .zero) (paddedPanel (.ok [1])) 64 60
    drmFormatModLinear 64 _ _ _ rfl (.single hstep) (paddedPanel_mode _) rfl hread
  exact absurd hw (by decide)

end Drmtap
