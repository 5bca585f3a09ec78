import Drmtap.GrabHelper

/-! A grab balances its resources: what it holds on return is what the frame owns. -/
namespace Drmtap

open Memory Effect

namespace FramePriv

/-- What a frame owns. -/
def owned (p : FramePriv) : Multiset Resource :=
  {.record} + (fdOf p.primeFd + (handleOf p.gemHandle +
    (mappingOf p.mapped + windowOf p.syncStarted p.primeFd)))

/-- The record is a block of its own, and so is the mapping. -/
structure Valid (p : FramePriv) (m : Machine) : Prop where
  self : m.heap.Whole p.self
  selfPrivate : m.Private p.self.base
  mapped : ∀ s, p.mapped = some s → m.heap.Whole s ∧ m.Private s.base ∧ s.base ≠ p.self.base ∧
    s.len = p.mappedSize ∧ 0 < p.mappedSize
  window : p.syncStarted = true → 0 ≤ p.primeFd ∧ p.mapped ≠ none

end FramePriv

section Release
variable {egl : Prop} {m : Machine} {rest held : Multiset Resource} {p : FramePriv}

theorem FramePriv.Valid.tunes {m' : Machine} (hv : p.Valid m) (h : Tunes m m') :
    p.Valid m' where
  self := h.heap ▸ hv.self
  selfPrivate := (h.buffers.isPrivate _).mpr hv.selfPrivate
  mapped s hs := by
    obtain ⟨hw, hp, hr⟩ := hv.mapped s hs
    exact ⟨h.heap ▸ hw, (h.buffers.isPrivate _).mpr hp, hr⟩
  window := hv.window

/-- A conversion leaves private blocks as they are. -/
theorem Machine.Private.converts {m' : Machine} {b : ℕ} (hp : m.Private b)
    (hc : Converts m m') (hb : b < m.heap.next) : m'.Private b := by
  refine ⟨fun h => hp.1 (hc.out b hb h), ?_⟩
  rw [hc.ctx]
  exact hp.2

theorem FramePriv.Valid.converts {m' : Machine} (hv : p.Valid m) (hc : Converts m m') :
    p.Valid m' where
  self := hv.self.congr (hc.keep _ hv.self.live.lt_next hv.selfPrivate.1)
  selfPrivate := hv.selfPrivate.converts hc hv.self.live.lt_next
  mapped s hs := by
    obtain ⟨hw, hp, h⟩ := hv.mapped s hs
    exact ⟨hw.congr (hc.keep _ hw.live.lt_next hp.1), hp.converts hc hw.live.lt_next, h⟩
  window := hv.window

/-- The pixels are unmapped, after their window is closed. -/
theorem unmapPriv_lib (hm : m.Ready) (hv : p.Valid m)
    (hh : held = mappingOf p.mapped + (windowOf p.syncStarted p.primeFd + rest)) :
    Cmd.wp (libEnv egl .free) (unmapPriv p)
      (fun _ m' held' => m'.ctx = m.ctx ∧ m'.Ready ∧ m'.heap.Whole p.self ∧ held' = rest)
      m held := by
  unfold unmapPriv
  cases hmap : p.mapped with
  | none =>
    have hs : p.syncStarted = false := by
      by_contra h
      exact (hv.window (by simpa using h)).2 hmap
    refine ⟨rfl, hm, hv.self, ?_⟩
    rw [hh, hmap, hs]
    simp [mappingOf, windowOf]
  | some s =>
    obtain ⟨hw, hp, hne, hlen, hpos⟩ := hv.mapped s hmap
    have hslice : (⟨s.base, p.mappedSize⟩ : Slice) = s := by rw [← hlen]
    have hdone : ({ m with heap := m.heap.release s.base } : Machine).ctx = m.ctx ∧
        ({ m with heap := m.heap.release s.base } : Machine).Ready ∧
        (m.heap.release s.base).Whole p.self ∧ rest = rest :=
      ⟨rfl, hm.release hp, hv.self.congr (Heap.release_block hne.symm), rfl⟩
    rw [hmap] at hh
    simp only [Cmd.wp_ite, Cmd.wp_bind, Cmd.wp_pure, hpos.ne', false_imp_iff, not_false_eq_true,
      true_imp_iff, true_and, hslice]
    constructor
    · rintro ⟨hsync, -⟩
      rw [hsync] at hh
      refine lib_give rfl (fun _ => rfl) trivial ?_ fun _ => lib_munmap hw rfl hdone
      rw [hh]
      simp only [mappingOf, windowOf, Option.isSome_some, if_true]
      abel
    · intro hno
      have hsync : p.syncStarted = false := by
        by_contra h
        have h' : p.syncStarted = true := by simpa using h
        exact hno ⟨h', (hv.window h').1⟩
      refine lib_munmap hw ?_ hdone
      rw [hh, hsync]
      simp [mappingOf, windowOf]

/-- Releasing a frame gives back exactly what it owns. -/
theorem drmtapFrameRelease_lib {frame : FrameInfo} (hm : m.Ready) (hf : frame.priv = some p)
    (hv : p.Valid m) (hh : held = p.owned + rest) :
    Cmd.wp (libEnv egl .free) (drmtapFrameRelease frame)
      (fun f m' held' => f = .cleared ∧ m'.ctx = m.ctx ∧ m'.Ready ∧ held' = rest) m held := by
  unfold drmtapFrameRelease
  rw [hf]
  simp only [Cmd.wp_bind, Cmd.wp_pure]
  have hheld : held = mappingOf p.mapped + (windowOf p.syncStarted p.primeFd + ({.record} +
      (fdOf p.primeFd + (handleOf p.gemHandle + rest)))) := by
    rw [hh, FramePriv.owned]
    abel
  refine Cmd.wp_mono (unmapPriv_lib hm hv hheld) ?_
  rintro _ m₁ _ ⟨hc, hm₁, hw, rfl⟩
  refine closeFd_lib (fun _ => trivial) (add_left_comm {Resource.record} _ _) ?_
  refine drmtapGemClose_spec (add_left_comm {Resource.record} _ _) ?_
  refine lib_freePriv hw rfl ⟨trivial, hc, hm₁.release ?_, rfl⟩
  have hs : SameBuffers m.ctx m₁.ctx := by
    rw [hc]
    exact ⟨rfl, rfl, rfl⟩
  exact (hs.isPrivate _).mpr hv.selfPrivate

end Release

/-! Preparing a frame -/

/-- A frame that is filled, with its private data and its pixels if they are there. -/
structure Loaded (rest : Multiset Resource) (frame : FrameInfo) (p : FramePriv) (m : Machine)
    (held : Multiset Resource) : Prop where
  ready : m.Ready
  priv : frame.priv = some p
  valid : p.Valid m
  held : held = p.owned + (m.sockets + rest)
  bounded : Bounded frame.width.toNat frame.height.toNat frame.stride.toNat
  source : ∀ d, frame.data = some d → Source m frame d

/-- What a grab may have come to once its frame is filled. -/
def Prepared.Balanced (rest : Multiset Resource) :
    Prepared → Machine → Multiset Resource → Prop
  | .done ret _, m, held => ret < 0 ∧ m.Ready ∧ held = m.sockets + rest
  | .ready _ frame _, m, held => ∃ p, Loaded rest frame p m held
  | .unmapped _ frame p _, m, held =>
    Loaded rest frame p m held ∧ p.mapped = none ∧ frame.data = none

section Prepare
variable {egl : Prop} {m : Machine} {rest held : Multiset Resource}

theorem grabCleanup_lib {frame : FrameInfo} {gem : UInt32} {fd ret : ℤ} (hret : ret < 0)
    (hm : m.Ready) (hh : held = fdOf fd + (handleOf gem + (m.sockets + rest))) :
    Cmd.wp (libEnv egl .free) (grabCleanup frame gem fd ret)
      (fun r m' held' => r.1 < 0 ∧ m'.Ready ∧ held' = m'.sockets + rest) m held := by
  unfold grabCleanup
  simp only [Cmd.wp_bind, Cmd.wp_pure]
  exact closeFd_lib (fun _ => trivial) hh (drmtapGemClose_spec rfl ⟨hret, hm, rfl⟩)

/-- A record that has just been made. -/
theorem FramePriv.Valid.fresh (hm : m.Ready) {p : FramePriv}
    (hself : p.self = (m.heap.alloc sizeofFramePriv 0).1) (hmap : p.mapped = none)
    (hsync : p.syncStarted = false) :
    p.Valid { m with heap := (m.heap.alloc sizeofFramePriv 0).2 } where
  self := by
    rw [hself]
    exact Heap.alloc_whole _ _ _
  selfPrivate := by
    rw [hself]
    exact hm.private_next le_rfl
  mapped := by simp [hmap]
  window := by simp [hsync]

/-- The same record with a mapping that has just been made. -/
theorem FramePriv.Valid.map (hm : m.Ready) {p p' : FramePriv} (hv : p.Valid m) {size : ℕ}
    (hpos : 0 < size) (g : ℕ → UInt8) (hself : p'.self = p.self)
    (hmap : p'.mapped = some (m.heap.alloc size g).1) (hsize : p'.mappedSize = size)
    (hsync : p'.syncStarted = true → 0 ≤ p'.primeFd) :
    p'.Valid { m with heap := (m.heap.alloc size g).2 } where
  self := by
    rw [hself]
    exact hv.self.congr (Heap.alloc_block_of_lt hv.self.live.lt_next _ _)
  selfPrivate := hself ▸ hv.selfPrivate
  mapped s hs := by
    obtain rfl := Option.some.inj (hmap.symm.trans hs)
    rw [hself, hsize]
    exact ⟨Heap.alloc_whole _ _ _, hm.private_next le_rfl, hv.self.live.lt_next.ne', rfl, hpos⟩
  window h := ⟨hsync h, by simp [hmap]⟩

theorem Bounded.size_pos {w h s : ℕ} (hb : Bounded w h s) : 0 < s * h :=
  Nat.mul_pos hb.stride_pos hb.height_pos

theorem Bounded.narrow {w w' h s : ℕ} (hb : Bounded w h s) (h0 : 0 < w') (hle : w' ≤ w) :
    Bounded w' h s where
  width_pos := h0
  height_pos := hb.height_pos
  stride_pos := hb.stride_pos
  width_le := hle.trans hb.width_le
  height_le := hb.height_le
  pixels := (Nat.mul_le_mul_right _ (Nat.mul_le_mul_right _ hle)).trans hb.pixels
  bytes := hb.bytes

theorem takes_syncStart (fd : ℤ) (started : Bool) :
    libLedger.takes (.dmabufSyncStart fd) started = windowOf started fd := by
  cases started <;> rfl

/-- A frame whose buffer has just been mapped and is being read. -/
theorem Loaded.map {frame frame' : FrameInfo} {p : FramePriv} (hl : Loaded rest frame p m held)
    (hnone : p.mapped = none) {size : ℕ} (g : ℕ → UInt8) (dumb started : Bool)
    (hsize : size = frame.stride.toNat * frame.height.toNat)
    (hsync : started = true → 0 ≤ p.primeFd)
    (hpriv : frame'.priv = some { p with
      mapped := some (m.heap.alloc size g).1, mappedSize := size, usedDumbMap := dumb,
      syncStarted := started })
    (hdata : frame'.data = some (m.heap.alloc size g).1)
    (hdims : frame'.width = frame.width ∧ frame'.height = frame.height ∧
      frame'.stride = frame.stride) :
    Loaded rest frame' { p with
        mapped := some (m.heap.alloc size g).1, mappedSize := size, usedDumbMap := dumb,
        syncStarted := started }
      { m with heap := (m.heap.alloc size g).2 }
      (windowOf started p.primeFd + ({.mapping} + held)) where
  ready := hl.ready.alloc size g
  priv := hpriv
  valid := by
    have hpos : 0 < size := hsize ▸ hl.bounded.size_pos
    exact hl.valid.map hl.ready hpos g rfl rfl rfl hsync
  held := by
    have hstart : p.syncStarted = false := by
      by_contra h
      exact (hl.valid.window (by simpa using h)).2 hnone
    have hown : p.owned = {.record} + (fdOf p.primeFd + handleOf p.gemHandle) := by
      simp [FramePriv.owned, hnone, hstart, mappingOf, windowOf]
    rw [hl.held, hown]
    simp only [FramePriv.owned, mappingOf, Option.isSome_some, if_true]
    change _ = _ + (m.sockets + rest)
    abel
  bounded := by
    obtain ⟨hw, hh, hs⟩ := hdims
    rw [hw, hh, hs]
    exact hl.bounded
  source d hd := by
    obtain rfl := Option.some.inj (hdata.symm.trans hd)
    refine ⟨Heap.alloc_live _ _ _, (hl.ready.private_next le_rfl).1, ?_⟩
    rw [hdims.2.1, hdims.2.2, Nat.mul_comm]
    exact hsize.ge

/-- Step 6 -/
theorem prepareMapped_lib {planeId : UInt32} {fb2 : Fb2} {frame : FrameInfo} {p : FramePriv}
    (hl : Loaded rest frame p m held) (hnone : p.mapped = none) (hdata : frame.data = none)
    (hfd : 0 ≤ p.primeFd) (hdims : frame.stride = fb2.pitches 0 ∧ frame.height = fb2.height) :
    Cmd.wp (libEnv egl .free) (prepareMapped planeId fb2 frame p)
      (fun r => r.Balanced rest) m held := by
  unfold prepareMapped
  rw [Cmd.wp_bind]
  refine Cmd.wp_mono (mapFramebuffer_lib fb2 p.primeFd _) ?_
  rintro (e | ⟨s, dumb⟩) m₁ held₁ h
  · obtain ⟨rfl, rfl⟩ := h
    exact ⟨hl, hnone, hdata⟩
  · obtain ⟨bytes, rfl, rfl, rfl⟩ := h
    simp only [Cmd.wp_bind, Cmd.wp_pure]
    have hsize : (fb2.pitches 0).toNat * fb2.height.toNat =
        frame.stride.toNat * frame.height.toNat := by rw [hdims.1, hdims.2]
    refine lib_take rfl trivial fun started _ => ?_
    rw [takes_syncStart]
    exact ⟨_, hl.map hnone bytes dumb started hsize (fun _ => hfd) rfl rfl ⟨rfl, rfl, rfl⟩⟩

/-- The width, where it leaves what is held alone. -/
theorem drmtapScanoutWidth_lib {g : WindowRule} (hm : m.Ready) (fbWidth : UInt32)
    (modifier : UInt64) :
    Cmd.wp (libEnv egl g) (drmtapScanoutWidth fbWidth modifier)
      (fun w m' held' => (Scans m m' ∧ (0 < fbWidth → 0 < w) ∧ w ≤ fbWidth) ∧ held' = held)
      m held :=
  Cmd.wp_quiet (libEnv_scanout) (drmtapScanoutWidth_spec hm.memo fbWidth modifier)

/-- The direct path, from the exported descriptor on. -/
theorem prepareDirect_lib {doMmap : Bool} {planeId fbId : UInt32} {fb2 : Fb2} {frame : FrameInfo}
    {primeFd : ℤ} (hm : m.Ready) (hfd : 0 ≤ primeFd)
    (hb : Bounded fb2.width.toNat fb2.height.toNat (fb2.pitches 0).toNat)
    (hh : held = fdOf primeFd + (handleOf (fb2.handles 0) + (m.sockets + rest))) :
    Cmd.wp (libEnv egl .free) (prepareDirect doMmap planeId fbId fb2 frame primeFd)
      (fun r => r.Balanced rest) m held := by
  unfold prepareDirect
  rw [Cmd.wp_bind]
  refine lib_callocPriv ?_ ?_
  · rw [Cmd.wp_bind]
    refine Cmd.wp_mono (grabCleanup_lib (by decide) hm hh) ?_
    rintro ⟨ret, frame'⟩ m₁ held₁ h
    exact h
  · have hv := FramePriv.Valid.fresh hm
      (p := privOfDirect (m.heap.alloc sizeofFramePriv 0).1 primeFd (fb2.handles 0)) rfl rfl rfl
    have hm₁ := hm.alloc sizeofFramePriv 0
    simp only [Cmd.wp_bind, Cmd.wp_ite, Cmd.wp_pure]
    refine Cmd.wp_mono (drmtapScanoutWidth_lib hm₁ _ _) ?_
    rintro width m₂ _ ⟨⟨hs, hpos, hle⟩, rfl⟩
    have hw : 0 < width.toNat := UInt32.lt_iff_toNat_lt.mp
      (hpos (UInt32.lt_iff_toNat_lt.mpr hb.width_pos))
    have hl : Loaded rest (frameOfFb2 fb2 fbId width primeFd _) _ m₂ ({.record} + held) :=
      { ready := hs.tunes.ready hm₁
        priv := rfl
        valid := hv.tunes hs.tunes
        held := by
          rw [hs.tunes.sockets, hh]
          simp only [FramePriv.owned, privOfDirect, mappingOf, windowOf]
          change _ = _ + (m.sockets + rest)
          simp
          abel
        bounded := hb.narrow hw (UInt32.le_iff_toNat_le.mp hle)
        source := by simp [frameOfFb2] }
    exact ⟨fun _ => prepareMapped_lib hl rfl rfl hfd ⟨rfl, rfl⟩, fun _ => ⟨_, hl⟩⟩

/-- V3 -/
theorem preparePassed_lib {planeId : UInt32} {self : Slice} {frame : FrameInfo} {wire : GrabWire}
    {fd : ℤ} (hm : m.Ready) (hv : (privOfHelper self).Valid m)
    (hb : Bounded frame.width.toNat frame.height.toNat frame.stride.toNat) (hfd : 0 ≤ fd)
    (hh : held = fdOf fd + ({.record} + (m.sockets + rest))) :
    Cmd.wp (libEnv egl .free) (preparePassed planeId self frame wire fd)
      (fun r => r.Balanced rest) m held := by
  have hv' : ({ privOfHelper self with primeFd := fd } : FramePriv).Valid m :=
    ⟨hv.self, hv.selfPrivate, hv.mapped, by simp [privOfHelper]⟩
  have hl : Loaded rest { frame with
      data := none, dmaBufFd := fd, priv := some { privOfHelper self with primeFd := fd } }
      { privOfHelper self with primeFd := fd } m held :=
    { ready := hm
      priv := rfl
      valid := hv'
      held := by
        rw [hh]
        simp [FramePriv.owned, privOfHelper, mappingOf, windowOf, handleOf]
      bounded := hb
      source := by simp }
  unfold preparePassed
  simp only [Cmd.wp_bind]
  refine lib_mmap (fun e => ⟨_, hl⟩) fun bytes => ?_
  simp only [Cmd.wp_bind, Cmd.wp_pure]
  refine lib_take rfl trivial fun started _ => ?_
  rw [takes_syncStart]
  exact ⟨_, hl.map rfl bytes false started rfl (fun _ => hfd) rfl rfl ⟨rfl, rfl, rfl⟩⟩

/-- V2 -/
theorem preparePixels_lib {planeId : UInt32} {self pixelBuf : Slice} {frame : FrameInfo}
    {wire : GrabWire} (hm : m.Ready) (hv : (privOfHelper self).Valid m)
    (hpix : m.ctx.pixelBuf = some pixelBuf) (hfit : wire.dataSize.toNat ≤ pixelBuf.len)
    (hb : Bounded frame.width.toNat frame.height.toNat frame.stride.toNat)
    (hh : held = {.record} + (m.sockets + rest)) :
    Cmd.wp (libEnv egl .free) (preparePixels planeId self pixelBuf frame wire)
      (fun r => r.Balanced rest) m held := by
  unfold preparePixels
  simp only [Cmd.wp_ite, Cmd.wp_bind, Cmd.wp_pure, not_not]
  refine ⟨fun _ => lib_freePriv hv.self hh ⟨by decide, hm.release hv.selfPrivate, rfl⟩,
    fun hsize => ⟨privOfHelper self, hm, rfl, hv, ?_, hb, ?_⟩⟩
  · rw [hh]
    simp [FramePriv.owned, privOfHelper, mappingOf, windowOf, handleOf, fdOf]
  · rintro _ ⟨⟩
    obtain ⟨hw, ho⟩ := hm.pixel pixelBuf hpix
    refine ⟨hw.live, ho, ?_⟩
    rw [Nat.mul_comm, ← hsize]
    exact hfit

theorem checkWireFrame_spec {frame : FrameInfo} : checkWireFrame frame ≤ 0 ∧
    (checkWireFrame frame = 0 →
      Bounded frame.width.toNat frame.height.toNat frame.stride.toNat ∧
        frame.width.toNat * formatMinBpp frame.format ≤ frame.stride.toNat) := by
  unfold checkWireFrame
  split_ifs with hg hs
  · exact ⟨checkGeometry_nonpos _ _ _, fun h => absurd h hg⟩
  · exact ⟨show (-EINVAL : ℤ) ≤ 0 by decide, fun h => absurd h (show ¬ (-EINVAL : ℤ) = 0 by decide)⟩
  · exact ⟨le_rfl, fun _ => ⟨checkGeometry_eq_zero.mp (not_not.mp hg), not_lt.mp hs⟩⟩

/-- The frame of a reply, from its private record on. -/
theorem prepareReply_lib {planeId : UInt32} {self pixelBuf : Slice} {reply : HelperGrabResult}
    (hm : m.Ready) (hv : (privOfHelper self).Valid m) (hpix : m.ctx.pixelBuf = some pixelBuf)
    (hfit : reply.dmabufFd < 0 → reply.wire.dataSize.toNat ≤ pixelBuf.len)
    (hh : held = {.record} + (fdOf reply.dmabufFd + (m.sockets + rest))) :
    Cmd.wp (libEnv egl .free) (prepareReply planeId self pixelBuf reply)
      (fun r => r.Balanced rest) m held := by
  unfold prepareReply
  simp only [Cmd.wp_bind, wp_modifyCtx, Cmd.wp_ite, Cmd.wp_pure]
  refine Cmd.wp_mono (drmtapScanoutWidth_lib hm _ _) ?_
  rintro width m₁ held ⟨⟨hs, -, -⟩, rfl⟩
  have hhdr : Tunes m₁
      { m₁ with ctx := m₁.ctx.setHdr (reply.wire.hdrEotf, reply.wire.hdrMaxNits) } :=
    ⟨rfl, ⟨rfl, rfl, rfl⟩, rfl, id⟩
  have ht := trans_of Tunes hs.tunes hhdr
  generalize ({ m₁ with ctx := m₁.ctx.setHdr (reply.wire.hdrEotf, reply.wire.hdrMaxNits) } :
    Machine) = m₂ at ht
  have hm₂ := ht.ready hm
  have hv₂ := hv.tunes ht
  rw [← ht.sockets] at hh
  obtain ⟨hneg, hgood⟩ : checkWireFrame (frameOfWire reply.wire width) ≤ 0 ∧ _ :=
    checkWireFrame_spec
  refine ⟨fun hbad => ?_, fun hok => ⟨fun hfd => ?_, fun hfd => ?_⟩⟩
  · have hheld : held = fdOf reply.dmabufFd + ({.record} + (m₂.sockets + rest)) := by
      rw [hh]
      abel
    refine closeFd_lib (fun _ => trivial) hheld ?_
    · exact lib_freePriv hv₂.self rfl
        ⟨lt_of_le_of_ne hneg hbad, hm₂.release hv₂.selfPrivate, rfl⟩
  · refine preparePassed_lib hm₂ hv₂ (hgood (not_not.mp hok)).1 hfd ?_
    rw [hh]
    abel
  · refine preparePixels_lib hm₂ hv₂ (ht.buffers.pixelBuf.trans hpix) (hfit (not_le.mp hfd))
      (hgood (not_not.mp hok)).1 ?_
    rw [hh, fdOf, if_neg hfd, zero_add]

/-- A receive buffer that was replaced. -/
theorem Machine.Ready.setPixelBuf (hm : m.Ready) {h : Heap} {buf : Option Slice}
    (hkeep : ∀ b, m.Out b → h.block b = m.heap.block b)
    (hpix : ∀ s, buf = some s → h.Whole s ∧ ¬ m.Out s.base) :
    (⟨m.ctx.setPixelBuf buf, h⟩ : Machine).Ready where
  buffered :=
    { user := fun u hu => by
        obtain ⟨B, hB, hl⟩ := hm.buffered.user u hu
        exact ⟨B, (hkeep _ (.inl ⟨u, hu, rfl⟩)).trans hB, hl⟩
      shadow := fun s hs => (hm.buffered.shadow s hs).congr (hkeep _ (.inr ⟨s, hs, rfl⟩))
      apart := hm.buffered.apart }
  pixel := hpix
  memo := hm.memo

/-- The receive buffer, once it has been grown. -/
theorem ensurePixelBuf_lib {size : ℕ} (hm : m.Ready) :
    Cmd.wp (libEnv egl .free) (drmtapEnsureBuf m.ctx.pixelBuf size) (fun r m' held' =>
      (r.1 = 0 ∨ r.1 < 0) ∧ ({ m' with ctx := m'.ctx.setPixelBuf r.2 } : Machine).Ready ∧
        (∀ b, r.2 = some b → r.1 = 0 → size ≤ b.len) ∧ (r.2 = none → r.1 < 0) ∧
        m'.sockets = m.sockets ∧ held' = held) m held := by
  have hold : ∀ b, m.Out b → ∀ t, m.ctx.pixelBuf = some t → b ≠ t.base := by
    rintro b hb t ht rfl
    exact (hm.pixel t ht).2 hb
  refine Cmd.wp_mono (Cmd.wp_quiet libEnv_pipe
    (drmtapEnsureBuf_spec (fun b hb => (hm.pixel b hb).1) size)) ?_
  rintro r m₁ _ ⟨⟨hr, -⟩, rfl⟩
  cases hr with
  | refused he => exact ⟨.inr he, hm, fun _ _ h => absurd h he.ne, fun _ => he, rfl, rfl⟩
  | kept hb hl =>
    have hsame := hm.setPixelBuf (h := m.heap) (fun _ _ => rfl) fun s hs => hm.pixel s (hb.trans hs)
    refine ⟨.inl rfl, hsame, ?_, by simp, rfl, rfl⟩
    rintro _ ⟨⟩ -
    exact hl
  | lost =>
    have hneg : (-ENOMEM : ℤ) < 0 := by decide
    exact ⟨.inr hneg, hm.setPixelBuf (fun b hb => Heap.without_block (hold b hb)) (by simp),
      by simp, fun _ => hneg, rfl, rfl⟩
  | fresh g =>
    refine ⟨.inl rfl, hm.setPixelBuf (fun b hb => ?_) ?_, ?_, by simp, rfl, rfl⟩
    · have hlt := hm.buffered.out_lt hb
      exact (Heap.alloc_block_of_lt (by simpa using hlt) _ _).trans
        (Heap.without_block (hold b hb))
    · rintro _ ⟨⟩
      refine ⟨Heap.alloc_whole _ _ _, fun ho => ?_⟩
      have hlt := hm.buffered.out_lt ho
      simp [Heap.alloc] at hlt
    · rintro _ ⟨⟩ -
      exact le_rfl

/-- The path through the helper. -/
theorem prepareByHelper_lib {planeId : UInt32} {fb2 : Fb2} {frame : FrameInfo} (hm : m.Ready) :
    Cmd.wp (libEnv egl .free) (prepareByHelper planeId fb2 frame) (fun r => r.Balanced rest)
      m (m.sockets + rest) := by
  unfold prepareByHelper
  simp only [Cmd.wp_bind, wp_getCtx, wp_modifyCtx]
  refine Cmd.wp_mono (ensurePixelBuf_lib hm) ?_
  rintro ⟨ret, buf⟩ m₁ _ ⟨hret, hm₁, hlen, hnone, hsock, rfl⟩
  rw [← hsock]
  have hsock₁ : m₁.sockets = ({ m₁ with ctx := m₁.ctx.setPixelBuf buf } : Machine).sockets := rfl
  cases buf with
  | none => exact ⟨hnone rfl, hm₁, rfl⟩
  | some pixelBuf =>
    simp only [Cmd.wp_ite, Cmd.wp_pure]
    refine ⟨fun hne => ⟨hret.resolve_left hne, hm₁, rfl⟩, fun hok => ?_⟩
    have hsize := hlen pixelBuf rfl (not_not.mp hok)
    have hpix : ({ m₁ with ctx := m₁.ctx.setPixelBuf (some pixelBuf) } : Machine).ctx.pixelBuf =
      some pixelBuf := rfl
    rw [hsock₁]
    generalize ({ m₁ with ctx := m₁.ctx.setPixelBuf (some pixelBuf) } : Machine) = m₂ at hm₁ hpix
    have hlive := (hm₁.pixel pixelBuf hpix).1.live
    unfold askHelper
    simp only [Cmd.wp_bind]
    refine Cmd.wp_mono (drmtapHelperGrab_lib hlive hsize) ?_
    rintro ⟨ret', reply⟩ m₃ held₃ ⟨hf, hr⟩
    have hm₃ := hf.ready hlive hm₁
    simp only [Cmd.wp_ite, Cmd.wp_bind, Cmd.wp_pure]
    refine ⟨fun hneg => ?_, fun hneg => ?_⟩
    · rcases hr with ⟨-, rfl⟩ | ⟨h0, -⟩
      · refine Cmd.wp_mono (grabCleanup_lib (by decide) hm₃ ?_) fun _ _ _ h => h
        simp [fdOf, handleOf]
      · exact absurd h0 (ne_of_lt hneg)
    · obtain ⟨-, hh, hfit⟩ := hr.resolve_left fun h => hneg h.1
      refine lib_callocPriv ?_ ?_
      · rw [Cmd.wp_bind]
        exact closeFd_lib (fun _ => trivial) hh ⟨by decide, hm₃, rfl⟩
      · have hpix₃ : m₃.ctx.pixelBuf = some pixelBuf := by rw [hf.ctx, hpix]
        refine prepareReply_lib (hm₃.alloc _ _) (.fresh hm₃ rfl rfl rfl) hpix₃
          (fun hfd => (hfit hfd).trans hsize) ?_
        rw [hh]
        rfl

/-- Steps 1 to 3 leave a framebuffer with its handles, or nothing. -/
theorem readScanout_lib {g : WindowRule} : Cmd.wp (libEnv egl g) readScanout
    (fun r m' held' => Tunes m m' ∧ match r with
      | .error e => e < 0 ∧ held' = held
      | .ok (_, _, fb2) => held' = fb2.objects + held) m held := by
  have hno : (-ENODEV : ℤ) < 0 := by decide
  unfold readScanout readHdrForCurrentCrtc readHdrMetadataDirect
  simp only [Cmd.wp_bind, wp_getCtx, wp_modifyCtx, Cmd.wp_ite, Cmd.wp_pure]
  have hfind : Cmd.Steps ScanoutOp Scans findPrimaryPlane :=
    findPrimaryPlane_steps.mono (fun _ => .inl) fun _ _ => Scans.of_selects
  refine Cmd.wp_mono (hfind.wp libEnv_scanout m held) ?_
  rintro planeId m₁ _ ⟨hs, rfl⟩
  have hread : Cmd.Reads ScanoutOp (readHdr (S := Machine) m₁.ctx.crtcId) :=
    (readHdr_reads _).mono fun _ => .inl
  refine Cmd.wp_mono (hread.wp libEnv_scanout m₁ _) ?_
  rintro hdr m₂ _ ⟨rfl, rfl⟩
  have hhdr : Tunes m₂ { m₂ with ctx := m₂.ctx.setHdr hdr } := ⟨rfl, ⟨rfl, rfl, rfl⟩, rfl, id⟩
  have ht := trans_of Tunes hs.tunes hhdr
  refine ⟨fun _ => ⟨ht, hno, rfl⟩, fun _ => ?_⟩
  refine lib_quiet (scanoutOp_quiet (.inl trivial)) ?_
  rintro (_ | plane) -
  · exact ⟨ht, hno, rfl⟩
  · simp only [Cmd.wp_ite, Cmd.wp_pure, Cmd.wp_bind]
    refine ⟨fun _ => ⟨ht, hno, trivial⟩, fun _ => lib_take rfl (g.others _ id _) ?_⟩
    rintro (e | fb2) -
    · exact ⟨ht, e.neg_lt_zero, zero_add _⟩
    · exact ⟨ht, rfl⟩

theorem prepareFramebuffer_lib {doMmap : Bool} {planeId fbId : UInt32} {fb2 : Fb2}
    {frame : FrameInfo} (hm : m.Ready)
    (hb : Bounded fb2.width.toNat fb2.height.toNat (fb2.pitches 0).toNat)
    (hh : held = handleOf (fb2.handles 0) + (m.sockets + rest)) :
    Cmd.wp (libEnv egl .free) (prepareFramebuffer doMmap planeId fbId fb2 frame)
      (fun r => r.Balanced rest) m held := by
  unfold prepareFramebuffer
  simp only [Cmd.wp_ite, Cmd.wp_bind]
  refine ⟨fun hzero => ?_, fun _ => lib_take rfl trivial ?_⟩
  · rw [hh, handleOf, if_pos hzero, zero_add]
    exact prepareByHelper_lib hm
  · rintro (e | primeFd) -
    · simp only [Cmd.wp_ite, Cmd.wp_bind, Cmd.wp_pure]
      have hsame : libLedger.takes (.primeHandleToFD (fb2.handles 0)) (.error e) + held =
          handleOf (fb2.handles 0) + (m.sockets + rest) := by simp [libLedger, hh]
      rw [hsame]
      refine ⟨fun _ => drmtapGemClose_spec rfl (prepareByHelper_lib hm), fun _ => ?_⟩
      refine Cmd.wp_mono (grabCleanup_lib e.neg_lt_zero hm ?_) fun _ _ _ h => h
      simp [fdOf]
    · refine prepareDirect_lib hm (Int.natCast_nonneg _) hb ?_
      rw [fdOf_natCast, hh]
      rfl

/-- Everything up to the conversion. -/
theorem prepareGrab_lib {doMmap : Bool} {frame : FrameInfo} (hm : m.Ready) :
    Cmd.wp (libEnv egl .free) (prepareGrab doMmap frame) (fun r => r.Balanced rest)
      m (m.sockets + rest) := by
  unfold prepareGrab
  simp only [Cmd.wp_bind, wp_getCtx, Cmd.wp_ite, Cmd.wp_pure]
  refine ⟨fun _ => ⟨by decide, hm, rfl⟩, fun _ => ?_⟩
  refine Cmd.wp_mono readScanout_lib ?_
  rintro (e | ⟨planeId, fbId, fb2⟩) m₁ held₁ ⟨ht, hr⟩
  · exact ⟨hr.1, ht.ready hm, by rw [hr.2, ht.sockets]⟩
  · simp only [Cmd.wp_bind, Cmd.wp_ite, wp_modifyCtx, Cmd.wp_pure]
    refine closeAuxiliaryGemHandles_spec (hr : held₁ = _) ?_
    rw [← ht.sockets]
    constructor
    · intro hbad
      have hneg := lt_of_le_of_ne (checkGeometry_nonpos _ _ _) hbad
      refine Cmd.wp_mono (grabCleanup_lib hneg (ht.ready hm) ?_) fun _ _ _ h => h
      simp [fdOf]
    · intro hgood
      have hstage : Tunes m₁ { m₁ with ctx := m₁.ctx.stageFb2 fb2 } :=
        ⟨rfl, ⟨rfl, rfl, rfl⟩, rfl, id⟩
      rw [← hstage.sockets]
      exact prepareFramebuffer_lib (hstage.ready (ht.ready hm))
        (checkGeometry_eq_zero.mp (not_not.mp hgood)) rfl

end Prepare

end Drmtap
