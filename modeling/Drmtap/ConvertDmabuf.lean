import Drmtap.Pipeline

/-! What `drmtap_convert_dmabuf` does for any descriptor, over any file behind its fd. -/
namespace Drmtap

open Memory Effect

/-- The file behind a descriptor. -/
structure DmaBuf where
  size : ℤ
  byte : ℕ → UInt8

/-- The kernel and the backend as one convert of `desc` meets them. The one mapping that is
legal is of the descriptor's own interval, inside the file; the state says whether it was
made. Either size call may fail to answer, but neither answers with another size. -/
abbrev convertEnv (egl : Prop) (desc : DmabufDesc) (buf : DmaBuf) : Env where
  State := Bool
  legal _ o := match o with
    | .mmap src size off => src = .fd desc.dmaBufFd ∧
        size = (desc.pitches 0).toNat * desc.height.toNat ∧ off = (desc.offsets 0).toNat ∧
        off + size ≤ buf.size
    | .munmap _ | .dmabufSyncStart _ | .dmabufSyncEnd _ | .lseekEnd _ | .fstatSize _ => True
    | o => PipeOp o
  step s o r s' := match o, r with
    | .mmap _ _ off, .ok g => (g = fun i => buf.byte (off + i)) ∧ s' = true
    | .lseekEnd _, r => (r ≤ 0 ∨ r = buf.size) ∧ s' = s
    | .fstatSize _, r => (∀ z, r = some z → z ≤ 0 ∨ z = buf.size) ∧ s' = s
    | o, r => PipeAns egl o r ∧ s' = s

theorem convertEnv_quiet (egl : Prop) (desc : DmabufDesc) (buf : DmaBuf) :
    (convertEnv egl desc buf).Quiet PipeOp (PipeAns egl) := by
  intro o ho s
  cases o <;> first | exact ho.elim | exact ⟨trivial, fun _ _ h => h⟩

/-- The `n` bytes at `off` of the file. -/
def DmaBuf.bytes (buf : DmaBuf) (off n : ℕ) : List UInt8 :=
  (List.range n).map fun i => buf.byte (off + i)

def DmabufDesc.pitch (desc : DmabufDesc) : ℕ := (desc.pitches 0).toNat

/-- The picture of a row-major descriptor. -/
def DmabufDesc.linearPic (desc : DmabufDesc) (buf : DmaBuf) (x y : ℕ) : List UInt8 :=
  to8Bit desc.format desc.hdrEotf desc.hdrMaxNits
    (buf.bytes ((desc.offsets 0).toNat + (y * desc.pitch + bytesPerPixel desc.format * x))
      (bytesPerPixel desc.format))

/-- What the CPU makes of a tiled descriptor, with 4-byte pixels. -/
def DmabufDesc.tiledPic (desc : DmabufDesc) (buf : DmaBuf) (off : ℕ → ℕ → ℕ → ℕ) (x y : ℕ) :
    List UInt8 :=
  let px := if off desc.pitch x y + 4 ≤ desc.height.toNat * desc.pitch then
      buf.bytes ((desc.offsets 0).toNat + off desc.pitch x y) 4
    else List.replicate 4 0
  if isAr30 desc.format then to8Bit desc.format desc.hdrEotf desc.hdrMaxNits px else px

/-- The file backs the whole of plane 0 and the first row of each further plane. -/
structure DmabufDesc.Backed (desc : DmabufDesc) (buf : DmaBuf) : Prop where
  image : (desc.offsets 0).toNat + desc.pitch * desc.height.toNat ≤ buf.size
  planes : ∀ p : Fin 4, 1 ≤ p.val → p.val < numPlanesOf desc →
    (desc.offsets p).toNat + (desc.pitches p).toNat ≤ buf.size

/-- A descriptor that passes every gate before the CPU fallback maps it. -/
structure Accepted (desc : DmabufDesc) (buf : DmaBuf) : Prop where
  check : checkDesc desc = 0
  fd : 0 ≤ desc.dmaBufFd
  backed : desc.Backed buf

/-- The frame the GPU makes of a descriptor. -/
def Rendered (desc : DmabufDesc) (frame : FrameInfo) (m : Machine) : Prop :=
  checkDesc desc = 0 ∧ ∃ out, Dest m (desc.width.toNat * desc.height.toNat * 4) out ∧
    frame = { frameOfDesc desc with
      data := some out, format := fmtXR24, stride := desc.width * 4,
      modifier := drmFormatModLinear }

/-- The frame the CPU makes of a descriptor. -/
inductive Converted (driver : String) (desc : DmabufDesc) (buf : DmaBuf) :
    FrameInfo → Machine → Prop where
  | linear {m out} (ha : Accepted desc buf) (hl : RowMajor desc.modifier)
      (hw : bytesPerPixel desc.format * desc.width.toNat ≤ desc.pitch)
      (hout : Dest m (desc.width.toNat * desc.height.toNat * 4) out)
      (hpic : Shows m.heap out (4 * desc.width.toNat) desc.width.toNat desc.height.toNat
        (desc.linearPic buf)) :
      Converted driver desc buf { frameOfDesc desc with
        data := some out, stride := desc.width * 4,
        format := if NeedsReduction desc.format then fmtXR24 else desc.format } m
  | tiled {m out off} (ha : Accepted desc buf) (hl : ¬ RowMajor desc.modifier)
      (hdrv : DecodesTiles driver) (hoff : cpuOffset desc.modifier = some off)
      (hout : Dest m (desc.pitch * desc.height.toNat) out)
      (hpic : Shows m.heap out desc.pitch desc.width.toNat desc.height.toNat
        (desc.tiledPic buf off)) :
      Converted driver desc buf { frameOfDesc desc with
        data := some out,
        format := if isAr30 desc.format then fmtXR24 else desc.format } m

theorem checkDesc_eq_zero {desc : DmabufDesc} :
    checkDesc desc = 0 ↔ numPlanesOf desc ≤ 4 ∧
      Bounded desc.width.toNat desc.height.toNat desc.pitch ∧
      desc.width.toNat * formatMinBpp desc.format ≤ desc.pitch := by
  have hinval : ¬ (-EINVAL : ℤ) = 0 := by decide
  have hz : desc.width = 0 ↔ desc.width.toNat = 0 := (UInt32.toNat_inj (b := 0)).symm
  have hg : checkGeometry desc.width desc.height (desc.pitches 0) = 0 ↔
      Bounded desc.width.toNat desc.height.toNat desc.pitch := checkGeometry_eq_zero
  unfold checkDesc
  split_ifs with h1 h2 h3
  · simp only [hinval, false_iff]
    rintro ⟨hp, hb, -⟩
    have := hb.width_pos
    rw [hz] at h1
    omega
  · simp only [h2, false_iff]
    rintro ⟨-, hb, -⟩
    exact h2 (hg.mpr hb)
  · simp only [hinval, false_iff]
    rintro ⟨-, -, hw⟩
    exact absurd hw (not_le.mpr h3)
  · simp only [true_iff]
    exact ⟨not_lt.mp (not_or.mp h1).1, hg.mp (not_not.mp h2), not_lt.mp h3⟩

theorem checkDesc_nonpos (desc : DmabufDesc) : checkDesc desc ≤ 0 := by
  have := checkGeometry_nonpos desc.width desc.height (desc.pitches 0)
  unfold checkDesc
  split_ifs <;> first | decide | exact this

/-- The machine once a descriptor is staged. -/
def Machine.stage (m : Machine) (desc : DmabufDesc) : Machine :=
  { m with ctx := stageDesc desc m.ctx }

theorem Machine.Buffered.stage {m : Machine} (hm : m.Buffered) (desc : DmabufDesc) :
    (m.stage desc).Buffered :=
  ⟨hm.user, hm.shadow, hm.apart⟩

section Convert
variable {egl : Prop} {desc : DmabufDesc} {buf : DmaBuf} {m : Machine} {s : Bool}

theorem fdSize_spec (fd : ℤ) : Cmd.wp (convertEnv egl desc buf) (fdSize fd)
    (fun r m' s' => m' = m ∧ s' = s ∧ (0 < r → r = buf.size)) m s := by
  unfold fdSize
  simp only [Cmd.wp_bind, Cmd.wp_call, Cmd.wp_ite, Cmd.wp_pure]
  refine ⟨trivial, fun z s' hz => ?_⟩
  obtain ⟨hz, rfl⟩ : (z ≤ 0 ∨ z = buf.size) ∧ s' = s := hz
  refine ⟨fun h0 => ⟨trivial, ?_⟩, fun h0 => ⟨trivial, rfl, fun _ => hz.resolve_left h0⟩⟩
  rintro (_ | z') s'' ⟨hz', rfl⟩
  · exact ⟨rfl, rfl, fun h => absurd h (not_lt.mpr h0)⟩
  · exact ⟨rfl, rfl, fun h => (hz' z' rfl).resolve_left (not_le.mpr h)⟩

theorem fdSizeForMap_spec (fd : ℤ) : Cmd.wp (convertEnv egl desc buf) (fdSizeForMap fd)
    (fun r m' s' => m' = m ∧ s' = s ∧ (0 < r → r = buf.size)) m s := by
  unfold fdSizeForMap
  simp only [Cmd.wp_bind, Cmd.wp_call, Cmd.wp_ite, Cmd.wp_pure]
  refine ⟨trivial, fun z s' hz => ?_⟩
  obtain ⟨hz, rfl⟩ : (z ≤ 0 ∨ z = buf.size) ∧ s' = s := hz
  refine ⟨fun h0 => ⟨trivial, ?_⟩, fun h0 => ⟨trivial, rfl, fun _ => hz.resolve_left h0⟩⟩
  rintro (_ | z') s'' ⟨hz', rfl⟩
  · exact ⟨rfl, rfl, fun h => absurd h (not_lt.mpr h0)⟩
  · refine ⟨rfl, rfl, fun h => ?_⟩
    split_ifs at h ⊢ with hpos
    · exact (hz' z' rfl).resolve_left (not_le.mpr hpos)
    · exact absurd h (not_lt.mpr h0)

theorem checkFd_spec : Cmd.wp (convertEnv egl desc buf) (checkFd desc)
    (fun r m' s' => m' = m ∧ s' = s ∧ (r < 0 ∨ (r = 0 ∧
      (0 ≤ desc.dmaBufFd → desc.Backed buf)))) m s := by
  have hinval : (-EINVAL : ℤ) < 0 := by decide
  unfold checkFd
  simp only [Cmd.wp_bind, Cmd.wp_call, Cmd.wp_ite, Cmd.wp_pure]
  refine ⟨fun h => ⟨trivial, trivial, .inr ⟨trivial, fun h' => absurd h (not_lt.mpr h')⟩⟩,
    fun _ => ⟨trivial, fun started s₁ hs => ⟨fun _ => ⟨trivial, hs.2, .inl hinval⟩, fun _ => ?_⟩⟩⟩
  refine Cmd.wp_mono (fdSize_spec _) ?_
  rintro size _ s₂ ⟨rfl, rfl, hsize⟩
  refine ⟨trivial, fun _ s₃ hs₃ => ⟨fun _ => ⟨rfl, hs₃.2.trans hs.2, .inl hinval⟩, fun hfit =>
    ⟨fun _ => ⟨rfl, hs₃.2.trans hs.2, .inl hinval⟩, fun hpl =>
      ⟨rfl, hs₃.2.trans hs.2, .inr ⟨trivial, ?_⟩⟩⟩⟩⟩
  rw [not_or, not_le, not_lt] at hfit
  obtain rfl := hsize hfit.1
  refine fun _ => ⟨by exact_mod_cast hfit.2, fun p h1 hp => ?_⟩
  by_contra hlt
  exact hpl ⟨p, h1, hp, not_le.mp hlt⟩

end Convert

/-- The copy of a linear mapping into tight rows. -/
theorem repackLinear_spec {h : Heap} {mapped out : Slice} {width height pitch outStride : ℕ}
    (hs : h.Live mapped) (hd : h.Live out) (hne : mapped.base ≠ out.base)
    (ho : outStride = 4 * width) (hw : 4 * width ≤ pitch) (hsrc : height * pitch ≤ mapped.len)
    (hdst : height * outStride ≤ out.len) :
    ∃ h' A V, repackLinear mapped out height pitch outStride h = some h' ∧
      Filled h h' out.base A V ∧ Shows h' out outStride width height fun x y =>
        bytesAt h mapped (y * pitch + 4 * x) 4 := by
  unfold repackLinear
  split
  next he =>
    subst he
    have hn : 0 + pitch * height ≤ mapped.len := by
      rw [Nat.zero_add, Nat.mul_comm]
      exact hsrc
    have hl : h.load mapped 0 (pitch * height) = some (bytesAt h mapped 0 (pitch * height)) :=
      Heap.load_eq hs hn
    obtain ⟨h', he, hf⟩ := Heap.store_filled (V := h.read mapped.base) hd
      (show 0 + (bytesAt h mapped 0 (pitch * height)).length ≤ out.len by
        rw [bytesAt_length, Nat.zero_add, Nat.mul_comm]
        exact hdst) fun i hi => by simp [bytesAt]
    refine ⟨h', _, _, by rw [Heap.memcpy, hl]; exact he, hf, fun y hy x hx => ?_⟩
    refine List.map_congr_left fun i hi => hf.hit _ ⟨Nat.zero_le _, ?_⟩
    have hrow := row_end_le pitch hy
    have hcell := cell_end_le 4 hx
    have hi' := List.mem_range.mp hi
    rw [bytesAt_length, Nat.mul_comm pitch]
    omega
  next he =>
    obtain ⟨h', hh, hf⟩ := copyRows_drawn hs hd (fun hb => absurd hb hne) ho.ge
        (rows_fit hw hsrc) (rows_fit ho.ge hdst) fun y hy h' =>
      show h'.memcpy out (y * outStride) mapped (y * pitch) outStride = _ by
        rw [ho, Nat.mul_comm 4]
    exact ⟨h', _, _, hh, hf, .of_drawn hf ho.ge fun x y => bytesAt_length _ _ _ _⟩

/-- The file of a descriptor mapped at its offset, apart from the output buffers. -/
structure Mapping (m : Machine) (desc : DmabufDesc) (buf : DmaBuf) (mapped : Slice) : Prop where
  live : m.heap.Live mapped
  apart : ¬ m.Out mapped.base
  len : mapped.len = desc.height.toNat * desc.pitch
  byte : ∀ i, m.heap.read mapped.base i = buf.byte ((desc.offsets 0).toNat + i)

namespace Mapping
variable {m : Machine} {desc : DmabufDesc} {buf : DmaBuf} {mapped : Slice}

theorem bytesAt_eq (hp : Mapping m desc buf mapped) (off n : ℕ) :
    bytesAt m.heap mapped off n = buf.bytes ((desc.offsets 0).toNat + off) n := by
  simp only [bytesAt, DmaBuf.bytes, hp.byte, Nat.add_assoc]

theorem linearPic_eq (hp : Mapping m desc buf mapped) (he : m.ctx.curHdrEotf = desc.hdrEotf)
    (hn : m.ctx.curHdrMaxNits = desc.hdrMaxNits) (data : Option Slice) (fd : ℤ) :
    linearPic m.ctx m.heap { frameOfDesc desc with data := data, dmaBufFd := fd } mapped =
      desc.linearPic buf := by
  funext x y
  rw [linearPic, DmabufDesc.linearPic, hp.bytesAt_eq, he, hn]
  rfl

theorem tiledPic_eq (hp : Mapping m desc buf mapped) (he : m.ctx.curHdrEotf = desc.hdrEotf)
    (hn : m.ctx.curHdrMaxNits = desc.hdrMaxNits) (data : Option Slice) (fd : ℤ)
    (off : ℕ → ℕ → ℕ → ℕ) :
    tiledPic m.ctx m.heap { frameOfDesc desc with data := data, dmaBufFd := fd } mapped off =
      desc.tiledPic buf off := by
  funext x y
  rw [tiledPic, DmabufDesc.tiledPic, backedBytes, hp.bytesAt_eq, he, hn]
  rfl

end Mapping

theorem bytesPerPixel_of_not {fmt : UInt32} (h : ¬ NeedsReduction fmt) : bytesPerPixel fmt = 4 := by
  unfold NeedsReduction at h
  unfold bytesPerPixel
  rw [if_neg (by tauto)]

theorem to8Bit_of_not {fmt : UInt32} (h : ¬ NeedsReduction fmt) (eotf maxNits : UInt32)
    (px : List UInt8) : to8Bit fmt eotf maxNits px = px := by
  unfold NeedsReduction at h
  unfold to8Bit
  rw [if_neg (by tauto), if_neg (by tauto), if_neg (by tauto)]

theorem four_le_formatMinBpp (fmt : UInt32) : 4 ≤ formatMinBpp fmt := by
  unfold formatMinBpp
  split <;> decide

theorem Accepted.row_fits {desc : DmabufDesc} {buf : DmaBuf} (ha : Accepted desc buf) :
    4 * desc.width.toNat ≤ desc.pitch := by
  obtain ⟨-, -, hbpp⟩ := checkDesc_eq_zero.mp ha.check
  have := four_le_formatMinBpp desc.format
  nlinarith

section Convert
variable {egl : Prop} {desc : DmabufDesc} {buf : DmaBuf} {m : Machine} {s : Bool} {mapped : Slice}

theorem convertMapped_spec (hm : m.Buffered) (he : m.ctx.curHdrEotf = desc.hdrEotf)
    (hn : m.ctx.curHdrMaxNits = desc.hdrMaxNits) (ha : Accepted desc buf)
    (hp : Mapping m desc buf mapped) :
    Cmd.wp (pipeEnv egl) (convertMapped desc mapped (frameOfDesc desc)) (fun r m' _ =>
      Converts m m' ∧ (r.1 < 0 ∨
        (r.1 = 0 ∧ Converted m.ctx.driverName desc buf r.2 m'))) m () := by
  obtain ⟨-, hb, -⟩ := checkDesc_eq_zero.mp ha.check
  have hw := ha.row_fits
  have hsrc : ∀ d, some mapped = some d → Source m { frameOfDesc desc with
      data := some mapped, dmaBufFd := -1 } d := by
    rintro _ ⟨⟩
    exact ⟨hp.live, hp.apart, hp.len.ge⟩
  have hlin := hp.linearPic_eq he hn (some mapped) (-1)
  have htil := hp.tiledPic_eq he hn (some mapped) (-1)
  unfold convertMapped
  simp only [Cmd.wp_bind]
  refine Cmd.wp_mono (gpuAutoProcess_spec wrap32_exact hm hb hsrc false) ?_
  rintro ⟨ret, frame⟩ m₁ - ⟨hc, hr⟩
  have hs₁ := hc.source (hsrc _ rfl)
  have hskip : ∀ {size out}, Dest m₁ size out → some out ≠ some mapped := by
    rintro size out hd ⟨⟩
    exact hs₁.apart hd.out
  rcases hr with hneg | ⟨h0, hpr⟩
  · simp only [Cmd.wp_ite, Cmd.wp_bind, Cmd.wp_pure]
    exact ⟨fun h => absurd h.1 hneg.ne, fun _ => ⟨hc, .inl hneg⟩⟩
  · obtain rfl : ret = 0 := h0
    cases hpr with
    | idle hd => simp at hd
    | passed hd _ hl h8 =>
      replace h8 : ¬ NeedsReduction desc.format := h8
      have hfour : (desc.width * 4).toNat = 4 * desc.width.toNat := mul_four_toNat hb.width_le
      simp only [and_self, if_true, Cmd.wp_bind]
      refine Cmd.wp_mono (drmtapEnsureOut_spec hc.buffered _) ?_
      rintro (e | out) m₂ - ⟨hc₂, hout⟩
      · exact ⟨hc.trans hc₂, .inl hout⟩
      · obtain ⟨hdest, -, -⟩ := hout
        have hc' := hc.trans hc₂
        have hs₂ := hc₂.source hs₁
        have hne : mapped.base ≠ out.base := fun he => hs₂.apart (he ▸ hdest.out)
        have hdst : desc.height.toNat * (desc.width * 4).toNat ≤ out.len := by
          rw [hdest.1, Nat.mul_comm]
        obtain ⟨h', A, V, hrun, hf, hpic⟩ := repackLinear_spec hs₂.live hdest.2.1 hne hfour hw
          hp.len.ge hdst
        simp only [Cmd.wp_bind, wp_onHeap, heap_machine, setHeap_machine, Cmd.wp_pure,
          Option.map_eq_some_iff]
        refine ⟨(), h', ⟨h', hrun, rfl⟩, hc'.trans (.of_filled hc'.buffered hdest.out hf),
          .inr ⟨trivial, ?_⟩⟩
        have hsize : (desc.width * 4).toNat * desc.height.toNat =
            desc.width.toNat * desc.height.toNat * 4 := by
          rw [hfour]
          ring
        have hbyte := bytesPerPixel_of_not h8
        have hshow : Shows h' out (4 * desc.width.toNat) desc.width.toNat desc.height.toNat
            (desc.linearPic buf) := by
          intro y hy x hx
          have hcell : bytesAt m₂.heap mapped (y * desc.pitch + 4 * x) 4 =
              desc.linearPic buf x y := by
            rw [hc'.bytesAt_eq (hsrc _ rfl), hp.bytesAt_eq, DmabufDesc.linearPic,
              to8Bit_of_not h8, hbyte]
          rw [← hfour, hpic y hy x hx]
          exact hcell
        have hconv : Converted m.ctx.driverName desc buf _ { m₂ with heap := h' } :=
          .linear ha hl (by rw [hbyte]; exact hw) (hsize ▸ hdest.of_filled hf) hshow
        rw [if_neg h8] at hconv
        exact hconv
    | reduced hd _ hl hr hw' hout hpic =>
      replace hr : NeedsReduction desc.format := hr
      obtain rfl := Option.some.inj hd
      simp only [hskip hout, and_false, if_false, Cmd.wp_pure]
      rw [hlin] at hpic
      have hconv : Converted m.ctx.driverName desc buf _ m₁ := .linear ha hl hw' hout hpic
      rw [if_pos hr] at hconv
      exact ⟨hc, .inr ⟨trivial, hconv⟩⟩
    | untiled hd _ hl hdrv hoff hw' hout hpic =>
      obtain rfl := Option.some.inj hd
      simp only [hskip hout, and_false, if_false, Cmd.wp_pure]
      rw [htil] at hpic
      exact ⟨hc, .inr ⟨trivial, .tiled ha hl hdrv hoff hout hpic⟩⟩
    | gpu _ hfd' => exact absurd (show (0 : ℤ) ≤ -1 from hfd') (by decide)

/-- Giving back a mapping the output does not use. -/
theorem Converted.release {driver : String} {frame : FrameInfo} {m : Machine} {b : ℕ}
    (hc : Converted driver desc buf frame m) (hb : ¬ m.Out b) :
    Converted driver desc buf frame { m with heap := m.heap.release b } := by
  have hd : ∀ {size out}, Dest m size out →
      out.base ≠ b ∧ Dest { m with heap := m.heap.release b } size out := by
    intro size out hd
    have hne : out.base ≠ b := fun he => hb (he ▸ hd.out)
    exact ⟨hne, hd.1, hd.2.1.release hne, hd.2.2⟩
  have hread : ∀ {out : Slice}, out.base ≠ b → ∀ {stride width height pic},
      Shows m.heap out stride width height pic →
        Shows (m.heap.release b) out stride width height pic := by
    intro out hne stride width height pic hs y hy x hx
    rw [← hs y hy x hx]
    unfold bytesAt Heap.read
    rw [Heap.release_block hne]
  cases hc with
  | linear ha hl hw hout hpic => exact .linear ha hl hw (hd hout).2 (hread (hd hout).1 hpic)
  | tiled ha hl hdrv hoff hout hpic =>
    exact .tiled ha hl hdrv hoff (hd hout).2 (hread (hd hout).1 hpic)

theorem Converts.of_alloc (hm : m.Buffered) (size : ℕ) (g : ℕ → UInt8) :
    Converts m { m with heap := (m.heap.alloc size g).2 } where
  ctx := rfl
  next := Nat.le_succ _
  keep _ hb _ := Heap.alloc_block_of_lt hb size g
  out _ _ ho := ho
  buffered :=
    { user := fun u hu => (hm.user u hu).alloc size g
      shadow := fun s hs => (hm.shadow s hs).congr
        (Heap.alloc_block_of_lt (hm.shadow s hs).live.lt_next size g)
      apart := hm.apart }

theorem Converts.release {m' : Machine} (hc : Converts m m') {b : ℕ} (hb : m.heap.next ≤ b)
    (ho : ¬ m'.Out b) : Converts m { m' with heap := m'.heap.release b } where
  ctx := hc.ctx
  next := hc.next
  keep c hlt hout := (Heap.release_block (by omega)).trans (hc.keep c hlt hout)
  out := hc.out
  buffered :=
    { user := fun u hu => (hc.buffered.user u hu).release fun he => ho (.inl ⟨u, hu, he⟩)
      shadow := fun s hs => (hc.buffered.shadow s hs).congr
        (Heap.release_block fun he => ho (.inr ⟨s, hs, he⟩))
      apart := hc.buffered.apart }

/-- The mapping of the descriptor's interval, just made. -/
theorem Mapping.of_alloc (hm : m.Buffered) (desc : DmabufDesc) (buf : DmaBuf) :
    Mapping
      { m with heap := (m.heap.alloc ((desc.pitches 0).toNat * desc.height.toNat)
        fun i => buf.byte ((desc.offsets 0).toNat + i)).2 } desc buf
      (m.heap.alloc ((desc.pitches 0).toNat * desc.height.toNat)
        fun i => buf.byte ((desc.offsets 0).toNat + i)).1 where
  live := Heap.alloc_live _ _ _
  apart := fun ho => absurd (hm.out_lt ho) (lt_irrefl _)
  len := Nat.mul_comm _ _
  byte i := by
    rw [Heap.read, show (Heap.alloc _ _ _).1.base = m.heap.next from rfl, Heap.alloc_block]

theorem Converted.data_ne {driver : String} {frame : FrameInfo} {m : Machine}
    (hc : Converted driver desc buf frame m) : frame.data ≠ none := by
  cases hc <;> simp

theorem convertCpu_spec (hm : m.Buffered) (he : m.ctx.curHdrEotf = desc.hdrEotf)
    (hn : m.ctx.curHdrMaxNits = desc.hdrMaxNits) (hcheck : checkDesc desc = 0)
    (hback : 0 ≤ desc.dmaBufFd → desc.Backed buf) :
    Cmd.wp (convertEnv egl desc buf) (convertCpu desc (frameOfDesc desc)) (fun r m' s' =>
      Converts m m' ∧ ((r.1 < 0 ∧ (s' = s ∨ s' = true)) ∨
        (r.1 = 0 ∧ s' = true ∧ Converted m.ctx.driverName desc buf r.2 m'))) m s := by
  have hinval : (-EINVAL : ℤ) < 0 := by decide
  unfold convertCpu
  simp only [Cmd.wp_ite, Cmd.wp_bind, Cmd.wp_call, Cmd.wp_pure]
  refine ⟨fun _ => ⟨.refl hm, .inl ⟨hinval, .inl trivial⟩⟩, fun hfd => ⟨trivial, ?_⟩⟩
  rintro started s₁ ⟨-, rfl⟩
  refine ⟨fun _ => ⟨.refl hm, .inl ⟨hinval, .inl rfl⟩⟩, fun _ => ?_⟩
  refine Cmd.wp_mono (fdSizeForMap_spec _) ?_
  rintro size m s₂ ⟨rfl, rfl, hsize⟩
  refine ⟨fun _ => ⟨trivial, ?_⟩, fun hfit => ?_⟩
  · rintro _ s₃ ⟨-, rfl⟩
    exact ⟨.refl hm, .inl ⟨hinval, .inl rfl⟩⟩
  · rw [not_or, not_le, not_lt] at hfit
    rw [wp_mmap]
    refine ⟨⟨rfl, rfl, rfl, by exact_mod_cast hsize hfit.1 ▸ hfit.2⟩, fun e s₃ hs₃ => ?_, ?_⟩
    · simp only [Cmd.wp_bind, Cmd.wp_call, Cmd.wp_pure]
      refine ⟨trivial, ?_⟩
      rintro _ s₄ ⟨-, rfl⟩
      have := e.pos
      exact ⟨.refl hm, .inl ⟨by simp only [Errno.neg]; omega, .inl hs₃.2⟩⟩
    · rintro g s₃ ⟨rfl, rfl⟩
      simp only [heap_machine, setHeap_machine, Cmd.wp_bind, Cmd.wp_call, wp_munmap, Cmd.wp_pure]
      have hmap := Mapping.of_alloc hm desc buf
      have halloc := Converts.of_alloc hm ((desc.pitches 0).toNat * desc.height.toNat)
        fun i => buf.byte ((desc.offsets 0).toNat + i)
      refine Cmd.wp_mono (Cmd.wp_quiet (convertEnv_quiet egl desc buf) (convertMapped_spec
        halloc.buffered he hn ⟨hcheck, not_lt.mp hfd, hback (not_lt.mp hfd)⟩ hmap)) ?_
      rintro ⟨ret, frame⟩ m₁ s₄ ⟨⟨hc, hr⟩, rfl⟩
      refine ⟨trivial, ?_⟩
      rintro _ s₅ ⟨-, rfl⟩
      refine ⟨trivial, ?_⟩
      rintro _ s₆ ⟨-, rfl⟩
      have hapart : ¬ m₁.Out m.heap.next := fun ho =>
        hmap.apart (hc.out _ (Nat.lt_succ_self _) ho)
      have hwhole : m₁.heap.Whole ⟨m.heap.next, (desc.pitches 0).toNat * desc.height.toNat⟩ :=
        (Heap.alloc_whole _ _ _).congr (hc.keep _ (Nat.lt_succ_self _) hmap.apart)
      refine ⟨_, hwhole.free, (halloc.trans hc).release le_rfl hapart, ?_⟩
      rcases hr with hneg | ⟨rfl, hconv⟩
      · simp only [hneg.ne, false_and, if_false]
        exact .inl ⟨hneg, .inr trivial⟩
      · simp only [hconv.data_ne, and_false, if_false]
        exact .inr ⟨trivial, trivial, hconv.release hapart⟩

/-- Every run is legal, changes only the output buffers and the staged descriptor, and
succeeds with a converted frame or fails with a negative number. -/
theorem drmtapConvertDmabuf_spec (hm : m.Buffered) (frame : FrameInfo) :
    Cmd.wp (convertEnv egl desc buf) (drmtapConvertDmabuf desc frame) (fun r m' s' =>
      (Converts m m' ∨ Converts (m.stage desc) m') ∧
        ((r.1 < 0 ∧ (s' = s ∨ s' = true)) ∨ (r.1 = 0 ∧ egl ∧ s' = s ∧ Rendered desc r.2 m') ∨
          (r.1 = 0 ∧ s' = true ∧ Converted m.ctx.driverName desc buf r.2 m'))) m s := by
  have hst := hm.stage desc
  have hcpu (m₁ : Machine) (hcheck : checkDesc desc = 0)
      (hback : 0 ≤ desc.dmaBufFd → desc.Backed buf) (hc : Converts (m.stage desc) m₁) :
      Cmd.wp (convertEnv egl desc buf) (convertCpu desc (frameOfDesc desc)) (fun r m' s' =>
        (Converts m m' ∨ Converts (m.stage desc) m') ∧
          ((r.1 < 0 ∧ (s' = s ∨ s' = true)) ∨ (r.1 = 0 ∧ egl ∧ s' = s ∧ Rendered desc r.2 m') ∨
            (r.1 = 0 ∧ s' = true ∧ Converted m.ctx.driverName desc buf r.2 m'))) m₁ s := by
    have hctx := hc.ctx
    refine Cmd.wp_mono (convertCpu_spec hc.buffered (by rw [hctx]; rfl) (by rw [hctx]; rfl)
      hcheck hback) ?_
    rintro r m' s' ⟨hc', hr⟩
    rw [hctx] at hr
    exact ⟨.inr (hc.trans hc'), hr.imp id .inr⟩
  unfold drmtapConvertDmabuf
  rw [Cmd.wp_ite]
  refine ⟨fun h => ⟨.inl (.refl hm), .inl ⟨lt_of_le_of_ne (checkDesc_nonpos desc) h, .inl rfl⟩⟩,
    fun hcheck => ?_⟩
  have hcheck : checkDesc desc = 0 := not_not.mp hcheck
  rw [Cmd.wp_bind, wp_modifyCtx, Cmd.wp_bind]
  refine Cmd.wp_mono checkFd_spec ?_
  rintro ret _ _ ⟨rfl, rfl, hr⟩
  simp only [Cmd.wp_ite, Cmd.wp_bind, Cmd.wp_call, Cmd.wp_pure]
  refine ⟨fun hne => ⟨.inr (.refl hst), .inl ⟨hr.resolve_right fun h => hne h.1, .inl trivial⟩⟩,
    fun hz => ⟨trivial, ?_⟩⟩
  have hback := (hr.resolve_left fun h => h.ne (not_not.mp hz)).2
  rintro avail _ ⟨hav, rfl⟩
  refine ⟨fun ha => ?_, fun _ => hcpu _ hcheck hback (.refl hst)⟩
  refine Cmd.wp_mono (Cmd.wp_quiet (convertEnv_quiet egl desc buf)
    (drmtapGpuEglConvert_spec hst _ _ _ _ _ _ _)) ?_
  rintro (e | out) m₁ _ ⟨⟨hc, hout⟩, rfl⟩
  · exact hcpu _ hcheck hback hc
  · exact ⟨.inr hc, .inr (.inl ⟨rfl, hav.mp ha, rfl, hcheck, out, hout, rfl⟩)⟩

end Convert

end Drmtap
