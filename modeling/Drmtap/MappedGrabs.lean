import Drmtap.FastRuns

/-! A convert that returns 0 has pixels; a mapped grab may return 0 without. -/
namespace Drmtap

open Memory Effect

/-! A convert, where the library holds what it holds. -/

section Convert
variable {egl : Prop} {m : Machine} {desc : DmabufDesc} {held : Multiset Resource}

/-- A tight picture can be read. -/
theorem readable_tight (hb : Bounded desc.width.toNat desc.height.toNat desc.pitch)
    {frame : FrameInfo} {out : Slice} (hd : frame.data = some out)
    (hout : Dest m (desc.width.toNat * desc.height.toNat * 4) out)
    (hs : frame.stride = desc.width * 4) (hh : frame.height = desc.height) : frame.Readable m := by
  refine ⟨out, hd, hout.2.1, ?_⟩
  rw [hs, hh, hout.1, mul_four_toNat hb.width_le]
  exact le_of_eq (by ring)

theorem Converted.readable {driver : String} {buf : DmaBuf} {frame : FrameInfo}
    (hc : Converted driver desc buf frame m) : frame.Readable m := by
  cases hc with
  | linear ha _ _ hout =>
    exact readable_tight (checkDesc_eq_zero.mp ha.check).2.1 rfl hout rfl rfl
  | @tiled _ out _ _ _ _ _ hout => exact ⟨out, rfl, hout.2.1, hout.1.ge⟩

theorem Rendered.readable {frame : FrameInfo} (h : Rendered desc frame m) : frame.Readable m := by
  obtain ⟨hcheck, out, hout, rfl⟩ := h
  exact readable_tight (checkDesc_eq_zero.mp hcheck).2.1 rfl hout rfl rfl

theorem lseekEnd_quiet (fd : ℤ) : LibQuiet (.lseekEnd fd) :=
  ⟨⟨rfl, fun _ => rfl⟩, id⟩

theorem fstatSize_quiet (fd : ℤ) : LibQuiet (.fstatSize fd) :=
  ⟨⟨rfl, fun r => by cases r <;> rfl⟩, id⟩

theorem fdSize_reads (fd : ℤ) : Cmd.Reads LibQuiet (fdSize fd) := by
  apply Cmd.Reads.bind (.call (lseekEnd_quiet fd))
  intro size
  apply Cmd.Reads.ite
  · apply Cmd.Reads.bind (.call (fstatSize_quiet fd))
    rintro (_ | s) <;> exact .pure _
  · exact .pure _

theorem fdSizeForMap_reads (fd : ℤ) : Cmd.Reads LibQuiet (fdSizeForMap fd) := by
  apply Cmd.Reads.bind (.call (lseekEnd_quiet fd))
  intro size
  apply Cmd.Reads.ite
  · apply Cmd.Reads.bind (.call (fstatSize_quiet fd))
    rintro (_ | s) <;> exact .pure _
  · exact .pure _

/-- The gates on the file leave nothing open. -/
theorem checkFd_lib : Cmd.wp (libEnv egl .free) (checkFd desc)
    (fun ret m' held' => (ret < 0 ∨ ret = 0) ∧ m' = m ∧ held' = held) m held := by
  have hneg : (-EINVAL : ℤ) < 0 := by decide
  unfold checkFd
  simp only [Cmd.wp_bind, Cmd.wp_ite, Cmd.wp_pure]
  refine ⟨fun _ => ⟨.inr trivial, trivial, trivial⟩, fun _ => lib_take rfl trivial ?_⟩
  rintro (_ | _) -
  · exact ⟨fun _ => ⟨.inl hneg, rfl, zero_add _⟩, fun h => absurd h (by simp)⟩
  · refine ⟨fun h => absurd h (by simp), fun _ => ?_⟩
    refine Cmd.wp_mono ((fdSize_reads _).wp (libEnv_quiet fun _ h => h) _ _) ?_
    rintro size _ _ ⟨rfl, rfl⟩
    exact lib_give rfl (fun _ => rfl) trivial rfl fun _ =>
      ⟨fun _ => ⟨.inl hneg, rfl, rfl⟩, fun _ => ⟨fun _ => ⟨.inl hneg, rfl, rfl⟩,
        fun _ => ⟨.inr trivial, rfl, rfl⟩⟩⟩

/-- Any bytes are those of a file that backs the descriptor. -/
theorem exists_backing (hcheck : checkDesc desc = 0) (hfd : 0 ≤ desc.dmaBufFd)
    (bytes : ℕ → UInt8) : ∃ buf : DmaBuf, Accepted desc buf ∧
      (fun i => buf.byte ((desc.offsets 0).toNat + i)) = bytes := by
  refine ⟨⟨((desc.offsets 0).toNat + desc.pitch * desc.height.toNat + 2 ^ 33 : ℕ),
    fun i => bytes (i - (desc.offsets 0).toNat)⟩, ⟨hcheck, hfd, ?_, fun p _ _ => ?_⟩, ?_⟩
  · exact Int.ofNat_le.mpr (Nat.le_add_right _ _)
  · have h₁ := (desc.offsets p).toNat_lt
    have h₂ := (desc.pitches p).toNat_lt
    refine Int.ofNat_le.mpr ?_
    omega
  · funext i
    simp

theorem convertCpu_lib (hm : m.Buffered) (he : m.ctx.curHdrEotf = desc.hdrEotf)
    (hn : m.ctx.curHdrMaxNits = desc.hdrMaxNits) (hcheck : checkDesc desc = 0) :
    Cmd.wp (libEnv egl .free) (convertCpu desc (frameOfDesc desc)) (fun r m' held' =>
      Converts m m' ∧ held' = held ∧ (r.1 < 0 ∨ (r.1 = 0 ∧ r.2.Readable m'))) m held := by
  have hneg : (-EINVAL : ℤ) < 0 := by decide
  unfold convertCpu
  simp only [Cmd.wp_bind, Cmd.wp_ite, Cmd.wp_pure]
  refine ⟨fun _ => ⟨.refl hm, trivial, .inl hneg⟩, fun hfd => lib_take rfl trivial ?_⟩
  rintro (_ | _) -
  · exact ⟨fun _ => ⟨.refl hm, zero_add _, .inl hneg⟩, fun h => absurd h (by simp)⟩
  · refine ⟨fun h => absurd h (by simp), fun _ => ?_⟩
    refine Cmd.wp_mono ((fdSizeForMap_reads _).wp (libEnv_quiet fun _ h => h) _ _) ?_
    rintro size m _ ⟨rfl, rfl⟩
    refine ⟨fun _ => lib_give rfl (fun _ => rfl) trivial rfl fun _ => ⟨.refl hm, rfl, .inl hneg⟩,
      fun _ => lib_mmap (fun e => ?_) fun bytes => ?_⟩
    · rw [Cmd.wp_bind]
      exact lib_give rfl (fun _ => rfl) trivial rfl fun _ => ⟨.refl hm, rfl, .inl e.neg_lt_zero⟩
    · obtain ⟨buf, hacc, rfl⟩ := exists_backing hcheck (not_lt.mp hfd) bytes
      have hmap := Mapping.of_alloc hm desc buf
      have halloc := Converts.of_alloc hm ((desc.pitches 0).toNat * desc.height.toNat)
        fun i => buf.byte ((desc.offsets 0).toNat + i)
      simp only [Cmd.wp_bind, Cmd.wp_pure]
      refine Cmd.wp_mono (Cmd.wp_quiet libEnv_pipe
        (convertMapped_spec halloc.buffered he hn hacc hmap)) ?_
      rintro ⟨ret, frame⟩ m₁ _ ⟨⟨hc, hr⟩, rfl⟩
      refine lib_give rfl (fun _ => rfl) trivial (add_left_comm {Resource.mapping} _ _) fun _ => ?_
      have hapart : ¬ m₁.Out m.heap.next := fun ho =>
        hmap.apart (hc.out _ (Nat.lt_succ_self _) ho)
      have hwhole : m₁.heap.Whole ⟨m.heap.next, (desc.pitches 0).toNat * desc.height.toNat⟩ :=
        (Heap.alloc_whole _ _ _).congr (hc.keep _ (Nat.lt_succ_self _) hmap.apart)
      refine lib_munmap hwhole rfl ⟨(halloc.trans hc).release le_rfl hapart, rfl, ?_⟩
      rcases hr with hneg | ⟨rfl, hconv⟩
      · simp only [hneg.ne, false_and, if_false]
        exact .inl hneg
      · simp only [hconv.data_ne, and_false, if_false]
        exact .inr ⟨trivial, (hconv.release hapart).readable⟩

/-- A convert gives back what it takes, and has pixels when it succeeds. -/
theorem drmtapConvertDmabuf_lib (hm : m.Buffered) (frame : FrameInfo) :
    Cmd.wp (libEnv egl .free) (drmtapConvertDmabuf desc frame) (fun r m' held' =>
      (Converts m m' ∨ Converts (m.stage desc) m') ∧ held' = held ∧
        (r.1 < 0 ∨ (r.1 = 0 ∧ r.2.Readable m'))) m held := by
  have hst := hm.stage desc
  unfold drmtapConvertDmabuf
  rw [Cmd.wp_ite]
  refine ⟨fun h => ⟨.inl (.refl hm), rfl, .inl (lt_of_le_of_ne (checkDesc_nonpos desc) h)⟩,
    fun hcheck => ?_⟩
  have hcheck : checkDesc desc = 0 := not_not.mp hcheck
  rw [Cmd.wp_bind, wp_modifyCtx, Cmd.wp_bind]
  refine Cmd.wp_mono checkFd_lib ?_
  rintro ret _ held₁ ⟨hret, rfl, hheld⟩
  have hcpu (m₁ : Machine) (hc : Converts (m.stage desc) m₁) :
      Cmd.wp (libEnv egl .free) (convertCpu desc (frameOfDesc desc)) (fun r m' held' =>
        (Converts m m' ∨ Converts (m.stage desc) m') ∧ held' = held ∧
          (r.1 < 0 ∨ (r.1 = 0 ∧ r.2.Readable m'))) m₁ held₁ := by
    refine Cmd.wp_mono (convertCpu_lib hc.buffered (by rw [hc.ctx]; rfl) (by rw [hc.ctx]; rfl)
      hcheck) ?_
    rintro r m' _ ⟨hc', rfl, hr⟩
    exact ⟨.inr (hc.trans hc'), hheld, hr⟩
  simp only [Cmd.wp_ite, Cmd.wp_bind, Cmd.wp_pure]
  refine ⟨fun hne => ⟨.inr (.refl hst), hheld, .inl (hret.resolve_right hne)⟩, fun _ => ?_⟩
  refine lib_quiet ⟨⟨rfl, fun r => by cases r <;> rfl⟩, id⟩ fun avail _ =>
    ⟨fun _ => ?_, fun _ => hcpu _ (.refl hst)⟩
  refine Cmd.wp_mono (Cmd.wp_quiet libEnv_pipe (drmtapGpuEglConvert_spec hst _ _ _ _ _ _ _)) ?_
  rintro (e | out) m₁ _ ⟨⟨hc, hout⟩, rfl⟩
  · exact hcpu _ hc
  · exact ⟨.inr hc, hheld, .inr ⟨rfl, Rendered.readable ⟨hcheck, out, hout, rfl⟩⟩⟩

end Convert

/-! A helper that passes a descriptor which cannot be mapped. -/

def passedWire : GrabWire :=
  { GrabWire.zero with
    width := 1, height := 1, stride := 4, format := fmtXR24, fbId := 3
    flags := helperFlagHasDmabuf }

def passedDevice : Device
  | .getPlaneResources => .ok [1]
  | .getPlane _ => some ⟨1, 2, 3⟩
  | .objectGetProperties _ _ => some [(0, drmPlaneTypePrimary)]
  | .getProperty _ => some "type"
  | .getFB2 _ => .ok
    { width := 1, height := 1, pixelFormat := fmtXR24, modifier := 0, hasModifiers := true
      handles := fun _ => 0, pitches := fun _ => 4, offsets := fun _ => 0 }
  | .malloc _ => some fun _ => 0
  | .callocPriv => true
  | .helperSpawn => .ok (5, 6)
  | .send _ bytes => .ok bytes.length
  | .recvmsg _ _ => .ok ⟨passedWire.encode, [.passing [7]], false⟩
  | o => Device.blank o

theorem passedDevice_blank : ((drmtapGrabMapped .cleared).exec 100 (libLedger.device passedDevice)
    ⟨.opened "i915" 2, .empty⟩ 0).map (fun x => (x.1.1.1, x.1.1.2.data)) = some (0, none) := by
  decide +kernel

theorem passedDevice_libAns (o : Op) : libAns False o (passedDevice o) := by
  cases o with
  | recvmsg fd len =>
    have hne : passedWire.encode ≠ [] := by decide
    exact fun h => absurd h hne
  | eglAvailable => simp [libAns, passedDevice, Device.blank]
  | recv fd len => simp [libAns, passedDevice, Device.blank]
  | _ => trivial

/-- The grab of a frame that cannot be mapped returns 0, without pixels. -/
theorem grabMapped_without_pixels : ¬ ∀ r m' held',
    Cmd.Runs (libEnv False .free) (drmtapGrabMapped .cleared) ⟨.opened "i915" 2, .empty⟩ 0
      r m' held' → r.1 = 0 → r.2.Readable m' := by
  intro h
  obtain ⟨⟨⟨⟨ret, frame⟩, m'⟩, held'⟩, he, heq⟩ := Option.map_eq_some_iff.mp passedDevice_blank
  obtain ⟨rfl, hd⟩ : ret = 0 ∧ frame.data = none := by simpa using heq
  have hruns : Cmd.Runs (libEnv False .free) (drmtapGrabMapped .cleared)
      ⟨.opened "i915" 2, .empty⟩ 0 (0, frame) m' held' := by
    refine Cmd.exec_runs (E := libEnv False .free) ?_ he
    intro s o r s' hs
    obtain ⟨rfl, rfl⟩ := Prod.mk.inj (Option.some.inj hs)
    exact ⟨passedDevice_libAns o, rfl⟩
  obtain ⟨d, hd', -⟩ := h _ _ _ hruns rfl
  exact absurd (hd.symm.trans hd') (by simp)

end Drmtap
