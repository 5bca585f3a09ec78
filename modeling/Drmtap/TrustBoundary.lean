import Drmtap.MappedGrabs

/-! The two ways in for a peer's buffer, and what each asks of it: the reply of the helper that
passes a descriptor, and the descriptor given to a convert. -/
namespace Drmtap

open Memory Effect

/-- What the file behind a descriptor answers: whether CPU access to it can begin, as to a
dma-buf, and what `lseek` and `fstat` say of its size. -/
structure PassedFile where
  isDmaBuf : Bool
  seekEnd : ℤ
  statSize : Option ℤ

def PassedFile.size (file : PassedFile) : ℤ :=
  if file.seekEnd ≤ 0 then file.statSize.getD file.seekEnd else file.seekEnd

def fileAns (file : PassedFile) : (o : Op) → Ans o → Prop
  | .dmabufSyncStart _, r => r = file.isDmaBuf
  | .lseekEnd _, r => r = file.seekEnd
  | .fstatSize _, r => r = file.statSize
  | _, _ => True

/-- Any environment in which the file stays what it is. -/
abbrev fileEnv (file : PassedFile) : Env := .only (fun _ => True) (fileAns file)

/-- A frame with pixels, on its way to `gpu_auto_process` or to the caller. -/
def Prepared.HandsOut (prepared : Prepared) (frame : FrameInfo) : Prop :=
  ∃ planeId isVirgl, prepared = .ready planeId frame isVirgl ∧ frame.data ≠ none

/-- A descriptor of the frame's buffer, from its first byte on. -/
structure DmabufDesc.Describes (desc : DmabufDesc) (frame : FrameInfo) : Prop where
  fd : desc.dmaBufFd = frame.dmaBufFd
  width : desc.width = frame.width
  height : desc.height = frame.height
  stride : desc.pitches 0 = frame.stride
  format : desc.format = frame.format
  offset : desc.offsets 0 = 0
  planes : numPlanesOf desc = 1

/-- A descriptor of one plane, without HDR. -/
def FrameInfo.desc (frame : FrameInfo) : DmabufDesc where
  dmaBufFd := frame.dmaBufFd
  width := frame.width
  height := frame.height
  format := frame.format
  modifier := frame.modifier
  fbId := frame.fbId
  numPlanes := 1
  offsets _ := 0
  pitches _ := frame.stride
  hdrEotf := 0
  hdrMaxNits := 0

theorem FrameInfo.desc_describes (frame : FrameInfo) : frame.desc.Describes frame :=
  ⟨rfl, rfl, rfl, rfl, rfl, rfl, rfl⟩

section Gates
variable {file : PassedFile} {desc : DmabufDesc} {frame : FrameInfo} {m : Machine}

theorem fdSize_file (fd : ℤ) :
    Cmd.wp (fileEnv file) (fdSize fd) (fun r _ _ => r = file.size) m () := by
  unfold fdSize PassedFile.size
  simp only [Cmd.wp_bind, Cmd.wp_call, Cmd.wp_ite, Cmd.wp_pure]
  refine ⟨trivial, ?_⟩
  rintro _ _ ⟨-, rfl⟩
  refine ⟨fun h => ⟨trivial, ?_⟩, fun h => (if_neg h).symm⟩
  rintro r _ ⟨-, rfl⟩
  rw [if_pos h]
  cases file.statSize <;> rfl

/-- The gates on the file of a single plane. -/
theorem checkFd_file (hfd : 0 ≤ desc.dmaBufFd) (hoff : desc.offsets 0 = 0)
    (hplanes : numPlanesOf desc = 1) (hpos : 0 < (desc.pitches 0).toNat * desc.height.toNat) :
    Cmd.wp (fileEnv file) (checkFd desc) (fun ret _ _ => ret = 0 ↔ file.isDmaBuf = true ∧
      (((desc.pitches 0).toNat * desc.height.toNat : ℕ) : ℤ) ≤ file.size) m () := by
  have hinval : ¬ (-EINVAL : ℤ) = 0 := by decide
  have hz : (desc.offsets 0).toNat = 0 := by
    rw [hoff]
    rfl
  unfold checkFd
  simp only [Cmd.wp_ite, Cmd.wp_bind, Cmd.wp_call, Cmd.wp_pure]
  refine ⟨fun h => absurd h (not_lt.mpr hfd), fun _ => ⟨trivial, ?_⟩⟩
  rintro _ _ ⟨-, rfl⟩
  refine ⟨fun hno => ?_, fun hyes => Cmd.wp_mono (fdSize_file _) ?_⟩
  · simp [hinval, hno]
  · rintro _ _ _ rfl
    refine ⟨trivial, fun _ _ _ => ⟨fun hsmall => ?_, fun hfit => ⟨?_, fun _ => ?_⟩⟩⟩
    · rw [hz] at hsmall
      simp only [hinval, false_iff, not_and, not_le]
      intro _
      push_cast at hsmall ⊢
      omega
    · rintro ⟨p, h1, hp, -⟩
      omega
    · rw [hz] at hfit
      simp only [true_iff]
      refine ⟨by simpa using hyes, ?_⟩
      push_cast at hfit ⊢
      omega

/-- The two sets of bounds on the numbers are one. -/
theorem checkDesc_eq_checkWireFrame (hd : desc.Describes frame) :
    checkDesc desc = 0 ↔ checkWireFrame frame = 0 := by
  rw [checkDesc_eq_zero, hd.planes, DmabufDesc.pitch, hd.stride, hd.width, hd.height, hd.format]
  constructor
  · rintro ⟨-, hb, hs⟩
    unfold checkWireFrame
    rw [if_neg (not_not.mpr (checkGeometry_eq_zero.mpr hb)), if_neg (not_lt.mpr hs)]
  · intro h
    exact ⟨by decide, checkWireFrame_spec.2 h⟩

end Gates

section Reply
variable {planeId : UInt32} {self pixelBuf : Slice} {reply : HelperGrabResult}

theorem preparePassed_yields {frame : FrameInfo} {wire : GrabWire} {fd : ℤ}
    (hok : checkWireFrame frame = 0) :
    Cmd.Yields (preparePassed planeId self frame wire fd) fun prepared =>
      ∀ frame, prepared.HandsOut frame → frame.dmaBufFd = fd ∧ checkWireFrame frame = 0 := by
  apply Cmd.Yields.call_bind
  rintro (e | mapped)
  · refine .pure ?_
    rintro _ ⟨_, _, ⟨⟩, hdata⟩
    exact absurd rfl hdata
  · refine .call_bind fun started => .pure ?_
    rintro _ ⟨_, _, ⟨⟩, -⟩
    exact ⟨rfl, hok⟩

/-- A reply that passes a descriptor hands out that descriptor, within the bounds. -/
theorem prepareReply_passed (hfd : 0 ≤ reply.dmabufFd) :
    Cmd.Yields (prepareReply planeId self pixelBuf reply) fun prepared =>
      ∀ frame, prepared.HandsOut frame →
        frame.dmaBufFd = reply.dmabufFd ∧ checkWireFrame frame = 0 := by
  refine .call_bind fun width => .call_bind fun _ => ?_
  by_cases hok : checkWireFrame (frameOfWire reply.wire width) = 0
  · simp only [ne_eq, hok, not_true_eq_false, if_false, if_pos hfd]
    exact preparePassed_yields hok
  · simp only [ne_eq, hok, not_false_eq_true, if_true]
    refine .call_bind fun _ => .call_bind fun _ => .pure ?_
    rintro _ ⟨_, _, ⟨⟩, -⟩

/-- The buffer of a reply that is handed out would pass the gates of a convert on its numbers; it
would pass those on its file exactly when that is a dma-buf that holds the picture. -/
theorem passed_gates_iff (file : PassedFile) (hfd : 0 ≤ reply.dmabufFd) :
    Cmd.Yields (prepareReply planeId self pixelBuf reply) fun prepared =>
      ∀ frame, prepared.HandsOut frame → ∀ desc : DmabufDesc, desc.Describes frame →
        checkDesc desc = 0 ∧ ∀ m, Cmd.wp (fileEnv file) (checkFd desc)
          (fun ret _ _ => ret = 0 ↔ file.isDmaBuf = true ∧
            ((frame.stride.toNat * frame.height.toNat : ℕ) : ℤ) ≤ file.size) m () := by
  intro E st s prepared st' s' hrun frame hout desc hd
  obtain ⟨hsame, hok⟩ := prepareReply_passed hfd E st s prepared st' s' hrun frame hout
  have hcheck := (checkDesc_eq_checkWireFrame hd).mpr hok
  obtain ⟨-, hb, -⟩ := checkDesc_eq_zero.mp hcheck
  refine ⟨hcheck, fun m => ?_⟩
  rw [← hd.stride, ← hd.height]
  refine checkFd_file ?_ hd.offset hd.planes (Nat.mul_pos hb.stride_pos hb.height_pos)
  rw [hd.fd, hsame]
  exact hfd

end Reply

theorem passed_gates_iff_one :
    Cmd.Yields (prepareReply 1 ⟨0, 40⟩ ⟨1, 4⟩ ⟨passedWire, 7⟩) fun prepared =>
      ∀ frame, prepared.HandsOut frame → ∀ desc : DmabufDesc, desc.Describes frame →
        checkDesc desc = 0 ∧ ∀ m, Cmd.wp (fileEnv ⟨true, 4, none⟩) (checkFd desc)
          (fun ret _ _ => ret = 0 ↔ true = true ∧
            ((frame.stride.toNat * frame.height.toNat : ℕ) : ℤ) ≤
              PassedFile.size ⟨true, 4, none⟩) m () :=
  passed_gates_iff ⟨true, 4, none⟩ (by decide)

/-! A helper that passes a file in memory. -/

/-- Four bytes, and no dma-buf. -/
def memfd : PassedFile := ⟨false, 4, some 4⟩

def memfdDevice : Device
  | .mmap _ _ _ => .ok fun _ => 0
  | .lseekEnd _ => memfd.seekEnd
  | .fstatSize _ => memfd.statSize
  | o => passedDevice o

def memfdReply : M Prepared := prepareReply 1 ⟨0, 40⟩ ⟨1, 4⟩ ⟨passedWire, 7⟩

/-- The frame and its mapping. -/
def Prepared.mapped : Prepared → Option (FrameInfo × Slice)
  | .ready _ frame _ => frame.data.map fun d => (frame, d)
  | _ => none

theorem memfdReply_mapped :
    ((memfdReply.exec 100 (Cmd.still memfdDevice) ⟨.opened "i915" 2, .empty⟩ ()).map
      fun x => x.1.1.mapped.isSome) = some true := by
  decide +kernel

/-- It is mapped and handed out; a convert would refuse it. -/
theorem passed_not_gated : ¬ ∀ (file : PassedFile) (planeId : UInt32) (self pixelBuf : Slice)
    (reply : HelperGrabResult) (m m' : Machine) (prepared : Prepared), 0 ≤ reply.dmabufFd →
    Cmd.Runs (fileEnv file) (prepareReply planeId self pixelBuf reply) m () prepared m' () →
    ∀ frame, prepared.HandsOut frame → ∀ desc : DmabufDesc, desc.Describes frame →
      Cmd.wp (fileEnv file) (checkFd desc) (fun ret _ _ => ret = 0) m' () := by
  intro h
  obtain ⟨⟨⟨prepared, m'⟩, u⟩, he, hmapped⟩ := Option.map_eq_some_iff.mp memfdReply_mapped
  have hruns : Cmd.Runs (fileEnv memfd) memfdReply ⟨.opened "i915" 2, .empty⟩ () prepared m' () := by
    refine Cmd.exec_runs (E := fileEnv memfd) ?_ he
    intro s o r s' hs
    obtain ⟨rfl, rfl⟩ := Prod.mk.inj (Option.some.inj hs)
    exact ⟨trivial, by cases o <;> first | rfl | trivial⟩
  cases prepared with
  | ready planeId frame isVirgl =>
    have hdata : frame.data ≠ none := by
      intro hnone
      simp [Prepared.mapped, hnone] at hmapped
    have hout : (Prepared.ready planeId frame isVirgl).HandsOut frame :=
      ⟨planeId, isVirgl, rfl, hdata⟩
    have hfd := (prepareReply_passed (by decide) _ _ _ _ _ _ hruns frame hout).1
    have hgates := h memfd 1 ⟨0, 40⟩ ⟨1, 4⟩ ⟨passedWire, 7⟩ _ m' _ (by decide) hruns frame hout
      frame.desc frame.desc_describes
    have hopen : ¬ frame.desc.dmaBufFd < 0 := by
      rw [frame.desc_describes.fd, hfd]
      decide
    rw [checkFd, Cmd.wp_ite] at hgates
    have hrefused := hgates.2 hopen
    simp only [Cmd.wp_bind, Cmd.wp_call, Cmd.wp_ite, Cmd.wp_pure] at hrefused
    exact absurd ((hrefused.2 false () ⟨trivial, rfl⟩).1 (by simp)) (by decide)
  | _ => cases hmapped

end Drmtap
