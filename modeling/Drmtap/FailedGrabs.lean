import Drmtap.MappedGrabs

/-! What a failed grab leaves in the frame of its caller. -/
namespace Drmtap

open Memory Effect

/-- Nothing to release, and no descriptor. -/
def FrameInfo.OwnsNothing (frame : FrameInfo) : Prop := frame.priv = none ∧ frame.dmaBufFd = -1

theorem FrameInfo.OwnsNothing.release {frame : FrameInfo} (h : frame.OwnsNothing) :
    drmtapFrameRelease frame = pure .cleared := by
  unfold drmtapFrameRelease
  rw [h.1]

theorem FrameInfo.cleared_ownsNothing : FrameInfo.cleared.OwnsNothing := ⟨rfl, rfl⟩

/-! `prepareGrab`, as far as the reply of the helper. -/

inductive Fetched where
  /-- no reply was asked for, or none came -/
  | early (prepared : Prepared)
  /-- the helper described a frame, of which the CRTC scans out `width` -/
  | replied (planeId : UInt32) (self pixelBuf : Slice) (reply : HelperGrabResult) (width : UInt32)

/-- The frame of a reply, where its width is known. -/
def settleReply (planeId : UInt32) (self pixelBuf : Slice) (reply : HelperGrabResult)
    (width : UInt32) : M Prepared := do
  let wire := reply.wire
  let frame := frameOfWire wire width
  modifyCtx (·.setHdr (wire.hdrEotf, wire.hdrMaxNits))
  let ret := checkWireFrame frame
  if ret ≠ 0 then do
    closeFd reply.dmabufFd
    freePriv self
    pure (.done ret frame)
  else if 0 ≤ reply.dmabufFd then preparePassed planeId self frame wire reply.dmabufFd
  else preparePixels planeId self pixelBuf frame wire

def Fetched.settle : Fetched → M Prepared
  | .early prepared => pure prepared
  | .replied planeId self pixelBuf reply width => settleReply planeId self pixelBuf reply width

def fetchReply (planeId : UInt32) (frame : FrameInfo) (pixelBuf : Slice) (bufSize : ℕ) :
    M Fetched := do
  let (ret, reply) ← drmtapHelperGrab pixelBuf bufSize
  if ret < 0 then do
    let (ret, frame) ← grabCleanup frame 0 (-1) (- EACCES)
    pure (.early (.done ret frame))
  else
    match ← callocPriv with
    | none => do
      closeFd reply.dmabufFd
      pure (.early (.done (- ENOMEM) frame))
    | some self => do
      let width ← drmtapScanoutWidth reply.wire.width reply.wire.modifier
      pure (.replied planeId self pixelBuf reply width)

def fetchByHelper (planeId : UInt32) (fb2 : Fb2) (frame : FrameInfo) : M Fetched := do
  let bufSize := (fb2.pitches 0).toNat * fb2.height.toNat
  let ctx ← getCtx
  let (ret, buf) ← drmtapEnsureBuf ctx.pixelBuf bufSize
  modifyCtx (·.setPixelBuf buf)
  match buf with
  | some pixelBuf =>
    if ret ≠ 0 then pure (.early (.done ret frame))
    else fetchReply planeId frame pixelBuf bufSize
  | none => pure (.early (.done ret frame))

def fetchFramebuffer (doMmap : Bool) (planeId fbId : UInt32) (fb2 : Fb2) (frame : FrameInfo) :
    M Fetched := do
  if fb2.handles 0 = 0 then fetchByHelper planeId fb2 frame
  else
    match ← sys (.primeHandleToFD (fb2.handles 0)) with
    | .ok primeFd => do
      let prepared ← prepareDirect doMmap planeId fbId fb2 frame primeFd
      pure (.early prepared)
    | .error e =>
      if e.denied then do
        drmtapGemClose (fb2.handles 0)
        fetchByHelper planeId fb2 frame
      else do
        let (ret, frame) ← grabCleanup frame (fb2.handles 0) (-1) e.neg
        pure (.early (.done ret frame))

def fetchGrab (doMmap : Bool) (frame : FrameInfo) : M Fetched := do
  let ctx ← getCtx
  if ctx.isRenderOnly then pure (.early (.done (- ENOTSUP) frame))
  else
    match ← readScanout with
    | .error ret => pure (.early (.done ret frame))
    | .ok (planeId, fbId, fb2) => do
      closeAuxiliaryGemHandles fb2
      let ret := checkGeometry fb2.width fb2.height (fb2.pitches 0)
      if ret ≠ 0 then do
        let (ret, frame) ← grabCleanup frame (fb2.handles 0) (-1) ret
        pure (.early (.done ret frame))
      else do
        modifyCtx (·.stageFb2 fb2)
        fetchFramebuffer doMmap planeId fbId fb2 frame

/-! Each of them, and what is left to do, make the function of the source. -/

@[simp] theorem settle_early (prepared : Prepared) :
    Fetched.settle (.early prepared) = pure prepared := rfl

theorem askHelper_eq (planeId : UInt32) (frame : FrameInfo) (pixelBuf : Slice) (bufSize : ℕ) :
    askHelper planeId frame pixelBuf bufSize =
      fetchReply planeId frame pixelBuf bufSize >>= Fetched.settle := by
  unfold askHelper fetchReply
  rw [bind_assoc]
  congr 1
  funext r
  obtain ⟨ret, reply⟩ := r
  by_cases h : ret < 0
  · simp only [if_pos h, bind_assoc, pure_bind, settle_early]
  · simp only [if_neg h, bind_assoc]
    congr 1
    funext made
    cases made with
    | none => simp only [bind_assoc, pure_bind, settle_early]
    | some self =>
      simp only [bind_assoc, pure_bind]
      rfl

theorem prepareByHelper_eq (planeId : UInt32) (fb2 : Fb2) (frame : FrameInfo) :
    prepareByHelper planeId fb2 frame = fetchByHelper planeId fb2 frame >>= Fetched.settle := by
  unfold prepareByHelper fetchByHelper
  simp only [bind_assoc]
  congr 1
  funext ctx
  congr 1
  funext r
  obtain ⟨ret, buf⟩ := r
  congr 1
  funext _
  cases buf with
  | none => simp only [pure_bind, settle_early]
  | some pixelBuf =>
    simp only [askHelper_eq]
    by_cases h : ret ≠ 0
    · simp only [if_pos h, pure_bind, settle_early]
    · simp only [if_neg h]

theorem prepareFramebuffer_eq (doMmap : Bool) (planeId fbId : UInt32) (fb2 : Fb2)
    (frame : FrameInfo) : prepareFramebuffer doMmap planeId fbId fb2 frame =
      fetchFramebuffer doMmap planeId fbId fb2 frame >>= Fetched.settle := by
  unfold prepareFramebuffer fetchFramebuffer
  rw [prepareByHelper_eq]
  by_cases h : fb2.handles 0 = 0
  · simp only [if_pos h]
  · simp only [if_neg h, bind_assoc]
    congr 1
    funext r
    cases r with
    | ok primeFd => simp only [bind_assoc, pure_bind, settle_early, bind_pure]
    | error e =>
      by_cases hd : e.denied
      · simp only [if_pos hd, bind_assoc]
      · simp only [if_neg hd, bind_assoc, pure_bind, settle_early]

theorem prepareGrab_eq (doMmap : Bool) (frame : FrameInfo) :
    prepareGrab doMmap frame = fetchGrab doMmap frame >>= Fetched.settle := by
  unfold prepareGrab fetchGrab
  rw [bind_assoc]
  congr 1
  funext ctx
  by_cases h : ctx.isRenderOnly
  · simp only [if_pos h, pure_bind, settle_early]
  · simp only [if_neg h, bind_assoc]
    congr 1
    funext r
    cases r with
    | error ret => simp only [pure_bind, settle_early]
    | ok scan =>
      obtain ⟨planeId, fbId, fb2⟩ := scan
      simp only [bind_assoc]
      congr 1
      funext _
      by_cases hbad : checkGeometry fb2.width fb2.height (fb2.pitches 0) ≠ 0
      · simp only [if_pos hbad, bind_assoc, pure_bind, settle_early]
      · simp only [if_neg hbad, bind_assoc, prepareFramebuffer_eq]

/-! What each exit leaves. -/

/-- A failure that is decided leaves nothing. -/
def Prepared.Clean : Prepared → Prop
  | .done ret frame => ret ≠ 0 → frame.OwnsNothing
  | _ => True

/-- The reply, if there is one, is within the bounds at the width that is scanned out, and without
a descriptor it comes with exactly one frame. -/
def Fetched.WellFormed : Fetched → Prop
  | .early _ => True
  | .replied _ _ _ reply width =>
    checkWireFrame (frameOfWire reply.wire width) = 0 ∧
      (reply.dmabufFd < 0 →
        reply.wire.dataSize.toNat = reply.wire.stride.toNat * reply.wire.height.toNat)

section Exits
variable {frame : FrameInfo}

theorem frameOfWire_not_ownsNothing (wire : GrabWire) (width : UInt32) :
    ¬ (frameOfWire wire width).OwnsNothing := by
  intro h
  have hfd : (0 : ℤ) = -1 := h.2
  exact absurd hfd (by decide)

theorem grabCleanup_clean (gem : UInt32) (fd ret : ℤ) :
    Cmd.Yields (grabCleanup frame gem fd ret) fun r => r.2.OwnsNothing :=
  .call_bind fun _ => .call_bind fun _ => .pure ⟨rfl, rfl⟩

/-- The cleanup of a frame without private data, as the exits of `prepareGrab` make it. -/
theorem grabCleanup_done (gem : UInt32) (fd ret : ℤ) :
    Cmd.Yields (grabCleanup frame gem fd ret >>= fun r => pure (Fetched.early (.done r.1 r.2)))
      fun x => ∀ prepared, x = .early prepared → prepared.Clean := by
  refine .bind (grabCleanup_clean gem fd ret) fun r hr => .pure ?_
  rintro _ ⟨⟩ -
  exact hr

theorem unchanged_done (hf : frame.OwnsNothing) (ret : ℤ) :
    Cmd.Yields (pure (Fetched.early (.done ret frame)) : M Fetched)
      fun x => ∀ prepared, x = .early prepared → prepared.Clean := by
  refine .pure ?_
  rintro _ ⟨⟩ -
  exact hf

theorem fetchReply_clean (hf : frame.OwnsNothing) (planeId : UInt32) (pixelBuf : Slice)
    (bufSize : ℕ) : Cmd.Yields (fetchReply planeId frame pixelBuf bufSize)
      fun x => ∀ prepared, x = .early prepared → prepared.Clean := by
  apply Cmd.Yields.call_bind
  intro r
  apply Cmd.Yields.ite
  · exact grabCleanup_done _ _ _
  · apply Cmd.Yields.call_bind
    intro made
    cases made with
    | none => exact .call_bind fun _ => unchanged_done hf _
    | some self =>
      refine .call_bind fun width => .pure ?_
      rintro _ ⟨⟩

theorem fetchByHelper_clean (hf : frame.OwnsNothing) (planeId : UInt32) (fb2 : Fb2) :
    Cmd.Yields (fetchByHelper planeId fb2 frame)
      fun x => ∀ prepared, x = .early prepared → prepared.Clean := by
  apply Cmd.Yields.call_bind
  intro ctx
  apply Cmd.Yields.call_bind
  intro r
  apply Cmd.Yields.call_bind
  intro _
  obtain ⟨ret, buf⟩ := r
  cases buf with
  | none => exact unchanged_done hf ret
  | some pixelBuf => exact .ite (unchanged_done hf ret) (fetchReply_clean hf _ _ _)

theorem prepareDirect_clean (doMmap : Bool) (planeId fbId : UInt32) (fb2 : Fb2) (primeFd : ℤ) :
    Cmd.Yields (prepareDirect doMmap planeId fbId fb2 frame primeFd) Prepared.Clean := by
  apply Cmd.Yields.call_bind
  intro made
  cases made with
  | none =>
    refine .bind (grabCleanup_clean _ _ _) fun r hr => .pure ?_
    exact fun _ => hr
  | some self =>
    apply Cmd.Yields.call_bind
    intro width
    apply Cmd.Yields.ite
    · apply Cmd.Yields.call_bind
      intro got
      cases got with
      | error e => exact .pure trivial
      | ok mapped => exact .call_bind fun started => .pure trivial
    · exact .pure trivial

theorem fetchFramebuffer_clean (hf : frame.OwnsNothing) (doMmap : Bool) (planeId fbId : UInt32)
    (fb2 : Fb2) : Cmd.Yields (fetchFramebuffer doMmap planeId fbId fb2 frame)
      fun x => ∀ prepared, x = .early prepared → prepared.Clean := by
  apply Cmd.Yields.ite
  · exact fetchByHelper_clean hf planeId fb2
  · apply Cmd.Yields.call_bind
    intro r
    cases r with
    | ok primeFd =>
      refine .bind (prepareDirect_clean doMmap planeId fbId fb2 primeFd) fun prepared hp => .pure ?_
      rintro _ ⟨⟩
      exact hp
    | error e =>
      apply Cmd.Yields.ite
      · exact .call_bind fun _ => fetchByHelper_clean hf planeId fb2
      · exact grabCleanup_done _ _ _

theorem fetchGrab_clean (hf : frame.OwnsNothing) (doMmap : Bool) :
    Cmd.Yields (fetchGrab doMmap frame)
      fun x => ∀ prepared, x = .early prepared → prepared.Clean := by
  apply Cmd.Yields.call_bind
  intro ctx
  apply Cmd.Yields.ite
  · exact unchanged_done hf _
  · apply Cmd.Yields.call_bind
    intro r
    cases r with
    | error ret => exact unchanged_done hf ret
    | ok scan =>
      apply Cmd.Yields.call_bind
      intro _
      apply Cmd.Yields.ite
      · exact grabCleanup_done _ _ _
      · exact .call_bind fun _ => fetchFramebuffer_clean hf _ _ _ _

/-- After the `memset`, the exits of a malformed reply leave the descriptor 0. -/
theorem settleReply_clean_iff {planeId : UInt32} {self pixelBuf : Slice} {reply : HelperGrabResult}
    {width : UInt32} : Cmd.Yields (settleReply planeId self pixelBuf reply width) fun prepared =>
      prepared.Clean ↔ (Fetched.replied planeId self pixelBuf reply width).WellFormed := by
  have hno := frameOfWire_not_ownsNothing reply.wire width
  apply Cmd.Yields.call_bind
  intro _
  by_cases hok : checkWireFrame (frameOfWire reply.wire width) = 0
  · simp only [ne_eq, hok, not_true_eq_false, if_false]
    by_cases hfd : 0 ≤ reply.dmabufFd
    · have hwell : (Fetched.replied planeId self pixelBuf reply width).WellFormed :=
        ⟨hok, fun h => absurd hfd (not_le.mpr h)⟩
      rw [if_pos hfd]
      apply Cmd.Yields.call_bind
      intro got
      cases got with
      | error e => exact .pure (iff_of_true trivial hwell)
      | ok mapped => exact .call_bind fun started => .pure (iff_of_true trivial hwell)
    · rw [if_neg hfd]
      by_cases hsize : reply.wire.dataSize.toNat = reply.wire.stride.toNat * reply.wire.height.toNat
      · have hpix : preparePixels planeId self pixelBuf (frameOfWire reply.wire width) reply.wire
            = _ := if_neg (not_not.mpr hsize)
        rw [hpix]
        exact .pure (iff_of_true trivial ⟨hok, fun _ => hsize⟩)
      · have hpix : preparePixels planeId self pixelBuf (frameOfWire reply.wire width) reply.wire
            = _ := if_pos hsize
        rw [hpix]
        refine .call_bind fun _ => .pure (iff_of_false (fun h => hno (h (by decide))) ?_)
        exact fun h => hsize (h.2 (not_le.mp hfd))
  · simp only [ne_eq, hok, not_false_eq_true, if_true]
    refine .call_bind fun _ => .call_bind fun _ => .pure ?_
    exact iff_of_false (fun h => hno (h hok)) fun h => hok h.1

theorem drmtapFrameRelease_ownsNothing :
    Cmd.Yields (drmtapFrameRelease frame) FrameInfo.OwnsNothing := by
  unfold drmtapFrameRelease
  cases frame.priv with
  | none => exact .pure FrameInfo.cleared_ownsNothing
  | some p =>
    exact .call_bind fun _ => .call_bind fun _ => .call_bind fun _ => .call_bind fun _ =>
      .pure FrameInfo.cleared_ownsNothing

theorem concludeGrab_fails {planeId : UInt32} {ret : ℤ} :
    Cmd.Yields (concludeGrab planeId ret frame) fun r => r.1 ≠ 0 → r.2.OwnsNothing := by
  apply Cmd.Yields.ite
  · exact .bind drmtapFrameRelease_ownsNothing fun f hf => .pure fun _ => hf
  · exact .call_bind fun _ => .pure fun h => absurd rfl h

theorem finishGrab_clean_iff {doMmap : Bool} {prepared : Prepared} :
    Cmd.Yields (finishGrab doMmap prepared) fun r =>
      (r.1 ≠ 0 → r.2.OwnsNothing) ↔ prepared.Clean := by
  cases prepared with
  | done ret frame => exact .pure Iff.rfl
  | ready planeId frame isVirgl =>
    have hend : ∀ ret frame, Cmd.Yields (concludeGrab planeId ret frame) fun r =>
        (r.1 ≠ 0 → r.2.OwnsNothing) ↔ (Prepared.ready planeId frame isVirgl).Clean :=
      fun ret frame E st s a st' s' hr => iff_of_true (concludeGrab_fails E st s a st' s' hr) trivial
    exact .ite (.call_bind fun r => hend _ _) (hend _ _)
  | unmapped planeId frame p e =>
    apply Cmd.Yields.call_bind
    intro r
    apply Cmd.Yields.ite
    · exact .call_bind fun _ => .call_bind fun _ => .call_bind fun _ =>
        .pure (iff_of_true (fun _ => ⟨rfl, rfl⟩) trivial)
    · exact fun E st s a st' s' hr => iff_of_true (concludeGrab_fails E st s a st' s' hr) trivial

end Exits

/-! The entry points -/

inductive GrabEntry where
  | grab
  | mapped
  | desc (desc : DmabufDesc)

namespace GrabEntry

/-- The result of a call, and the frame it leaves. -/
def run : GrabEntry → FrameInfo → M (ℤ × FrameInfo)
  | .grab, frame => drmtapGrab frame
  | .mapped, frame => drmtapGrabMapped frame
  | .desc d, frame => do
    let (ret, _, frame) ← drmtapGrabDesc d frame
    pure (ret, frame)

def maps : GrabEntry → Bool
  | .mapped => true
  | _ => false

/-- What `drmtap_grab_desc` makes of a grab, on a context that was `before`. -/
def describe (before : Ctx) (desc : DmabufDesc) (ret : ℤ) (frame : FrameInfo) :
    M (ℤ × DmabufDesc × FrameInfo) :=
  if ret ≠ 0 then pure (ret, desc, frame)
  else if frame.dmaBufFd < 0 then do
    let frame ← drmtapFrameRelease frame
    modifyCtx (·.setGrabPlane before.grabPlaneId)
    pure (- ENOTSUP, desc, frame)
  else do
    let ctx ← getCtx
    pure (0, descOfGrab ctx frame, frame)

/-- The rest of a call, after the fetch. -/
def settle (before : Ctx) : GrabEntry → Fetched → M (ℤ × FrameInfo)
  | .grab, fetched => fetched.settle >>= finishGrab false
  | .mapped, fetched => fetched.settle >>= finishGrab true
  | .desc d, fetched => do
    let prepared ← fetched.settle
    let (ret, frame) ← finishGrab false prepared
    let (ret, _, frame) ← describe before d ret frame
    pure (ret, frame)

end GrabEntry

section Entry
variable {frame : FrameInfo}

theorem doGrab_eq (doMmap : Bool) (frame : FrameInfo) :
    doGrab doMmap frame =
      fetchGrab doMmap frame >>= fun fetched => fetched.settle >>= finishGrab doMmap := by
  unfold doGrab
  rw [prepareGrab_eq, bind_assoc]

theorem GrabEntry.run_eq (call : GrabEntry) (frame : FrameInfo) :
    call.run frame = getCtx >>= fun before =>
      fetchGrab call.maps frame >>= fun fetched => call.settle before fetched := by
  cases call with
  | grab => exact doGrab_eq false frame
  | mapped => exact doGrab_eq true frame
  | desc desc =>
    have hdesc : drmtapGrabDesc desc frame = getCtx >>= fun before =>
        doGrab false frame >>= fun r => GrabEntry.describe before desc r.1 r.2 := rfl
    simp only [GrabEntry.run, hdesc, doGrab_eq, bind_assoc]
    rfl

theorem settle_clean_iff {fetched : Fetched}
    (hf : ∀ prepared, fetched = .early prepared → prepared.Clean) :
    Cmd.Yields fetched.settle fun prepared => prepared.Clean ↔ fetched.WellFormed := by
  cases fetched with
  | early prepared => exact .pure (iff_of_true (hf prepared rfl) trivial)
  | replied planeId self pixelBuf reply width => exact settleReply_clean_iff

theorem describe_fails {before : Ctx} {desc : DmabufDesc} {ret : ℤ} {frame : FrameInfo} :
    Cmd.Yields (GrabEntry.describe before desc ret frame) fun r =>
      (r.1 ≠ 0 → r.2.2.OwnsNothing) ↔ (ret ≠ 0 → frame.OwnsNothing) := by
  by_cases h0 : ret = 0
  · have hok : ret ≠ 0 → frame.OwnsNothing := fun h => absurd h0 h
    have hdesc : GrabEntry.describe before desc ret frame = _ := if_neg (not_not.mpr h0)
    rw [hdesc]
    apply Cmd.Yields.ite
    · refine .bind drmtapFrameRelease_ownsNothing fun f hf => .call_bind fun _ => .pure ?_
      exact iff_of_true (fun _ => hf) hok
    · exact .call_bind fun ctx => .pure (iff_of_true (fun h => absurd rfl h) hok)
  · have hdesc : GrabEntry.describe before desc ret frame = _ := if_pos h0
    rw [hdesc]
    exact .pure Iff.rfl

theorem GrabEntry.settle_iff (call : GrabEntry) (before : Ctx) {fetched : Fetched}
    (hf : ∀ prepared, fetched = .early prepared → prepared.Clean) :
    Cmd.Yields (call.settle before fetched) fun r =>
      (r.1 ≠ 0 → r.2.OwnsNothing) ↔ fetched.WellFormed := by
  have hgrab : ∀ doMmap, Cmd.Yields (fetched.settle >>= finishGrab doMmap) fun r =>
      (r.1 ≠ 0 → r.2.OwnsNothing) ↔ fetched.WellFormed := by
    intro doMmap
    refine .bind (settle_clean_iff hf) fun prepared hp => ?_
    intro E st s r st' s' hr
    exact (finishGrab_clean_iff E st s r st' s' hr).trans hp
  cases call with
  | grab => exact hgrab false
  | mapped => exact hgrab true
  | desc desc =>
    have hdesc : GrabEntry.settle before (.desc desc) fetched =
        (fetched.settle >>= finishGrab false) >>= fun r =>
          GrabEntry.describe before desc r.1 r.2 >>= fun d => pure (d.1, d.2.2) := by
      rw [bind_assoc]
      rfl
    rw [hdesc]
    refine .bind (hgrab false) fun r hr => .bind describe_fails fun d hd => .pure ?_
    exact hd.trans hr

end Entry

/-- A failed grab leaves the caller's frame owning nothing, and no descriptor in it, unless the
helper's reply is malformed: the two exits for that come after the `memset` of the frame, and
leave the descriptor 0. -/
theorem failed_grab_owns_nothing_iff (call : GrabEntry) {frame : FrameInfo}
    (hpriv : frame.priv = none) (hfd : frame.dmaBufFd = -1) :
    (call.run frame = getCtx >>= fun before =>
        fetchGrab call.maps frame >>= fun fetched => call.settle before fetched) ∧
      Cmd.Yields (fetchGrab call.maps frame) fun fetched => ∀ before,
        Cmd.Yields (call.settle before fetched) fun r =>
          (r.1 ≠ 0 → r.2.OwnsNothing ∧ drmtapFrameRelease r.2 = pure .cleared) ↔
            fetched.WellFormed := by
  refine ⟨call.run_eq frame, ?_⟩
  intro E st s fetched st₁ s₁ hfetch before E' st₂ s₂ r st' s' hr
  have hclean := fetchGrab_clean ⟨hpriv, hfd⟩ call.maps E st s fetched st₁ s₁ hfetch
  have hiff : (r.1 ≠ 0 → r.2.OwnsNothing) ↔ fetched.WellFormed :=
    call.settle_iff before hclean E' st₂ s₂ r st' s' hr
  rw [← hiff]
  exact forall_congr' fun _ => and_iff_left_of_imp FrameInfo.OwnsNothing.release

theorem failed_grab_owns_nothing_iff_cleared :
    (GrabEntry.mapped.run .cleared = getCtx >>= fun before =>
        fetchGrab true .cleared >>= fun fetched => GrabEntry.mapped.settle before fetched) ∧
      Cmd.Yields (fetchGrab true .cleared) fun fetched => ∀ before,
        Cmd.Yields (GrabEntry.mapped.settle before fetched) fun r =>
          (r.1 ≠ 0 → r.2.OwnsNothing ∧ drmtapFrameRelease r.2 = pure .cleared) ↔
            fetched.WellFormed :=
  failed_grab_owns_nothing_iff .mapped rfl rfl

/-! A helper that describes a frame without a stride. -/

def strideless : Device
  | .recvmsg _ _ => .ok ⟨{ passedWire with stride := 0 }.encode, [.passing [7]], false⟩
  | o => passedDevice o

theorem strideless_descriptor : ((drmtapGrabMapped .cleared).exec 100 (libLedger.device strideless)
    ⟨.opened "i915" 2, .empty⟩ 0).map (fun x => (x.1.1.1, x.1.1.2.dmaBufFd)) =
      some (- EINVAL, 0) := by
  decide +kernel

/-- The grab fails, and leaves a frame that names the descriptor 0. -/
theorem failed_grab_names_descriptor : ¬ ∀ (call : GrabEntry) (frame : FrameInfo) r m' held',
    frame.priv = none → frame.dmaBufFd = -1 →
    Cmd.Runs (libEnv False .free) (call.run frame) ⟨.opened "i915" 2, .empty⟩ 0 r m' held' →
      r.1 ≠ 0 → r.2.OwnsNothing := by
  intro h
  obtain ⟨⟨⟨⟨ret, frame⟩, m'⟩, held'⟩, he, heq⟩ :=
    Option.map_eq_some_iff.mp strideless_descriptor
  obtain ⟨rfl, hfd⟩ : ret = - EINVAL ∧ frame.dmaBufFd = 0 := by simpa using heq
  have hans : ∀ o, libAns False o (strideless o) := by
    intro o
    cases o with
    | recvmsg fd len =>
      have hne : { passedWire with stride := 0 }.encode ≠ [] := by decide
      exact fun h => absurd h hne
    | _ => exact passedDevice_libAns _
  have hruns : Cmd.Runs (libEnv False .free) (GrabEntry.mapped.run .cleared)
      ⟨.opened "i915" 2, .empty⟩ 0 (- EINVAL, frame) m' held' := by
    refine Cmd.exec_runs (E := libEnv False .free) ?_ he
    intro s o r s' hs
    obtain ⟨rfl, rfl⟩ := Prod.mk.inj (Option.some.inj hs)
    exact ⟨hans o, rfl⟩
  have hfail : (- EINVAL : ℤ) ≠ 0 := by decide
  have howns := (h .mapped .cleared _ _ _ rfl rfl hruns hfail).2
  exact absurd (hfd.symm.trans howns) (by decide)

end Drmtap
