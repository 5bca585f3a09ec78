import Drmtap.Egl

/-! Skipping an unchanged frame: what the thread remembers of its last full convert, and why that
is still in the output buffer when `hash_check` says so. -/
namespace Drmtap

open Memory Effect

/-- Every call is allowed, and any answer possible. -/
abbrev anyGl : Effect.Env (Op ⊕ GlOp) EglAns := .only (fun _ => True) fun _ _ => True

/-- The calls that read nothing of the frame. -/
def DrawOp : Op ⊕ GlOp → Prop
  | .inr (.hashPass _ _) | .inr (.readPixels _) => False
  | _ => True

section Log
variable {K : Type}

/-- The frame is that of the last commit on this thread, and since then nothing has asked for an
output buffer on its context but the skips of this same frame. -/
inductive Standing (frame : HashedFrame K) : List (EglEvent K) → Prop where
  | committed (log : List (EglEvent K)) : Standing frame (.committed frame :: log)
  | skipped {log : List (EglEvent K)} (h : Standing frame log) :
      Standing frame (.skipped frame :: .ensured frame.owner :: log)
  | elsewhere {log : List (EglEvent K)} (k : K) (hk : k ≠ frame.owner) (h : Standing frame log) :
      Standing frame (.ensured k :: log)
  | left {log : List (EglEvent K)} (k : K) (h : Standing frame log) :
      Standing frame (.left k :: log)

/-- Every skip was of a frame that stood, and follows its own request for a buffer only. -/
def SkipsSound (log : List (EglEvent K)) : Prop :=
  ∀ frame earlier, .skipped frame :: earlier <:+ log →
    ∃ before, earlier = .ensured frame.owner :: before ∧ Standing frame before

theorem SkipsSound.cons {log : List (EglEvent K)} {event : EglEvent K} (h : SkipsSound log)
    (he : ∀ frame, event ≠ .skipped frame) : SkipsSound (event :: log) := by
  intro frame earlier hs
  rcases List.suffix_cons_iff.mp hs with heq | hs
  · exact absurd (List.cons.inj heq).1.symm (he frame)
  · exact h frame earlier hs

theorem SkipsSound.ensured {log : List (EglEvent K)} (h : SkipsSound log) (k : K) (n : ℕ) :
    SkipsSound (List.replicate n (.ensured k) ++ log) := by
  induction n with
  | zero => exact h
  | succ n ih => exact SkipsSound.cons ih (by simp)

theorem SkipsSound.skipped {log : List (EglEvent K)} {frame : HashedFrame K} (h : SkipsSound log)
    (hs : Standing frame log) : SkipsSound (.skipped frame :: .ensured frame.owner :: log) := by
  intro frame' earlier hsuf
  rcases List.suffix_cons_iff.mp hsuf with heq | hsuf
  · obtain ⟨hf, rfl⟩ := List.cons.inj heq
    obtain rfl : frame' = frame := by simpa using hf
    exact ⟨log, rfl, hs⟩
  · exact h.cons (by simp) frame' earlier hsuf

theorem Standing.ensured {frame : HashedFrame K} {log : List (EglEvent K)}
    (h : Standing frame log) {k : K} (n : ℕ) (hk : n ≠ 0 → k ≠ frame.owner) :
    Standing frame (List.replicate n (.ensured k) ++ log) := by
  induction n with
  | zero => exact h
  | succ n ih =>
    have hne : k ≠ frame.owner := hk (Nat.succ_ne_zero n)
    exact .elsewhere k hne (ih fun _ => hne)

variable [DecidableEq K]

/-- The output buffers asked for on a context since its last convert on this thread. -/
def callsSince (k : K) : List (EglEvent K) → ℕ
  | [] => 0
  | .left k' :: log => if k' = k then 0 else callsSince k log
  | .ensured k' :: log => callsSince k log + if k' = k then 1 else 0
  | _ :: log => callsSince k log

theorem callsSince_ensured (k : K) (n : ℕ) (k' : K) (log : List (EglEvent K)) :
    callsSince k' (List.replicate n (.ensured k) ++ log) =
      callsSince k' log + if k = k' then n else 0 := by
  induction n with
  | zero => simp
  | succ n ih =>
    rw [List.replicate_succ, List.cons_append, callsSince, ih]
    split <;> omega

end Log

/-! What the thread remembers. -/

section State
variable {K : Type} {address : ℕ → ℕ} {k : K} {call : EglCall} {t t' : EglThread K}
  {frame : HashedFrame K}

/-- The frame fills the front of the context's own buffer. -/
def InShadow (c : Ctx) (frame : HashedFrame K) : Prop :=
  ∃ b, c.deswizzleBuf = some b ∧ frame.width.toNat * frame.height.toNat * 4 ≤ b.len ∧
    frame.out = ⟨b.base, frame.width.toNat * frame.height.toNat * 4⟩

/-- The hash is of this frame. -/
structure EglHash.Keys (h : EglHash K) (frame : HashedFrame K) : Prop where
  owner : h.owner = some frame.owner
  width : h.w = frame.width
  height : h.h = frame.height
  fourcc : h.fourcc = frame.fourcc
  modifier : h.modifier = frame.modifier
  grid : EglHash.gridOf h.prev (gridWords frame.width frame.height) = frame.grid
  cap : gridBytes frame.width frame.height ≤ h.cap

/-- A convert has just left this frame in the buffer. -/
structure EglThread.Recalls (t : EglThread K) (frame : HashedFrame K) : Prop where
  keys : t.egl.hash.Keys frame
  gen : t.egl.hash.gen = (t.ctxs frame.owner).outGen
  shadow : InShadow (t.ctxs frame.owner) frame
  standing : Standing frame t.log

/-- The part of the hash that is about the last full convert. -/
def EglHash.memory (h : EglHash K) : EglHash K :=
  { (EglHash.empty : EglHash K) with
    prev := h.prev, cap := h.cap, owner := h.owner, w := h.w, h := h.h, fourcc := h.fourcc
    modifier := h.modifier, gen := h.gen }

theorem EglHash.memory_eq {h h' : EglHash K} (hm : h'.memory = h.memory) :
    h'.prev = h.prev ∧ h'.cap = h.cap ∧ h'.gen = h.gen ∧ h'.owner = h.owner ∧
      h'.w = h.w ∧ h'.h = h.h := by
  simp only [memory, EglHash.mk.injEq] at hm
  simp [hm]

theorem EglHash.Keys.congr {h h' : EglHash K} (hk : h.Keys frame) (hm : h'.memory = h.memory) :
    h'.Keys frame where
  owner := (congrArg EglHash.owner hm).trans hk.owner
  width := (congrArg EglHash.w hm).trans hk.width
  height := (congrArg EglHash.h hm).trans hk.height
  fourcc := (congrArg EglHash.fourcc hm).trans hk.fourcc
  modifier := (congrArg EglHash.modifier hm).trans hk.modifier
  grid := by
    rw [(memory_eq hm).1]
    exact hk.grid
  cap := by
    rw [(memory_eq hm).2.1]
    exact hk.cap

/-- Where there is room for a grid there are both. -/
def EglHash.Allocated (h : EglHash K) : Prop := h.cap ≠ 0 → h.cur.isSome ∧ h.prev.isSome

theorem EglHash.Allocated.congr {h h' : EglHash K} (ha : h.Allocated) (hm : h'.memory = h.memory)
    (hc : h'.cur.isSome = h.cur.isSome) : h'.Allocated := by
  obtain ⟨hprev, hcap, -⟩ := memory_eq hm
  unfold Allocated
  rw [hc, hprev, hcap]
  exact ha

/-- The contexts and the log are as before, and the hash has no more to say. -/
structure EglThread.Keeps (t t' : EglThread K) : Prop where
  ctxs : t'.ctxs = t.ctxs
  log : t'.log = t.log
  valid : t'.egl.hash.valid = t.egl.hash.valid ∨ t'.egl.hash.valid = false
  memory : t'.egl.hash.owner = none ∨ t'.egl.hash.memory = t.egl.hash.memory
  allocated : t.egl.hash.Allocated → t'.egl.hash.Allocated

theorem EglThread.Keeps.of_hash (hc : t'.ctxs = t.ctxs) (hl : t'.log = t.log)
    (hh : t'.egl.hash = t.egl.hash) : t.Keeps t' :=
  ⟨hc, hl, .inl (by rw [hh]), .inr (by rw [hh]), fun ha => hh ▸ ha⟩

theorem EglThread.Keeps.invalid (h : t.Keeps t') (hv : t.egl.hash.valid = false) :
    t'.egl.hash.valid = false :=
  h.valid.elim (·.trans hv) id

theorem EglThread.Keeps.trans {t'' : EglThread K} (h : t.Keeps t') (h' : t'.Keeps t'') :
    t.Keeps t'' where
  ctxs := h'.ctxs.trans h.ctxs
  log := h'.log.trans h.log
  valid := by
    rcases h'.valid with hv' | hv'
    · exact h.valid.imp hv'.trans hv'.trans
    · exact .inr hv'
  memory := by
    rcases h'.memory with hn | hm'
    · exact .inl hn
    · rcases h.memory with hn | hm
      · exact .inl ((congrArg EglHash.owner hm').trans hn)
      · exact .inr (hm'.trans hm)
  allocated ha := h'.allocated (h.allocated ha)

instance : IsPreorder (EglThread K) EglThread.Keeps where
  refl _ := .of_hash rfl rfl rfl
  trans _ _ _ := .trans

variable [DecidableEq K]

/-- What is known of the frame later, when other code may have used the context. -/
structure EglThread.Kept (t : EglThread K) (frame : HashedFrame K) : Prop where
  keys : t.egl.hash.owner = none ∨ (t.egl.hash.Keys frame ∧
    (t.ctxs frame.owner).outGen =
      t.egl.hash.gen + UInt32.ofNat (callsSince frame.owner t.log))
  standing : callsSince frame.owner t.log = 0 →
    Standing frame t.log ∧ InShadow (t.ctxs frame.owner) frame

/-- Between the calls: a valid hash is of a frame that is kept, and every skip was sound. -/
structure EglThread.Remembers (t : EglThread K) : Prop where
  kept : t.egl.hash.valid = true → ∃ frame, t.Kept frame
  sound : SkipsSound t.log

theorem EglThread.Recalls.kept (h : t.Recalls frame) :
    ({ t with log := .left frame.owner :: t.log } : EglThread K).Kept frame where
  keys := .inr ⟨h.keys, by simp [callsSince, h.gen]⟩
  standing _ := ⟨.left _ h.standing, h.shadow⟩

theorem EglThread.Kept.of_keeps (hk : t.Kept frame) (h : t.Keeps t') : t'.Kept frame := by
  constructor
  · rcases h.memory with hn | hm
    · exact .inl hn
    · rcases hk.keys with hn | ⟨hkey, hgen⟩
      · exact .inl ((congrArg EglHash.owner hm).trans hn)
      · refine .inr ⟨hkey.congr hm, ?_⟩
        rw [h.ctxs, h.log, (EglHash.memory_eq hm).2.2.1]
        exact hgen
  · rw [h.log, h.ctxs]
    exact hk.standing

end State

/-! Up to the draw, a convert keeps what is known. -/

section Keeping
variable {K : Type} {k : K}

abbrev EglSteps {α : Type} (m : EglM K α) : Prop := Cmd.Steps DrawOp EglThread.Keeps m

theorem gl_keeps {o : GlOp} (ho : DrawOp (.inr o)) : EglSteps (gl o : EglM K (GlAns o)) :=
  .call ho

theorem modifyEgl_keeps {f : EglState K → EglState K} (hv : ∀ st, (f st).hash.valid = st.hash.valid)
    (hm : ∀ st, (f st).hash.memory = st.hash.memory)
    (hc : ∀ st, (f st).hash.cur = st.hash.cur) : EglSteps (modifyEgl f) :=
  .modify fun t => ⟨rfl, rfl, .inl (hv t.egl), .inr (hm t.egl),
    fun ha => ha.congr (hm t.egl) (congrArg Option.isSome (hc t.egl))⟩

theorem getEgl_keeps : EglSteps (getEgl : EglM K (EglState K)) := .bind .get fun _ => .pure _

theorem eglImageSlotRelease_keeps (i : ImageSlotId) :
    EglSteps (eglImageSlotRelease i : EglM K Unit) := by
  apply Cmd.Steps.bind (.bind getEgl_keeps fun _ => .pure _)
  intro slot
  apply Cmd.Steps.bind (.ite (.pure _) (gl_keeps (o := .deleteTexture slot.texture) trivial))
  intro _
  have hdestroy : EglSteps (destroyImage slot.image : EglM K Unit) := by
    unfold destroyImage
    split
    · exact gl_keeps trivial
    · exact .pure _
  exact .bind hdestroy fun _ => modifyEgl_keeps (fun _ => rfl) (fun _ => rfl) fun _ => rfl

theorem releaseSlots_keeps (is : List ImageSlotId) : EglSteps (releaseSlots is : EglM K Unit) := by
  induction is with
  | nil => exact .pure _
  | cons i is ih => exact .bind (eglImageSlotRelease_keeps i) fun _ => ih

theorem eglCleanup_keeps : EglSteps (eglCleanup : EglM K Unit) := by
  apply Cmd.Steps.bind getEgl_keeps
  intro st
  refine .ite (.bind (gl_keeps trivial) fun _ => .bind (releaseSlots_keeps _) fun _ =>
    .bind (gl_keeps trivial) fun _ => .bind (gl_keeps trivial) fun _ => ?_) (.pure _)
  exact .modify fun t => ⟨rfl, rfl, .inr rfl, .inl rfl, fun _ h => absurd rfl h⟩

theorem initOnDisplay_keeps : EglSteps (initOnDisplay : EglM K ℤ) := by
  have hes3 : EglSteps (createContextEs3 : EglM K Bool) := by
    refine .bind (gl_keeps trivial) fun _ => .ite (.bind (gl_keeps trivial) fun es3 => ?_) (.pure _)
    exact .bind (modifyEgl_keeps (fun _ => rfl) (fun _ => rfl) fun _ => rfl) fun _ => .pure _
  have hsetup (es3 : Bool) : EglSteps (hashSetup es3 : EglM K Unit) := by
    refine .ite (.bind (gl_keeps trivial) fun _ => .ite ?_ (.pure _)) (.pure _)
    exact modifyEgl_keeps (fun _ => rfl) (fun _ => rfl) fun _ => rfl
  refine .bind (gl_keeps trivial) fun _ => .ite (.pure _) ?_
  refine .bind (gl_keeps trivial) fun _ => .ite (.pure _) ?_
  refine .bind hes3 fun es3 => .bind (.ite (.pure _) (gl_keeps trivial)) fun _ => .ite (.pure _) ?_
  refine .bind (gl_keeps trivial) fun _ => .bind (gl_keeps trivial) fun _ => .ite ?_ ?_
  · exact .bind (gl_keeps trivial) fun _ => .pure _
  · refine .bind (hsetup es3) fun _ => .bind (gl_keeps trivial) fun _ => ?_
    exact .bind (modifyEgl_keeps (fun _ => rfl) (fun _ => rfl) fun _ => rfl) fun _ => .pure _

theorem eglInit_keeps (k : K) : EglSteps (eglInit k) := by
  refine .bind (gl_keeps trivial) fun _ => .ite (.pure _) (.bind .get fun t => ?_)
  refine .bind (gl_keeps trivial) fun _ => .ite (.pure _) ?_
  exact .bind (modifyEgl_keeps (fun _ => rfl) (fun _ => rfl) fun _ => rfl) fun _ => initOnDisplay_keeps

theorem leaveDevice_keeps (k : K) : EglSteps (leaveDevice k) :=
  .bind .get fun _ => .ite eglCleanup_keeps (.pure _)

theorem ensureInit_keeps (k : K) : EglSteps (ensureInit k) :=
  .bind getEgl_keeps fun _ => .ite (.pure _) (eglInit_keeps k)

theorem tryImport_keeps (attempts : List ImageAttribs) :
    EglSteps (tryImport attempts : EglM K (Option ℕ)) := by
  induction attempts with
  | nil => exact .pure _
  | cons attribs rest ih =>
    refine .bind (gl_keeps trivial) ?_
    rintro (_ | image)
    · exact ih
    · exact .pure _

theorem findImage_keeps [DecidableEq K] (k : K) (fbId : UInt32) (geometry : Geometry) (inode : UInt64)
    (is : List ImageSlotId) (free : Option ImageSlotId) :
    EglSteps (findImage k fbId geometry inode is free) := by
  induction is generalizing free with
  | nil => exact .pure _
  | cons i is ih =>
    refine .bind (.bind getEgl_keeps fun _ => .pure _) fun slot => .ite (ih _) (.ite (ih _) ?_)
    exact .ite (.pure _) (.bind (eglImageSlotRelease_keeps i) fun _ => ih _)

theorem adopt_keeps (useCache : Bool) (free : Option ImageSlotId) (slot : ImageSlot K) :
    EglSteps (adopt useCache free slot) := by
  have hslot : EglSteps (slotFor free : EglM K ImageSlotId) := by
    unfold slotFor
    split
    · exact .pure _
    · refine .bind getEgl_keeps fun st => .bind (modifyEgl_keeps (fun _ => rfl) (fun _ => rfl) fun _ => rfl) ?_
      exact fun _ => .bind (eglImageSlotRelease_keeps _) fun _ => .pure _
  refine .ite (.bind hslot fun _ => ?_) (.pure _)
  exact modifyEgl_keeps (fun _ => rfl) (fun _ => rfl) fun _ => rfl

theorem importImage_keeps (k : K) (call : EglCall) (geometry : Geometry) (inode : UInt64)
    (useCache : Bool) (free : Option ImageSlotId) :
    EglSteps (importImage k call geometry inode useCache free) := by
  have htexture (image : ℕ) : EglSteps (eglMakeExternalTexture image : EglM K (Option ℕ)) := by
    refine .bind (gl_keeps trivial) fun _ => .bind (gl_keeps trivial) fun _ => .bind (gl_keeps trivial) fun _ => ?_
    exact .bind (gl_keeps trivial) fun _ => .ite (.bind (gl_keeps trivial) fun _ => .pure _) (.pure _)
  refine .ite (.pure _) (.bind (.ite (.pure _) (tryImport_keeps _)) ?_)
  rintro (_ | image)
  · exact .pure _
  · refine .bind (htexture image) ?_
    rintro (_ | texture)
    · exact .bind (gl_keeps trivial) fun _ => .pure _
    · exact .bind (adopt_keeps _ _ _) fun _ => .pure _

theorem currentInode_keeps (fd : ℤ) : EglSteps (currentInode fd : EglM K UInt64) :=
  .ite (.bind (gl_keeps trivial) fun _ => .pure _) (.pure _)

theorem acquireImage_keeps [DecidableEq K] (k : K) (call : EglCall) (geometry : Geometry) (inode : UInt64) :
    EglSteps (acquireImage k call geometry inode) := by
  refine .bind getEgl_keeps fun st => .bind (.ite (findImage_keeps _ _ _ _ _ _) (.pure _)) ?_
  rintro ⟨_ | i, free⟩
  · exact importImage_keeps _ _ _ _ _ _
  · refine .bind (.bind getEgl_keeps fun _ => .pure _) fun slot => ?_
    exact .bind (gl_keeps trivial) fun _ => .pure _

theorem releaseUncached_reads (acquired : Acquired) :
    Cmd.Reads DrawOp (releaseUncached acquired : EglM K Unit) := by
  refine .ite (.pure _) (.bind (.call trivial) fun _ => ?_)
  unfold destroyImage
  split
  · exact .call trivial
  · exact .pure _

theorem keeps_any {α : Type} {m : EglM K α} (hm : EglSteps m) (t : EglThread K) :
    Cmd.wlp anyGl m (fun _ t' _ => t.Keeps t') t () :=
  Cmd.wlp_of_wp (hm.mono (fun _ _ => trivial) (fun _ _ h => h) t)

end Keeping

/-! The context's own buffer -/

section Shadow
variable {E : Env} {m : Machine} {s : E.State} {size : ℕ}

theorem wlp_freeBuf (hE : ∀ s o, E.legal s o) (buf : Option Slice) :
    Cmd.wlp E (freeBuf buf) (fun _ m' _ => m'.ctx = m.ctx) m s := by
  unfold freeBuf
  cases buf with
  | none => rfl
  | some b =>
    exact wlp_free.mpr ⟨hE _ _, fun _ _ _ _ _ => rfl⟩

/-- A buffer that is large enough is kept. -/
theorem wlp_drmtapEnsureBuf (hE : ∀ s o, E.legal s o) (buf : Option Slice) :
    Cmd.wlp E (drmtapEnsureBuf buf size) (fun r m' _ => m'.ctx = m.ctx ∧
      (∀ b, r.2 = some b → r.1 = 0 → size ≤ b.len) ∧
      ∀ b, buf = some b → size ≤ b.len → r.2 = some b) m s := by
  unfold drmtapEnsureBuf
  simp only [Cmd.wlp_ite, Cmd.wlp_bind, Cmd.wlp_pure]
  refine ⟨fun _ => ⟨trivial, fun _ _ h => absurd h (by decide), fun _ h _ => h⟩, fun _ =>
    ⟨fun _ => ⟨trivial, fun _ _ h => absurd h (by decide), fun _ h _ => h⟩, fun _ => ⟨fun hany => ?_,
      fun hany => ?_⟩⟩⟩
  · refine ⟨trivial, ?_, fun _ h _ => h⟩
    rintro b rfl -
    simpa using hany
  · have hsmall : ∀ b, buf = some b → size ≤ b.len → False := by
      rintro b rfl hb
      exact hany (by simpa using hb)
    refine Cmd.wlp_mono (wlp_freeBuf hE buf) ?_
    rintro _ m' s' hctx
    refine wlp_malloc.mpr ⟨hE _ _, fun _ _ => ?_, fun g _ _ => ?_⟩
    · exact ⟨hctx, by simp, fun b hb hl => (hsmall b hb hl).elim⟩
    · refine ⟨hctx, ?_, fun b hb hl => (hsmall b hb hl).elim⟩
      rintro _ ⟨⟩ -
      exact le_rfl

/-- Without a buffer of the caller's, the destination is the front of the context's own, and that
is kept if it is large enough. -/
theorem wlp_drmtapEnsureOut (hE : ∀ s o, E.legal s o) :
    Cmd.wlp E (drmtapEnsureOut size) (fun r m' _ => m.ctx.userOut = none → (∀ dst, r = .ok dst →
        ∃ b, m'.ctx.deswizzleBuf = some b ∧ size ≤ b.len ∧ dst = ⟨b.base, size⟩) ∧
      ∀ b, m.ctx.deswizzleBuf = some b → size ≤ b.len → m'.ctx.deswizzleBuf = some b) m s := by
  unfold drmtapEnsureOut
  simp only [Cmd.wlp_ite, Cmd.wlp_bind, Cmd.wlp_pure, wlp_modifyCtx, wlp_getCtx]
  refine ⟨fun _ _ => ⟨by simp, fun _ h _ => h⟩, fun _ => ⟨fun _ _ => ⟨by simp, fun _ h _ => h⟩,
    fun _ => ?_⟩⟩
  have hbump : (m.ctx.bumpOutGen size).userOut = m.ctx.userOut := rfl
  rw [hbump]
  cases hu : m.ctx.userOut with
  | some out =>
    simp only [Cmd.wlp_ite, Cmd.wlp_pure]
    exact ⟨fun _ h => absurd h (by simp), fun _ h => absurd h (by simp)⟩
  | none =>
    simp only [Cmd.wlp_bind, wlp_modifyCtx]
    refine Cmd.wlp_mono (wlp_drmtapEnsureBuf hE m.ctx.deswizzleBuf) ?_
    rintro ⟨ret, buf⟩ m' s' ⟨-, hfit, hkeep⟩
    cases buf with
    | none => exact fun _ => ⟨by simp, fun b hb hl => absurd (hkeep b hb hl) (by simp)⟩
    | some b =>
      simp only [Cmd.wlp_ite, Cmd.wlp_pure]
      refine ⟨fun _ _ => ⟨by simp, hkeep⟩, fun hret _ => ⟨?_, hkeep⟩⟩
      rintro _ ⟨⟩
      exact ⟨b, rfl, hfit b rfl (not_not.mp hret), rfl⟩

/-- The counter of the context counts every call. -/
theorem wlp_drmtapEnsureOut_outGen (hE : ∀ s o, E.legal s o) (hsize : size ≠ 0) :
    Cmd.wlp E (drmtapEnsureOut size) (fun _ m' _ => m'.ctx.outGen = m.ctx.outGen + 1) m s := by
  unfold drmtapEnsureOut
  simp only [Cmd.wlp_ite, Cmd.wlp_bind, Cmd.wlp_pure, wlp_modifyCtx, wlp_getCtx]
  refine ⟨fun hzero => absurd hzero hsize, fun _ => ⟨fun _ => rfl, fun _ => ?_⟩⟩
  cases (m.ctx.bumpOutGen size).userOut with
  | some out =>
    simp only [Cmd.wlp_ite, Cmd.wlp_pure]
    exact ⟨fun _ => rfl, fun _ => rfl⟩
  | none =>
    simp only [Cmd.wlp_bind, wlp_modifyCtx]
    apply Cmd.wlp_mono (wlp_drmtapEnsureBuf hE _)
    intro r m' s' h
    have hgen : m'.ctx.outGen = m.ctx.outGen + 1 := by
      rw [h.1]
      rfl
    cases r.2 with
    | none => exact hgen
    | some b =>
      simp only [Cmd.wlp_ite, Cmd.wlp_pure]
      exact ⟨fun _ => hgen, fun _ => hgen⟩

end Shadow

/-! The check and the commit -/

section Check
variable {K : Type} {address : ℕ → ℕ} {k : K} {call : EglCall} {t t' : EglThread K}
  {frame : HashedFrame K} {dst : Slice} {wasValid hashing : Bool}

/-- What is remembered is as before, or the grids have grown for a larger frame. -/
def EglHash.Checks (call : EglCall) (h h' : EglHash K) : Prop :=
  h'.memory = h.memory ∨ (h.cap < gridBytes call.width call.height ∧ h'.owner = h.owner ∧
    h'.w = h.w ∧ h'.h = h.h)

/-- As far as the comparison. -/
structure EglThread.Checks (call : EglCall) (t t' : EglThread K) : Prop where
  ctxs : t'.ctxs = t.ctxs
  log : t'.log = t.log
  valid : t.egl.hash.valid = false → t'.egl.hash.valid = false
  hash : t.egl.hash.Checks call t'.egl.hash

/-- The hash is used, and remembers what it did. -/
structure EglThread.Sees (t t' : EglThread K) : Prop where
  ctxs : t'.ctxs = t.ctxs
  log : t'.log = t.log
  valid : t.egl.hash.valid = false → t'.egl.hash.valid = false
  memory : t'.egl.hash.memory = t.egl.hash.memory

instance : IsPreorder (EglThread K) EglThread.Sees where
  refl _ := ⟨rfl, rfl, id, rfl⟩
  trans _ _ _ h h' := ⟨h'.ctxs.trans h.ctxs, h'.log.trans h.log, fun hv => h'.valid (h.valid hv),
    h'.memory.trans h.memory⟩

theorem EglThread.Sees.checks (h : t.Sees t') : t.Checks call t' :=
  ⟨h.ctxs, h.log, h.valid, .inl h.memory⟩

theorem EglThread.Sees.trans_checks {t'' : EglThread K} (h : t.Sees t')
    (h' : t'.Checks call t'') : t.Checks call t'' where
  ctxs := h'.ctxs.trans h.ctxs
  log := h'.log.trans h.log
  valid hv := h'.valid (h.valid hv)
  hash := by
    rcases h'.hash with hm | ⟨hc, ho, hw, hh⟩
    · exact .inl (hm.trans h.memory)
    · obtain ⟨-, hcap, -, ho', hw', hh'⟩ := EglHash.memory_eq h.memory
      exact .inr ⟨hcap ▸ hc, ho.trans ho', hw.trans hw', hh.trans hh'⟩

theorem EglThread.Checks.trans_sees {t'' : EglThread K} (h : t.Checks call t')
    (h' : t'.Sees t'') : t.Checks call t'' where
  ctxs := h'.ctxs.trans h.ctxs
  log := h'.log.trans h.log
  valid hv := h'.valid (h.valid hv)
  hash := by
    rcases h.hash with hm | ⟨hc, ho, hw, hh⟩
    · exact .inl (h'.memory.trans hm)
    · obtain ⟨-, -, -, ho', hw', hh'⟩ := EglHash.memory_eq h'.memory
      exact .inr ⟨hc, ho'.trans ho, hw'.trans hw, hh'.trans hh⟩

abbrev EglSees {α : Type} (m : EglM K α) : Prop :=
  Cmd.Steps (fun _ => True) EglThread.Sees m

theorem modifyHash_sees {f : EglHash K → EglHash K}
    (hv : ∀ h, h.valid = false → (f h).valid = false) (hm : ∀ h, (f h).memory = h.memory) :
    EglSees (modifyHash f) :=
  .modify fun t => ⟨rfl, rfl, hv t.egl.hash, hm t.egl.hash⟩

theorem hashFail_sees : EglSees (hashFail : EglM K Bool) :=
  .bind (modifyHash_sees (fun _ _ => rfl) fun _ => rfl) fun _ => .pure _

theorem sizeTarget_sees (gw gh : UInt32) : EglSees (sizeTarget gw gh : EglM K Bool) := by
  refine .bind (.bind (.bind .get fun _ => .pure _) fun _ => .pure _) fun h => .ite ?_ (.pure _)
  refine .bind (.call trivial) fun _ => .ite (.bind ?_ fun _ => .pure _) hashFail_sees
  exact modifyHash_sees (fun _ => id) fun _ => rfl

theorem readGrid_sees (width height : UInt32) : EglSees (readGrid width height : EglM K Bool) := by
  refine .bind (.call trivial) fun grid => .bind (modifyHash_sees (fun _ => id) fun _ => rfl) ?_
  refine fun _ => .bind (.call trivial) fun _ => .ite hashFail_sees (.bind ?_ fun _ => .pure _)
  exact modifyHash_sees (fun _ => id) fun _ => rfl

theorem growGrids_spec :
    Cmd.wlp anyGl (growGrids (gridBytes call.width call.height)) (fun r t' _ =>
      t.Checks call t' ∧ t'.egl.hash.fresh = t.egl.hash.fresh ∧
        (r = true → gridBytes call.width call.height ≤ t'.egl.hash.cap)) t () := by
  unfold growGrids
  simp only [Cmd.wlp_bind, Cmd.wlp_ite, Cmd.wlp_pure, wlp_getHash, wlp_modifyHash]
  refine ⟨fun hcap => ⟨trivial, fun cur _ _ => ⟨trivial, fun prev _ _ => ⟨fun _ => ?_, fun _ => ?_⟩⟩⟩,
    fun hcap => ⟨(refl_of EglThread.Sees t).checks, trivial, fun _ => not_lt.mp hcap⟩⟩
  · exact ⟨⟨rfl, rfl, fun _ => rfl, .inr ⟨hcap, rfl, rfl, rfl⟩⟩, rfl, by simp⟩
  · exact ⟨⟨rfl, rfl, id, .inr ⟨hcap, rfl, rfl, rfl⟩⟩, rfl, fun _ => le_rfl⟩

/-- The thread once a skip is decided. -/
def EglThread.skip (t : EglThread K) (frame : HashedFrame K) : EglThread K :=
  { t with
    egl := { t.egl with hash := { t.egl.hash with valid := true } }
    log := .skipped frame :: t.log }

theorem EglHash.Checks.owner {h h' : EglHash K} (hc : h.Checks call h') : h'.owner = h.owner := by
  rcases hc with hm | ⟨-, ho, -⟩
  · exact (EglHash.memory_eq hm).2.2.2.1
  · exact ho

variable [DecidableEq K]

theorem compareGrids_spec :
    Cmd.wlp anyGl (compareGrids address k wasValid call dst) (fun r t' _ =>
      (r = false ∧ t' = t) ∨ (r = true ∧ wasValid = true ∧
        t.egl.hash.unchanged k call (address dst.base) ∧
        t' = t.skip (call.frame k dst t.egl.hash.cur))) t () := by
  unfold compareGrids
  simp only [Cmd.wlp_bind, Cmd.wlp_ite, Cmd.wlp_pure, wlp_getHash, wlp_modifyHash, wlp_debugLog]
  exact ⟨fun h => .inr ⟨trivial, h.1, h.2, rfl⟩, fun _ => .inl ⟨trivial, trivial⟩⟩

/-- A frame that compares as unchanged is the one that is remembered. -/
theorem EglHash.Keys.of_unchanged {h h' : EglHash K} {out : ℕ}
    (hk : h.Keys frame) (hc : h.Checks call h') (hun : h'.unchanged k call out) :
    h'.Keys frame ∧ call.frame k frame.out h'.cur = frame := by
  obtain ⟨howner, hw, hh, hf, hm, -, hgrid⟩ := hun
  have hk' : h'.Keys frame := by
    rcases hc with hmem | ⟨hcap, -, hw', hh'⟩
    · exact hk.congr hmem
    · have hle := hk.cap
      rw [← hk.width, ← hk.height, ← hw', ← hh', hw, hh] at hle
      exact absurd hcap (not_lt.mpr hle)
  refine ⟨hk', ?_⟩
  have hsame : frame.owner = k := Option.some.inj (hk'.owner.symm.trans howner)
  have hg := hk'.grid
  rw [← hk'.width, ← hk'.height, hw, hh, ← hgrid] at hg
  unfold EglCall.frame
  rw [hg, ← hw, ← hh, ← hf, ← hm, hk'.width, hk'.height, hk'.fourcc, hk'.modifier, ← hsame]

/-- What the check may leave: a skip that was decided by comparison, or an invalid hash, with the
grid of this frame if it is fresh. -/
theorem hashCheck_spec :
    Cmd.wlp anyGl (hashCheck address k wasValid call dst) (fun r t' _ =>
      (r = false ∧ t.Checks call t' ∧
        (t'.egl.hash.fresh = true → gridBytes call.width call.height ≤ t'.egl.hash.cap)) ∨
      (r = true ∧ wasValid = true ∧ ∃ t₁, t.Checks call t₁ ∧
        gridBytes call.width call.height ≤ t₁.egl.hash.cap ∧
        t₁.egl.hash.unchanged k call (address dst.base) ∧
        t' = t₁.skip (call.frame k dst t₁.egl.hash.cur))) t () := by
  have hfresh : t.Sees { t with egl := { t.egl with hash := { t.egl.hash with fresh := false } } } :=
    ⟨rfl, rfl, id, rfl⟩
  unfold hashCheck
  simp only [Cmd.wlp_bind, Cmd.wlp_ite, Cmd.wlp_pure, wlp_getHash, wlp_modifyHash]
  refine ⟨fun _ => .inl ⟨trivial, hfresh.checks, by simp⟩, fun _ =>
    ⟨fun _ => .inl ⟨trivial, hfresh.checks, by simp⟩, fun _ => ?_⟩⟩
  refine Cmd.wlp_mono growGrids_spec ?_
  rintro grown t₁ _ ⟨hgrow, hold, hcap⟩
  have h₁ := hfresh.trans_checks hgrow
  refine ⟨fun _ => .inl ⟨trivial, h₁, by simp [hold]⟩, fun hgrown => ?_⟩
  have hcap := hcap (by simpa using hgrown)
  have hnot {t' : EglThread K} (h : t₁.Sees t') : t.Checks call t' ∧
      gridBytes call.width call.height ≤ t'.egl.hash.cap :=
    ⟨h₁.trans_sees h, (EglHash.memory_eq h.memory).2.1 ▸ hcap⟩
  refine Cmd.wlp_mono (Cmd.wlp_of_wp (sizeTarget_sees _ _ t₁)) ?_
  rintro sized t₂ _ h₂
  refine ⟨fun _ => .inl ⟨trivial, (hnot h₂).1, fun _ => (hnot h₂).2⟩, fun _ => ?_⟩
  refine Cmd.wlp_mono (Cmd.wlp_of_wp (readGrid_sees _ _ t₂)) ?_
  rintro read t₃ _ h₃
  have h₃ := hnot (trans_of EglThread.Sees h₂ h₃)
  refine ⟨fun _ => .inl ⟨trivial, h₃.1, fun _ => h₃.2⟩, fun _ => ?_⟩
  refine Cmd.wlp_mono compareGrids_spec ?_
  rintro r t' _ (⟨hr, rfl⟩ | ⟨hr, hw, hun, rfl⟩)
  · exact .inl ⟨hr, h₃.1, fun _ => h₃.2⟩
  · exact .inr ⟨hr, hw, t₃, h₃.1, h₃.2, hun, rfl⟩

/-- The pixels are read, and committed if the frame was hashed just now. -/
theorem readBack_spec (hv : t.egl.hash.valid = false)
    (hcap : hashing = true → t.egl.hash.fresh = true →
      gridBytes call.width call.height ≤ t.egl.hash.cap) :
    Cmd.wlp anyGl (readBack address k call hashing dst) (fun _ t' _ => t'.ctxs = t.ctxs ∧
      ((t'.egl.hash.valid = false ∧ t'.log = t.log) ∨ (hashing = true ∧
        t'.egl.hash.Keys (call.frame k dst t.egl.hash.cur) ∧
        t'.egl.hash.gen = (t.ctxs k).outGen ∧
        t'.log = .committed (call.frame k dst t.egl.hash.cur) :: t.log))) t () := by
  unfold readBack
  simp only [Cmd.wlp_bind, wlp_onCtx, wlp_onHeap, Cmd.wlp_ite, Cmd.wlp_pure, wlp_getHash]
  refine ⟨trivial, fun bytes _ _ _ h _ => ⟨trivial, fun error _ _ => ⟨fun _ => ?_, fun _ =>
    ⟨fun hcommit => ?_, fun _ => ?_⟩⟩⟩⟩
  · exact ⟨Function.update_eq_self _ _, .inl ⟨hv, rfl⟩⟩
  · unfold hashCommit noteGen
    simp only [Cmd.wlp_bind, wlp_modifyHash, wlp_getHash, wlp_debugLog, wlp_ctxOf]
    refine ⟨Function.update_eq_self _ _, .inr ⟨hcommit.1, ?_, ?_, rfl⟩⟩
    · exact ⟨rfl, rfl, rfl, rfl, rfl, rfl, hcap hcommit.1 hcommit.2.2⟩
    · simp
  · exact ⟨Function.update_eq_self _ _, .inl ⟨hv, rfl⟩⟩

/-- The frame is in the buffer, and the log sound; or the hash is invalid. -/
def EglThread.Delivered (k : K) (t : EglThread K) : Prop :=
  SkipsSound t.log ∧ (t.egl.hash.valid = true → ∃ frame, frame.owner = k ∧ t.Recalls frame)

theorem deliver_spec {log : List (EglEvent K)} (hv : t.egl.hash.valid = false)
    (hlog : t.log = .ensured k :: log) (hs : SkipsSound log)
    (hshadow : hashing = true → ∃ b, (t.ctxs k).deswizzleBuf = some b ∧
      call.width.toNat * call.height.toNat * 4 ≤ b.len ∧
      dst = ⟨b.base, call.width.toNat * call.height.toNat * 4⟩)
    (hskip : wasValid = true → t.egl.hash.owner = none ∨ ∃ frame, t.egl.hash.Keys frame ∧
      (hashing = true → frame.owner = k → frame.width = call.width →
        frame.height = call.height → Standing frame log ∧ frame.out = dst)) :
    Cmd.wlp anyGl (deliver address k call hashing wasValid dst)
      (fun _ t' _ => t'.Delivered k) t () := by
  have hsound : SkipsSound t.log := hlog ▸ hs.cons (by simp)
  have hread {t₁ : EglThread K} (h₁ : t.Checks call t₁) (hcap : hashing = true →
      t₁.egl.hash.fresh = true → gridBytes call.width call.height ≤ t₁.egl.hash.cap) :
      Cmd.wlp anyGl (readBack address k call hashing dst) (fun _ t' _ => t'.Delivered k) t₁ () := by
    refine Cmd.wlp_mono (readBack_spec (h₁.valid hv) hcap) ?_
    rintro _ t' _ ⟨hctxs, ⟨hv', hl'⟩ | ⟨hh, hkeys, hgen, hl'⟩⟩
    · exact ⟨by rwa [hl', h₁.log], fun h => absurd (hv'.symm.trans h) (by simp)⟩
    · refine ⟨by rw [hl', h₁.log]; exact hsound.cons (by simp), fun _ => ⟨_, rfl, hkeys, ?_, ?_, ?_⟩⟩
      · rw [hctxs]
        exact hgen
      · rw [hctxs, h₁.ctxs]
        exact hshadow hh
      · rw [hl']
        exact .committed _
  unfold deliver skips
  simp only [Cmd.wlp_bind, Cmd.wlp_ite, Cmd.wlp_pure]
  refine ⟨fun hh => Cmd.wlp_mono hashCheck_spec ?_, fun hh => ⟨fun h => absurd h (by simp), fun _ =>
    hread (refl_of EglThread.Sees t).checks fun h => absurd h hh⟩⟩
  rintro skip t' _ (⟨rfl, h₁, hcap⟩ | ⟨rfl, hw, t₁, h₁, hcap, hun, rfl⟩)
  · exact ⟨fun h => absurd h (by simp), fun _ => hread h₁ fun _ => hcap⟩
  · refine ⟨fun _ => ?_, fun h => absurd rfl h⟩
    have howned : t.egl.hash.owner ≠ none := by
      rw [← h₁.hash.owner, hun.1]
      simp
    obtain ⟨frame, hkeys, hstand⟩ := (hskip hw).resolve_left howned
    obtain ⟨hkeys', hframe⟩ := EglHash.Keys.of_unchanged hkeys h₁.hash hun
    have howner : frame.owner = k := (congrArg HashedFrame.owner hframe).symm
    have hwidth : frame.width = call.width := (congrArg HashedFrame.width hframe).symm
    have hheight : frame.height = call.height := (congrArg HashedFrame.height hframe).symm
    obtain ⟨hst, hout⟩ := hstand hh howner hwidth hheight
    rw [hout] at hframe
    unfold noteGen
    simp only [Cmd.wlp_bind, wlp_ctxOf, wlp_modifyHash, EglThread.skip, hframe, h₁.log, hlog]
    subst howner
    refine ⟨hs.skipped hst, fun _ => ⟨frame, rfl, ?_, rfl, ?_, .skipped hst⟩⟩
    · exact ⟨hkeys'.owner, hkeys'.width, hkeys'.height, hkeys'.fourcc, hkeys'.modifier,
        hkeys'.grid, hkeys'.cap⟩
    · obtain ⟨b, hb, hlen, hdst⟩ := hshadow hh
      change InShadow (t₁.ctxs frame.owner) frame
      rw [h₁.ctxs, InShadow, hwidth, hheight]
      exact ⟨b, hb, hlen, hout.trans hdst⟩

/-- The destination is resolved, where a frame may be kept that nothing has touched. -/
theorem resolveOut_spec (hv : t.egl.hash.valid = false) (hs : SkipsSound t.log)
    (hu : hashing = true → (t.ctxs k).userOut = none)
    (hkept : wasValid = true → t.egl.hash.owner = none ∨ ∃ frame, t.egl.hash.Keys frame ∧
      (frame.owner = k → Standing frame t.log ∧ InShadow (t.ctxs k) frame)) :
    Cmd.wlp anyGl (resolveOut address k call hashing wasValid)
      (fun _ t' _ => t'.Delivered k) t () := by
  unfold resolveOut ensureOut
  simp only [Cmd.wlp_bind, Cmd.wlp_pure, wlp_debugLog, wlp_onCtx]
  refine Cmd.wlp_mono (wlp_drmtapEnsureOut fun _ _ => trivial) ?_
  rintro (e | dst) m' _ hshadow
  · exact ⟨hs.cons (by simp), fun h => absurd (hv.symm.trans h) (by simp)⟩
  have hbuf (hh : hashing = true) := hshadow (hu hh)
  refine deliver_spec hv rfl hs (fun hh => ?_) fun hw => ?_
  · simpa using (hbuf hh).1 dst rfl
  · refine (hkept hw).imp id ?_
    rintro ⟨frame, hkeys, hstand⟩
    refine ⟨frame, hkeys, fun hh howner hwidth hheight => ?_⟩
    obtain ⟨hst, b, hb, hlen, hout⟩ := hstand howner
    rw [hwidth, hheight] at hlen hout
    obtain ⟨b', hb', -, rfl⟩ := (hbuf hh).1 dst rfl
    obtain rfl : b = b' := Option.some.inj (((hbuf hh).2 b hb hlen).symm.trans hb')
    exact ⟨hst, hout⟩

/-- From the draw on, where a frame may still be kept from before. -/
theorem drawAndRead_spec {drawn : DrawnFrom} {texture : ℕ} (hv : t.egl.hash.valid = false)
    (hs : SkipsSound t.log) (hcalls : callsSince k t.log < 2 ^ 32)
    (hkept : wasValid = true → ∃ frame, t.Kept frame) :
    Cmd.wlp anyGl (drawAndRead address k call drawn texture wasValid)
      (fun _ t' _ => t'.Delivered k) t () := by
  have hrest : Cmd.wlp anyGl (resolveOut address k call
      (hashes t.egl.hash (t.ctxs k) call)
      (wasValid && decide ((t.ctxs k).outGen = t.egl.hash.gen)))
      (fun _ t' _ => t'.Delivered k) t () := by
    refine resolveOut_spec hv hs (fun hh => ?_) fun hw => ?_
    · unfold hashes at hh
      simp only [decide_eq_true_eq, Option.isNone_iff_eq_none] at hh
      exact hh.2.1
    · simp only [Bool.and_eq_true, decide_eq_true_eq] at hw
      obtain ⟨frame, hkeys, hstand⟩ := hkept hw.1
      refine hkeys.imp id fun ⟨hkeys, hgen⟩ => ⟨frame, hkeys, ?_⟩
      rintro rfl
      rw [hw.2] at hgen
      refine hstand ?_
      -- the counter came round to where it was, in fewer than 2 ^ 32 calls
      have hnat := congrArg UInt32.toNat hgen
      rw [UInt32.toNat_add, UInt32.toNat_ofNat'] at hnat
      have hlt := t.egl.hash.gen.toNat_lt
      omega
  unfold drawAndRead drawFailed
  simp only [Cmd.wlp_bind, Cmd.wlp_ite, Cmd.wlp_pure, wlp_ctxOf, wlp_getHash]
  refine ⟨trivial, fun _ _ _ => ⟨fun _ => ⟨trivial, fun failed _ _ => ⟨fun _ => ?_,
    fun _ => hrest⟩⟩, fun _ => ⟨fun h => absurd h (by simp), fun _ => hrest⟩⟩⟩
  exact ⟨hs, fun h => absurd (hv.symm.trans h) (by simp)⟩

end Check

/-! Converts and runs -/

section Runs
variable {K : Type} [DecidableEq K] {address : ℕ → ℕ} {k : K} {call : EglCall}
  {t t' : EglThread K}

theorem EglThread.Remembers.keeps (hr : t.Remembers) (h : t.Keeps t') : t'.Remembers where
  kept hv' := by
    rcases h.valid with heq | hf
    · obtain ⟨frame, hk⟩ := hr.kept (heq ▸ hv')
      exact ⟨frame, hk.of_keeps h⟩
    · exact absurd (hf.symm.trans hv') (by simp)
  sound := by
    rw [h.log]
    exact hr.sound

/-- A convert that the draw is reached in. -/
theorem convertCurrent_spec {t₀ : EglThread K} {wasValid : Bool} (h : t₀.Keeps t)
    (hv : t.egl.hash.valid = false) (hs : SkipsSound t₀.log)
    (hcalls : callsSince k t₀.log < 2 ^ 32)
    (hkept : wasValid = true → ∃ frame, t₀.Kept frame) :
    Cmd.wlp anyGl (convertCurrent address k call wasValid) (fun _ t' _ => t'.Delivered k) t () := by
  unfold convertCurrent
  simp only [Cmd.wlp_bind, wlp_ctxOf]
  refine Cmd.wlp_mono (keeps_any (currentInode_keeps call.dmaBufFd) t) ?_
  intro inode t₁ _ h₁
  refine Cmd.wlp_mono (keeps_any (acquireImage_keeps k call _ inode) t₁) ?_
  rintro (e | acquired) t₂ _ h₂
  all_goals
    have hall := (h.trans h₁).trans h₂
    have hv₂ := h₂.invalid (h₁.invalid hv)
  · refine ⟨by rw [hall.log]; exact hs, fun hval => absurd (hv₂.symm.trans hval) (by simp)⟩
  · simp only [Cmd.wlp_bind, Cmd.wlp_pure]
    refine Cmd.wlp_mono (drawAndRead_spec hv₂ ?_ ?_ fun hw => ?_) ?_
    · rw [hall.log]
      exact hs
    · rw [hall.log]
      exact hcalls
    · obtain ⟨frame, hk⟩ := hkept hw
      exact ⟨frame, hk.of_keeps hall⟩
    · intro _ t₃ _ h₃
      have hrel := (releaseUncached_reads (K := K) acquired).mono fun _ _ => trivial
      refine Cmd.wlp_mono (Cmd.wlp_of_wp (hrel t₃)) ?_
      rintro _ _ _ rfl
      exact h₃

theorem eglConvertImpl_spec (hr : t.Remembers) (hcalls : callsSince k t.log < 2 ^ 32) :
    Cmd.wlp anyGl (eglConvertImpl address k call) (fun _ t' _ => t'.Delivered k) t () := by
  have h₀ : t.Keeps { t with egl := { t.egl with
      hash := { t.egl.hash with valid := false, fresh := false } } } :=
    ⟨rfl, rfl, .inr rfl, .inr rfl, fun ha => ha.congr rfl rfl⟩
  have hout {t' : EglThread K} (h : t.Keeps t') (hv : t'.egl.hash.valid = false) :
      t'.Delivered k :=
    ⟨by rw [h.log]; exact hr.sound, fun hval => absurd (hv.symm.trans hval) (by simp)⟩
  unfold eglConvertImpl
  simp only [Cmd.wlp_bind, Cmd.wlp_ite, Cmd.wlp_pure, wlp_getHash, wlp_modifyHash]
  refine ⟨fun _ => hout h₀ rfl, fun _ => ?_⟩
  refine Cmd.wlp_mono (keeps_any (leaveDevice_keeps k) _) ?_
  intro _ t₁ _ h₁
  refine Cmd.wlp_mono (keeps_any (ensureInit_keeps k) t₁) ?_
  intro ret t₂ _ h₂
  have hall := (h₀.trans h₁).trans h₂
  have hv₂ : t₂.egl.hash.valid = false := h₂.invalid (h₁.invalid rfl)
  refine ⟨fun _ => hout hall hv₂, fun _ => ⟨trivial, fun _ _ _ => ⟨trivial, fun current _ _ =>
    ⟨fun _ => ?_, fun _ => hout hall hv₂⟩⟩⟩⟩
  exact convertCurrent_spec hall hv₂ hr.sound hcalls hr.kept

/-- What the thread remembers stays true over a convert. -/
theorem drmtapGpuEglConvertOn_spec (hr : t.Remembers) (hcalls : callsSince k t.log < 2 ^ 32) :
    Cmd.wlp anyGl (drmtapGpuEglConvertOn address k call) (fun _ t' _ => t'.Remembers) t () := by
  unfold drmtapGpuEglConvertOn
  simp only [Cmd.wlp_bind, Cmd.wlp_pure, wlp_debugLog]
  refine Cmd.wlp_mono (eglConvertImpl_spec hr hcalls) ?_
  rintro _ t' _ ⟨hs, hd⟩
  refine ⟨fun hv => ?_, hs.cons (by simp)⟩
  obtain ⟨frame, rfl, hrec⟩ := hd hv
  exact ⟨frame, hrec.kept⟩

/-- Other code on a context, with so many calls for its output buffer: they are counted, and
without one its own buffer stays. -/
inductive EglThread.Elsewhere (t : EglThread K) (k : K) (n : ℕ) : EglThread K → Prop where
  | on (c : Ctx) (heap : Heap) (hgen : c.outGen = (t.ctxs k).outGen + UInt32.ofNat n)
      (hbuf : n = 0 → c.deswizzleBuf = (t.ctxs k).deswizzleBuf) :
      t.Elsewhere k n { t with
        ctxs := Function.update t.ctxs k c
        heap := heap
        log := List.replicate n (.ensured k) ++ t.log }

theorem EglThread.Remembers.elsewhere {n : ℕ} (hr : t.Remembers) (h : t.Elsewhere k n t') :
    t'.Remembers := by
  cases h with
  | on c heap hgen hbuf =>
    refine ⟨fun hv => ?_, hr.sound.ensured k n⟩
    obtain ⟨frame, hk⟩ := hr.kept hv
    refine ⟨frame, ?_, fun hzero => ?_⟩
    · refine hk.keys.imp id fun ⟨hkeys, hg⟩ => ⟨hkeys, ?_⟩
      simp only [callsSince_ensured, Function.update_apply]
      by_cases hkf : frame.owner = k
      · subst hkf
        rw [if_pos rfl, if_pos rfl, hgen, hg, UInt32.ofNat_add, UInt32.add_assoc]
      · rw [if_neg hkf, if_neg (Ne.symm hkf), hg, add_zero]
    · rw [callsSince_ensured] at hzero
      obtain ⟨hst, hshadow⟩ := hk.standing (by omega)
      by_cases hkf : frame.owner = k
      · subst hkf
        rw [if_pos rfl] at hzero
        obtain rfl : n = 0 := by omega
        refine ⟨hst, ?_⟩
        simp only [Function.update_self]
        unfold InShadow
        rw [hbuf rfl]
        exact hshadow
      · refine ⟨hst.ensured n fun _ h => hkf h.symm, ?_⟩
        simp only [Function.update_of_ne hkf]
        exact hshadow

end Runs

end Drmtap
