import Drmtap.RustWrapper

/-! The frames of the wrapper: each has its pixels to itself, for as long as it lives. -/
namespace Drmtap

open Memory Effect

/-- A grab that hands out a frame has pixels to be read, in a mapping of the frame if they are said
to be the frame's own. -/
structure FrameInfo.Granted (frame : FrameInfo) (h : Heap) : Prop where
  live : ∀ d, frame.data = some d → h.Live d
  len : ∀ d, frame.data = some d → frame.stride.toNat * frame.height.toNat ≤ d.len
  mapped : ∀ d, frame.data = some d → drmtapFrameOwnsData frame ≠ 0 →
    ∃ p, frame.priv = some p ∧ p.mapped = some d

section Grab
variable {egl : Prop} {m m' : Machine} {rest held held' : Multiset Resource} {entry : GrabEntry}
  {frame : FrameInfo} {r : ℤ × FrameInfo}

theorem FrameInfo.Readable.granted (h : frame.Readable m) {d : Slice} (hd : frame.data = some d) :
    m.heap.Live d ∧ frame.stride.toNat * frame.height.toNat ≤ d.len := by
  obtain ⟨d', hd', hlive, hlen⟩ := h
  obtain rfl : d = d' := Option.some.inj (hd.symm.trans hd')
  exact ⟨hlive, hlen⟩

/-- The pixels of a frame are there to be read, if it has any. -/
def FrameInfo.ReadableIfAny (frame : FrameInfo) (m : Machine) : Prop :=
  frame.data ≠ none → frame.Readable m

/-- Mapped or not, a frame that is handed out has no pixels, or has them to be read. -/
theorem finishGrab_readable {doMmap : Bool} {prepared : Prepared}
    (hp : prepared.Balanced rest m held) : Cmd.wp (libEnv egl .free) (finishGrab doMmap prepared)
      (fun r m' _ => r.1 = 0 → r.2.ReadableIfAny m') m held := by
  have hconclude {planeId : UInt32} {ret : ℤ} {frame : FrameInfo} {p : FramePriv} {m₁ : Machine}
      {held₁ : Multiset Resource} (hret : ret < 0 ∨ ret = 0) (ho : Owned rest frame p m₁ held₁)
      (hr : ret = 0 → frame.ReadableIfAny m₁) :
      Cmd.wp (libEnv egl .free) (concludeGrab planeId ret frame)
        (fun r m' _ => r.1 = 0 → r.2.ReadableIfAny m') m₁ held₁ := by
    apply Cmd.wp_mono (concludeGrab_lib hret ho)
    intro r m' held' h h0 hd
    obtain ⟨_, heq, hsame⟩ := h
    obtain ⟨hframe, hheap⟩ := hsame (heq.symm.trans h0)
    rw [hframe] at hd ⊢
    exact (hr (heq.symm.trans h0) hd).of_heap hheap
  cases prepared with
  | done ret frame =>
    intro h0
    exact absurd h0 hp.1.ne
  | ready planeId frame isVirgl =>
    obtain ⟨p, hl⟩ := hp
    unfold finishGrab
    simp only [Cmd.wp_ite, Cmd.wp_bind]
    constructor
    · intro _
      apply Cmd.wp_mono (hl.process isVirgl)
      intro r m₁ held₁ h
      obtain ⟨ho, hr⟩ := h
      rcases hr with ⟨hb, hout⟩ | ⟨hb, hr⟩
      · rw [hout] at ho ⊢
        exact hconclude (.inr rfl) ho fun _ hd => absurd hb.1 hd
      · apply hconclude (hr.imp id And.left) ho
        intro h0 _
        exact (hr.resolve_left fun h => h.ne h0).2
    · intro _
      apply hconclude (.inr rfl) hl.owned
      intro _ hd
      obtain ⟨d, hd⟩ := Option.ne_none_iff_exists'.mp hd
      have hsrc := hl.source d hd
      exact ⟨d, hd, hsrc.live, by rw [Nat.mul_comm]; exact hsrc.len⟩
  | unmapped planeId frame p e =>
    have hmapped : Cmd.wp (libEnv egl .free) (finishGrab true (.unmapped planeId frame p e))
      _ m held := finishGrab_lib hp
    apply Cmd.wp_mono hmapped
    intro r m' held' h h0 _
    obtain ⟨_, hr⟩ := h
    exact ((hr rfl).mpr id) h0

theorem GrabEntry.readable (hm : m.Ready) (entry : GrabEntry) (frame : FrameInfo) :
    Cmd.wp (libEnv egl .free) (entry.run frame) (fun r m' _ => r.1 = 0 → r.2.ReadableIfAny m') m
      (m.sockets + rest) := by
  have hgrab (doMmap : Bool) : Cmd.wp (libEnv egl .free) (doGrab doMmap frame)
      (fun r m' _ => r.1 = 0 → r.2.ReadableIfAny m') m (m.sockets + rest) := by
    unfold doGrab
    rw [Cmd.wp_bind]
    exact Cmd.wp_mono (prepareGrab_lib hm) fun _ _ _ hp => finishGrab_readable hp
  cases entry with
  | grab => exact hgrab false
  | mapped => exact hgrab true
  | desc d =>
    have hsafe : Cmd.wp (libEnv egl .free) ((GrabEntry.desc d).run frame)
        (fun r m' held' => Settled rest r.1 r.2 m' held') m (m.sockets + rest) :=
      GrabEntry.run_lib hm (.desc d) frame
    apply Cmd.wp_of_runs hsafe
    intro r m' held' hr _ h0
    obtain ⟨⟨ret, d', frame'⟩, m₁, held₁, hdesc, hret⟩ := Cmd.runs_bind hr
    have hdone : Cmd.wlp Env.any (pure (ret, frame') : M (ℤ × FrameInfo))
        (fun r m' _ => r = (ret, frame') ∧ m' = m₁) m₁ () := ⟨rfl, rfl⟩
    obtain ⟨rfl, rfl⟩ := Cmd.wlp_runs hdone hret.any
    have hdesc' : Cmd.Runs (libEnv egl .free) (doGrab false frame >>= fun r =>
      GrabEntry.describe m.ctx d r.1 r.2) m (m.sockets + rest) (ret, d', frame') m' held₁ := hdesc
    obtain ⟨r₁, m₂, held₂, hr₁, hr₂⟩ := Cmd.runs_bind hdesc'
    obtain ⟨hret₁, hframe, rfl⟩ := Cmd.wlp_runs (describe_hands m.ctx d r₁.1 r₁.2) hr₂.any h0
    have hread := Cmd.wp_runs (hgrab false) hr₁ hret₁
    rwa [← show frame' = r₁.2 from hframe] at hread

theorem ownsData_ne_zero {p : FramePriv} {d : Slice} (hd : frame.data = some d)
    (hp : frame.priv = some p) (h : drmtapFrameOwnsData frame ≠ 0) :
    ∃ t, p.mapped = some t ∧ t.base = d.base := by
  apply (drmtapFrameOwnsData_iff hd hp).mp
  unfold drmtapFrameOwnsData at h ⊢
  split at h
  · split_ifs at h ⊢ <;> simp_all
  · exact absurd rfl h

/-- A frame that a plain grab hands out can be read. -/
theorem GrabEntry.granted (hm : m.Ready)
    (hr : Cmd.Runs (libEnv egl .free) (entry.run frame) m (m.sockets + rest) r m' held')
    (h0 : r.1 = 0) : r.2.Granted m'.heap := by
  have hread := Cmd.wp_runs (GrabEntry.readable hm entry frame) hr h0
  have hany {d : Slice} (hd : r.2.data = some d) : r.2.Readable m' := hread (by simp [hd])
  obtain ⟨p, hp, -, hshown⟩ := GrabEntry.shown hm hr h0
  obtain ⟨p', ho⟩ := ((Cmd.wp_runs (GrabEntry.run_lib hm entry frame) hr).resolve_left
    fun h => h.1.ne h0).2
  obtain rfl : p = p' := Option.some.inj (hp.symm.trans ho.priv)
  constructor
  · exact fun d hd => ((hany hd).granted hd).1
  · exact fun d hd => ((hany hd).granted hd).2
  · intro d hd howns
    obtain ⟨t, ht, hbase⟩ := ownsData_ne_zero hd hp howns
    refine ⟨p, hp, (hshown d hd).resolve_right fun hno => hno ?_⟩
    rw [← hbase]
    exact (ho.valid.mapped t ht).2.1

end Grab

/-! Memory of the caller -/

namespace Session

section Caller
variable {s : Session} {frames : List FrameInfo} {caller : List Slice}

/-- The order of the frames, and of the memory of the caller, does not matter. -/
theorem Sound.perm (h : s.Sound) (hf : s.frames.Perm frames) (hc : s.caller.Perm caller) :
    Sound { s with frames := frames, caller := caller } := by
  have hi := h.intact
  have hclaimed : s.claimed.Perm (claimed { s with frames := frames, caller := caller }) :=
    (hf.flatMap_right _).append (hc.map _)
  constructor
  · constructor
    · exact hi.fast
    · exact fun f hmem => hi.valid f (hf.mem_iff.mpr hmem)
    · exact fun c hmem => hi.whole c (hc.mem_iff.mpr hmem)
    · exact fun b hb => hi.spared b (hclaimed.mem_iff.mpr hb)
    · exact hclaimed.nodup_iff.mp hi.nodup
    · intro u hu
      obtain ⟨c, hmem, hbase⟩ := hi.lent u hu
      exact ⟨c, hc.mem_iff.mp hmem, hbase⟩
  · rw [h.held]
    show _ = _ + (_ + (frames.map FrameInfo.owned).sum)
    rw [← (hf.map _).sum_eq]
    rfl

/-- Bytes that are written into a block, whoever holds it. -/
theorem Sound.fill (h : s.Sound) {heap : Heap} {b : ℕ} {A : ℕ → Prop} {V : ℕ → UInt8}
    (hfill : Filled s.machine.heap heap b A V) :
    Sound { s with machine := { s.machine with heap := heap } } := by
  have hi := h.intact
  have hready := hi.fast.ready
  have hready' : Machine.Ready { s.machine with heap := heap } :=
    { buffered :=
        { user := fun u hu => hfill.live (hready.buffered.user u hu)
          shadow := fun t ht => hfill.whole (hready.buffered.shadow t ht)
          apart := hready.buffered.apart }
      pixel := fun t ht => ⟨hfill.whole (hready.pixel t ht).1, (hready.pixel t ht).2⟩
      memo := hready.memo }
  constructor
  · constructor
    · exact hi.fast.of_same hready' ⟨rfl, rfl⟩ fun _ _ _ hw hp => ⟨hfill.whole hw, hp⟩
    · intro frame hframe p hp
      have hv := hi.valid frame hframe p hp
      refine ⟨hfill.whole hv.self, hv.selfPrivate, fun t ht => ?_, hv.window⟩
      obtain ⟨hw, hr⟩ := hv.mapped t ht
      exact ⟨hfill.whole hw, hr⟩
    · exact fun c hc => hfill.whole (hi.whole c hc)
    · exact fun b hb => (hi.spared b hb).of_heap hfill.next.ge
    · exact hi.nodup
    · exact hi.lent
  · exact h.held

end Caller

end Session

namespace TapFrame

/-- What `data` shows is in the buffer of the frame or in its own mapping. -/
structure Backed (f : TapFrame) : Prop where
  owned : ∀ b, f.owned = some b → f.len ≤ b.len
  mapped : f.owned = none → ∀ d, f.raw.data = some d →
    f.len ≤ d.len ∧ ∃ p, f.raw.priv = some p ∧ p.mapped = some d

/-- And it is what the library has handed out. -/
structure Shows (f : TapFrame) (h : Heap) : Prop where
  pixels : ∀ v, f.data = some (some v) → ∃ d, f.raw.data = some d ∧ h.Live d ∧ v.len = f.len ∧
    f.len ≤ d.len ∧ ∀ i < f.len, h.read v.base i = h.read d.base i
  blank : f.data = some none ↔ f.raw.data = none

end TapFrame

/-! What a wrapper has in its hands -/

/-- The library under the wrapper, whose lock is taken or not. -/
abbrev rustEnv (egl : Prop) : Effect.Env (Op ⊕ RustOp) (Sum.elim Ans RustAns) where
  State := Multiset Resource
  legal held := Sum.elim ((libEnv egl .free).legal held) fun _ => True
  step held o :=
    match o with
    | .inl o => (libEnv egl .free).step held o
    | .inr _ => fun _ held' => held' = held

namespace DrmTap

def session (t : DrmTap) (held : Multiset Resource) (frames : List FrameInfo)
    (bufs : List Slice) : Session := ⟨t.machine, held, frames, t.spare.toList ++ bufs⟩

/-- With the frames that are handed out, and the buffers that are neither spare nor free. A
conversion goes to `user`. -/
structure Holds (t : DrmTap) (held : Multiset Resource) (frames : List FrameInfo)
    (bufs : List Slice) (user : Option Slice) : Prop where
  sound : (t.session held frames bufs).Sound
  user : t.machine.ctx.userOut = user

/-- The blocks of frames and buffers are left alone. -/
structure Same (frames : List FrameInfo) (bufs : List Slice) (h h' : Heap) : Prop where
  frames : ∀ f ∈ frames, ∀ b ∈ f.blocks, h'.block b = h.block b
  bufs : ∀ c ∈ bufs, h'.block c.base = h.block c.base

/-- And so by what becomes of a tap. -/
abbrev Leaves (frames : List FrameInfo) (bufs : List Slice) (t t' : DrmTap) : Prop :=
  Same frames bufs t.machine.heap t'.machine.heap

section Holds
variable {t t' : DrmTap} {held : Multiset Resource} {frames : List FrameInfo}
  {bufs : List Slice} {user : Option Slice} {v : Slice} {h h' h'' : Heap}

theorem Same.refl (h : Heap) : Same frames bufs h h := by
  constructor <;> intros <;> rfl

theorem Same.trans (hs : Same frames bufs h h') (hs' : Same frames bufs h' h'') :
    Same frames bufs h h'' where
  frames f hf b hb := (hs'.frames f hf b hb).trans (hs.frames f hf b hb)
  bufs c hc := (hs'.bufs c hc).trans (hs.bufs c hc)

theorem Same.mono {frames' : List FrameInfo} {bufs' : List Slice} (hs : Same frames bufs h h')
    (hf : ∀ f ∈ frames', f ∈ frames) (hb : ∀ c ∈ bufs', c ∈ bufs) : Same frames' bufs' h h' where
  frames f hmem := hs.frames f (hf f hmem)
  bufs c hc := hs.bufs c (hb c hc)

theorem Same.tail (hs : Same frames (v :: bufs) h h') : Same frames bufs h h' :=
  hs.mono (fun _ => id) fun _ => List.mem_cons_of_mem v

/-- A part of what is held may be looked at in another order. -/
theorem Holds.perm {bufs' : List Slice} (h : t.Holds held frames bufs user)
    (hp : (t.spare.toList ++ bufs).Perm (t'.spare.toList ++ bufs'))
    (hm : t'.machine = t.machine) : t'.Holds held frames bufs' user where
  sound := by
    have hs := h.sound.perm (.refl frames) hp
    unfold session at hs ⊢
    rw [hm]
    exact hs
  user := by rw [hm, h.user]

theorem Holds.whole (h : t.Holds held frames bufs user) (hv : v ∈ bufs) :
    t.machine.heap.Whole v :=
  h.sound.intact.whole v (List.mem_append_right _ hv)

/-- Two buffers are two blocks. -/
theorem Holds.nodup (h : t.Holds held frames bufs user) :
    ((t.spare.toList ++ bufs).map Slice.base).Nodup :=
  (List.nodup_append.mp h.sound.intact.nodup).2.1

theorem Holds.alloc (h : t.Holds held frames bufs user) (size : ℕ) (byte : ℕ → UInt8) :
    let made := t.machine.heap.alloc size byte
    let t' := t.setMachine { t.machine with heap := made.2 }
    t'.Holds held frames (made.1 :: bufs) user ∧ Leaves frames bufs t t' := by
  intro made t'
  have hi := h.sound.intact
  have hsame {b : ℕ} (hb : b ∈ (t.session held frames bufs).claimed) :
      made.2.block b = t.machine.heap.block b :=
    Heap.alloc_block_of_lt (hi.spared b hb).lt _ _
  refine ⟨⟨?_, h.user⟩, ?_, ?_⟩
  · exact (h.sound.allocate size byte).perm (.refl _) List.perm_middle.symm
  · exact fun f hf b hb => hsame (Session.mem_claimed.mpr (.inl ⟨f, hf, hb⟩))
  · exact fun c hc =>
      hsame (Session.mem_claimed.mpr (.inr ⟨c, List.mem_append_right _ hc, rfl⟩))

/-- A buffer that is not lent may be dropped. -/
theorem Holds.free (h : t.Holds held frames (v :: bufs) user) (hv : ¬ Lent user v.base) :
    t.machine.heap.free v = some (t.machine.heap.release v.base) ∧
      let t' := t.setMachine { t.machine with heap := t.machine.heap.release v.base }
      t'.Holds held frames bufs user ∧ Leaves frames bufs t t' := by
  have hi := h.sound.intact
  have hlent : ¬ Lent (t.session held frames (v :: bufs)).user v.base := by
    rw [← h.user] at hv
    exact hv
  refine ⟨(h.whole List.mem_cons_self).free, ⟨h.sound.deallocate (c := v) rfl hlent, h.user⟩,
    ?_, ?_⟩
  · intro f hf b hb
    apply Heap.release_block
    refine (hi.disjoint hf hb (c := v) ?_).symm
    simp [session]
  · intro c hc
    apply Heap.release_block
    intro heq
    have hnodup := (List.nodup_append.mp (List.map_append ▸ h.nodup)).2.1
    rw [List.map_cons, List.nodup_cons] at hnodup
    exact hnodup.1 (heq ▸ List.mem_map_of_mem hc)

/-- A buffer that is held may be written to. -/
theorem Holds.fill (h : t.Holds held frames (v :: bufs) user) {heap : Heap} {A : ℕ → Prop}
    {V : ℕ → UInt8} (hfill : Filled t.machine.heap heap v.base A V) :
    let t' := t.setMachine { t.machine with heap := heap }
    t'.Holds held frames (v :: bufs) user ∧ Leaves frames bufs t t' := by
  have hv : v ∈ (t.session held frames (v :: bufs)).caller := by simp [session]
  refine ⟨⟨h.sound.fill hfill, h.user⟩, ?_, ?_⟩
  · intro f hf b hb
    exact hfill.other b (h.sound.intact.disjoint hf hb hv).symm
  · intro c hc
    apply hfill.other
    intro heq
    have hnodup := (List.nodup_append.mp (List.map_append ▸ h.nodup)).2.1
    rw [List.map_cons, List.nodup_cons] at hnodup
    exact hnodup.1 (heq ▸ List.mem_map_of_mem hc)

end Holds

section Steps
variable {egl : Prop} {t : DrmTap} {held : Multiset Resource} {frames : List FrameInfo}
  {bufs : List Slice} {user : Option Slice} {v d : Slice} {α : Type}

theorem wp_ffi {c : M α} {Q : α → DrmTap → Multiset Resource → Prop} :
    Cmd.wp (rustEnv egl) (ffi c) Q t held ↔
      Cmd.wp (libEnv egl .free) c (fun a m' held' => Q a (t.setMachine m') held') t.machine held :=
  Cmd.wp_zoom

theorem wp_heap {f : Heap → Option (α × Heap)} {Q : α → DrmTap → Multiset Resource → Prop} :
    Cmd.wp (rustEnv egl) (ffi (onHeap f)) Q t held ↔ ∃ a h, f t.machine.heap = some (a, h) ∧
      Q a (t.setMachine { t.machine with heap := h }) held :=
  wp_ffi.trans wp_onHeap

theorem wp_lockSpare {Q : Bool → DrmTap → Multiset Resource → Prop}
    (h : ∀ locked, Q locked t held) : Cmd.wp (rustEnv egl) lockSpare Q t held := by
  refine ⟨trivial, fun locked held' hs => ?_⟩
  obtain rfl : held' = held := hs
  exact h locked

theorem vecZeroed_holds (h : t.Holds held frames bufs user) (len : ℕ) :
    Cmd.wp (rustEnv egl) (vecZeroed len) (fun v t' held' => v.len = len ∧
      t'.Holds held' frames (v :: bufs) user ∧ Leaves frames bufs t t') t held :=
  wp_heap.mpr ⟨_, _, rfl, rfl, h.alloc _ _⟩

theorem vecDrop_holds (h : t.Holds held frames (v :: bufs) user) (hv : ¬ Lent user v.base) :
    Cmd.wp (rustEnv egl) (vecDrop v) (fun _ t' held' =>
      t'.Holds held' frames bufs user ∧ Leaves frames bufs t t') t held := by
  obtain ⟨hfree, hafter⟩ := h.free hv
  exact wp_heap.mpr ⟨(), _, by rw [hfree]; exact rfl, hafter⟩

theorem readRaw_holds (hlive : t.machine.heap.Live d) {len : ℕ} (hlen : len ≤ d.len) :
    Cmd.wp (rustEnv egl) (readRaw d len) (fun bytes t' held' => t' = t ∧ held' = held ∧
      bytes = (List.range len).map (t.machine.heap.read d.base)) t held := by
  apply wp_heap.mpr
  refine ⟨_, t.machine.heap, ?_, rfl, rfl, rfl⟩
  rw [Heap.load_eq hlive (by omega)]
  simp

theorem not_lent_none {b : ℕ} : ¬ Lent none b := by
  rintro ⟨u, hu, -⟩
  cases hu

/-- A buffer of at least `len` bytes is taken from what is there, or made. -/
theorem takeBuffer_holds (h : t.Holds held frames bufs none) (len : ℕ) :
    Cmd.wp (rustEnv egl) (takeBuffer len) (fun v t' held' => len ≤ v.len ∧
      t'.Holds held' frames (v :: bufs) none ∧ Leaves frames bufs t t') t held := by
  have hnew {t₁ : DrmTap} (h₁ : t₁.Holds held frames bufs none) (hs : Leaves frames bufs t t₁) :
      Cmd.wp (rustEnv egl) (vecZeroed len) (fun v t' held' => len ≤ v.len ∧
        t'.Holds held' frames (v :: bufs) none ∧ Leaves frames bufs t t') t₁ held := by
    apply Cmd.wp_mono (vecZeroed_holds h₁ len)
    intro v t' held' h
    obtain ⟨hlen, hh, hs'⟩ := h
    exact ⟨hlen.ge, hh, hs.trans hs'⟩
  unfold takeBuffer
  rw [Cmd.wp_bind]
  apply wp_lockSpare
  intro locked
  simp only [Cmd.wp_bind, Cmd.wp_get, Cmd.wp_ite, Cmd.wp_modify]
  constructor
  · intro _
    cases hspare : t.spare with
    | none =>
      have hnone : (t.setSpare none).Holds held frames bufs none :=
        h.perm (by simp [setSpare, hspare]) rfl
      exact hnew hnone (.refl _)
    | some buf =>
      have hbuf : (t.setSpare none).Holds held frames (buf :: bufs) none :=
        h.perm (by simp [setSpare, hspare]) rfl
      simp only [Cmd.wp_ite, Cmd.wp_pure, Cmd.wp_bind]
      constructor
      · intro hlen
        exact ⟨hlen, hbuf, .refl _⟩
      · intro _
        apply Cmd.wp_mono (vecZeroed_holds hbuf len)
        intro new t₁ held₁ h
        obtain ⟨hlen, h₁, hs₁⟩ := h
        have hswap : t₁.Holds held₁ frames (buf :: new :: bufs) none :=
          h₁.perm (.append_left _ (.swap _ _ _)) rfl
        apply Cmd.wp_mono (vecDrop_holds hswap not_lent_none)
        intro _ t₂ held₂ h
        obtain ⟨h₂, hs₂⟩ := h
        exact ⟨hlen.ge, h₂, hs₁.tail.trans hs₂.tail⟩
  · intro _
    exact hnew h (.refl _)

theorem keepBuffer_holds (h : t.Holds held frames (v :: bufs) none) :
    Cmd.wp (rustEnv egl) (keepBuffer v) (fun _ t' held' =>
      t'.Holds held' frames bufs none ∧ Leaves frames bufs t t') t held := by
  unfold keepBuffer
  rw [Cmd.wp_bind]
  apply wp_lockSpare
  intro locked
  simp only [Cmd.wp_bind, Cmd.wp_get, Cmd.wp_ite, Cmd.wp_modify]
  constructor
  · intro _
    cases hspare : t.spare with
    | none =>
      refine ⟨?_, .refl _⟩
      exact h.perm (by simp [setSpare, hspare]) rfl
    | some old =>
      have hold : (t.setSpare (some v)).Holds held frames (old :: bufs) none :=
        h.perm (by simpa [setSpare, hspare] using .swap _ _ _) rfl
      exact vecDrop_holds hold not_lent_none
  · intro _
    exact vecDrop_holds h not_lent_none

/-- A copy of `bytes` in a block of its own. -/
theorem vecOf_holds (h : t.Holds held frames bufs user) (bytes : List UInt8) :
    Cmd.wp (rustEnv egl) (vecOf bytes) (fun v t' held' =>
      v = ⟨t.machine.heap.next, bytes.length⟩ ∧
      t'.Holds held' frames (v :: bufs) user ∧ Leaves frames bufs t t' ∧
      (∀ i, t'.machine.heap.read v.base i = bytes.getD i 0) ∧
      ∀ b < t.machine.heap.next, t'.machine.heap.block b = t.machine.heap.block b) t held := by
  obtain ⟨hholds, hleaves⟩ := h.alloc bytes.length fun i => bytes.getD i 0
  apply wp_heap.mpr
  refine ⟨_, _, rfl, rfl, hholds, hleaves, fun i => ?_, fun b hb => ?_⟩
  · show Heap.read _ t.machine.heap.next i = _
    unfold Heap.read
    erw [Heap.alloc_block]
  · exact Heap.alloc_block_of_lt hb _ _

/-- What `copy_unowned` makes of a frame: a copy that shows the same bytes, unless it owns them. -/
def Copied (raw : FrameInfo) (h : Heap) : Option Slice → Prop
  | none => ∀ d, raw.data = some d → drmtapFrameOwnsData raw ≠ 0
  | some b => raw.stride.toNat * raw.height.toNat ≤ b.len ∧ ∃ d, raw.data = some d ∧
    ∀ i < raw.stride.toNat * raw.height.toNat, h.read b.base i = h.read d.base i

/-- The original is still there. -/
theorem copyUnowned_holds {raw : FrameInfo} (spare : Option Slice)
    (h : t.Holds held frames (spare.toList ++ bufs) none) (hg : raw.Granted t.machine.heap)
    (hapart : ∀ d v, raw.data = some d → spare = some v → d.base ≠ v.base) :
    Cmd.wp (rustEnv egl) (copyUnowned raw spare) (fun r t' held' =>
      t'.Holds held' frames (r.1.toList ++ (r.2.toList ++ bufs)) none ∧ Leaves frames bufs t t' ∧
      raw.Granted t'.machine.heap ∧ Copied raw t'.machine.heap r.1 ∧
      r.2 = if r.1 = none then spare else none) t held := by
  unfold copyUnowned
  cases hdata : raw.data with
  | none =>
    rw [Cmd.wp_pure]
    exact ⟨h, .refl _, hg, by simp [Copied, hdata], rfl⟩
  | some data =>
    have hlive := hg.live data hdata
    have hlen := hg.len data hdata
    have hgranted {heap : Heap} (hl : heap.Live data) : raw.Granted heap := by
      refine ⟨fun d hd => ?_, hg.len, hg.mapped⟩
      obtain rfl := Option.some.inj (hdata.symm.trans hd)
      exact hl
    have hkept {heap : Heap} (hold : ∀ b < t.machine.heap.next,
        heap.block b = t.machine.heap.block b) : heap.Live data := by
      have hlt := hlive.lt_next
      obtain ⟨B, hB, hsize⟩ := hlive
      exact ⟨B, (hold _ hlt).trans hB, hsize⟩
    simp only [Cmd.wp_ite, Cmd.wp_pure, Cmd.wp_bind]
    constructor
    · intro howns
      exact ⟨h, .refl _, hg, fun _ _ => howns, rfl⟩
    intro _
    apply Cmd.wp_mono (readRaw_holds hlive hlen)
    intro pixels t₁ held₁ h
    obtain ⟨ht₁, hheld₁, hpixels⟩ := h
    subst ht₁ hheld₁
    have hcount : pixels.length = raw.stride.toNat * raw.height.toNat := by simp [hpixels]
    have hbyte (i : ℕ) (hi : i < raw.stride.toNat * raw.height.toNat) :
        pixels.getD i 0 = t₁.machine.heap.read data.base i := by
      simp [hpixels, List.getD_eq_getElem?_getD, hi]
    cases spare with
    | none =>
      rw [Cmd.wp_bind]
      apply Cmd.wp_mono (vecOf_holds h pixels)
      intro copy t₂ held₂ h
      obtain ⟨hcopy, h₂, hs₂, hread, hold⟩ := h
      refine ⟨h₂, hs₂, hgranted (hkept hold), ⟨by simp [hcopy, hcount], data, hdata, ?_⟩, rfl⟩
      intro i hi
      rw [hread, hbyte i hi, Heap.read, Heap.read, hold _ hlive.lt_next]
    | some buf =>
      have hne := hapart data buf hdata rfl
      simp only [Cmd.wp_ite, Cmd.wp_pure, Cmd.wp_bind]
      constructor
      · intro hfits
        have hin : 0 + pixels.length ≤ buf.len := by omega
        obtain ⟨heap, hstore, hfill⟩ := Heap.store_filled (V := fun i => pixels.getD i 0)
          (h.whole (v := buf) (by simp)).live hin (by
            intro i hi
            simp [List.getD_eq_getElem?_getD, hi])
        obtain ⟨h₂, hs₂⟩ := h.fill hfill
        apply wp_heap.mpr
        refine ⟨(), heap, by rw [hstore]; exact rfl, h₂, hs₂, hgranted (hfill.live hlive),
          ⟨hfits, data, hdata, fun i hi => ?_⟩, rfl⟩
        show heap.read buf.base i = heap.read data.base i
        rw [hfill.hit i (by omega), hfill.read_other hne, hbyte i hi]
      · intro _
        apply Cmd.wp_mono (vecOf_holds h pixels)
        intro copy t₂ held₂ h
        obtain ⟨hcopy, h₂, hs₂, hread, hold⟩ := h
        have hswap : t₂.Holds held₂ frames (buf :: copy :: bufs) none :=
          h₂.perm (.append_left _ (.swap _ _ _)) rfl
        obtain ⟨hfree, h₃, hs₃⟩ := hswap.free not_lent_none
        have hbuf : buf.base < t₁.machine.heap.next := (h.whole (v := buf) (by simp)).live.lt_next
        apply wp_heap.mpr
        refine ⟨(), _, by rw [hfree]; exact rfl, h₃, hs₂.tail.trans hs₃.tail,
          hgranted ((hkept hold).release hne),
          ⟨by simp [hcopy, hcount], data, hdata, fun i hi => ?_⟩, rfl⟩
        have hrelease {b : ℕ} (hb : b ≠ buf.base) :
            (t₂.machine.heap.release buf.base).read b i = t₂.machine.heap.read b i := by
          rw [Heap.read, Heap.read, Heap.release_block hb]
        show (t₂.machine.heap.release buf.base).read copy.base i =
          (t₂.machine.heap.release buf.base).read data.base i
        rw [hrelease hne, hrelease (by rw [hcopy]; exact hbuf.ne'), hread, hbyte i hi, Heap.read,
          Heap.read, hold _ hlive.lt_next]

end Steps

/-! Its calls of the library -/

/-- What a grab answers, and what is held after it. -/
def Answered (frames : List FrameInfo) (bufs : List Slice) (user : Option Slice)
    (r : ℤ × FrameInfo) (t : DrmTap) (held : Multiset Resource) : Prop :=
  (r.1 < 0 ∧ t.Holds held frames bufs user) ∨
    (r.1 = 0 ∧ t.Holds held (r.2 :: frames) bufs user ∧ r.2.Granted t.machine.heap)

section Calls
variable {egl : Prop} {t : DrmTap} {held : Multiset Resource} {frames : List FrameInfo}
  {bufs : List Slice} {user : Option Slice} {frame : FrameInfo}

theorem grab_holds (h : t.Holds held frames bufs user) (entry : GrabEntry) (frame : FrameInfo) :
    Cmd.wp (rustEnv egl) (ffi (entry.run frame)) (fun r t' held' =>
      Answered frames bufs user r t' held' ∧
      ∀ lent, (∀ c ∈ lent, c ∈ bufs ∧ ¬ Lent user c.base) → Leaves frames lent t t') t held := by
  have hi := h.sound.intact
  obtain ⟨rest, hrest⟩ : ∃ rest, held = t.machine.sockets + rest := by
    have hheld : held = t.machine.ctx.owned + (t.machine.sockets +
      (t.session held frames bufs).owned) := h.sound.held
    exact ⟨_, hheld.trans (add_left_comm _ _ _)⟩
  apply wp_ffi.mpr
  rw [hrest]
  apply Cmd.wp_of_runs (GrabEntry.run_lib hi.fast.ready entry frame)
  intro r m' held' hr hset
  have hrun : Cmd.Runs (libEnv egl .free) (entry.run frame) t.machine held r m' held' := by
    rw [hrest]
    exact hr
  have hsound := Session.Sound.grab h.sound hrun
  have huser : m'.ctx.userOut = user := (GrabEntry.keepsSlots hr).2.trans h.user
  constructor
  · rcases hset with ⟨hneg, -⟩ | ⟨h0, -⟩
    · refine .inl ⟨hneg, ?_, huser⟩
      rw [Session.hand, if_neg hneg.ne] at hsound
      exact hsound
    · refine .inr ⟨h0, ⟨?_, huser⟩, GrabEntry.granted hi.fast.ready hr h0⟩
      rw [Session.hand, if_pos h0] at hsound
      exact hsound
  · intro lent hlent
    have hkept {b : ℕ} (hb : b ∈ (t.session held frames bufs).claimed)
        (hno : ¬ Lent user b) : m'.heap.block b = t.machine.heap.block b := by
      obtain ⟨-, hk, -⟩ := (isolates_grabEntry entry frame).runs hr (hi.clear hb)
      refine hk.same ?_
      rw [← h.user] at hno
      exact hno
    constructor
    · intro f hf b hb
      apply hkept (Session.mem_claimed.mpr (.inl ⟨f, hf, hb⟩))
      have hno := hi.not_lent hf hb
      rw [← h.user]
      exact hno
    · intro c hc
      apply hkept _ (hlent c hc).2
      exact Session.mem_claimed.mpr (.inr ⟨c, List.mem_append_right _ (hlent c hc).1, rfl⟩)

theorem release_holds (h : t.Holds held (frame :: frames) bufs user) :
    Cmd.wp (rustEnv egl) (ffi (drmtapFrameRelease frame)) (fun _ t' held' =>
      t'.Holds held' frames bufs user ∧ Leaves frames bufs t t') t held := by
  have hi := h.sound.intact
  have hmem : frame ∈ (t.session held (frame :: frames) bufs).frames := List.mem_cons_self
  have hsafe : Cmd.wp (libEnv egl .free) (drmtapFrameRelease frame)
      (fun _ m' _ => m'.ctx = t.machine.ctx) t.machine held := by
    cases hp : frame.priv with
    | none =>
      unfold drmtapFrameRelease
      rw [hp]
      exact rfl
    | some p =>
      have hsum : held = p.owned + (t.machine.ctx.owned + (t.machine.sockets +
          (t.session held frames bufs).owned)) := by
        have hheld : held = t.machine.ctx.owned + (t.machine.sockets +
          (t.session held (frame :: frames) bufs).owned) := h.sound.held
        have hcons := Session.owned_cons (t.session held frames bufs) frame
        rw [FrameInfo.owned, hp] at hcons
        rw [show (t.session held (frame :: frames) bufs).owned = _ from hcons] at hheld
        refine hheld.trans ?_
        show _ + (_ + (p.owned + _)) = _
        abel
      exact Cmd.wp_mono (drmtapFrameRelease_lib hi.fast.ready hp (hi.valid frame hmem p hp) hsum)
        fun _ _ _ hdone => hdone.2.1
  apply wp_ffi.mpr
  apply Cmd.wp_of_runs hsafe
  intro f m' held' hr hctx
  have hframes : (t.session held (frame :: frames) bufs).frames = [] ++ frame :: frames := rfl
  refine ⟨⟨h.sound.release hframes hr, ?_⟩, ?_⟩
  · show m'.ctx.userOut = user
    rw [hctx, h.user]
  · have hnodup := (Session.claimed_frame hframes).nodup_iff.mp hi.nodup
    have hkept {b : ℕ} (hb : b ∈ (t.session held frames bufs).claimed) :
        m'.heap.block b = t.machine.heap.block b := by
      have hspared := hi.spared b ((Session.claimed_frame hframes).mem_iff.mpr
        (List.mem_append_right _ hb))
      refine (Session.release_spares (fun hown => ?_) hspared hr).2
      exact (List.nodup_append.mp hnodup).2.2 b hown b hb rfl
    constructor
    · exact fun f hf b hb => hkept (Session.mem_claimed.mpr (.inl ⟨f, hf, hb⟩))
    · exact fun c hc =>
        hkept (Session.mem_claimed.mpr (.inr ⟨c, List.mem_append_right _ hc, rfl⟩))

/-- The output buffer is one of the tap's own, or none. -/
theorem setOutput_holds (h : t.Holds held frames bufs user) (buf : Option Slice)
    (hmem : ∀ v, buf = some v → v ∈ bufs ∧ v.len ≠ 0) :
    Cmd.wp (rustEnv egl) (ffi (drmtapSetOutputBuffer buf)) (fun _ t' held' =>
      t'.Holds held' frames bufs buf ∧ t'.machine.heap = t.machine.heap) t held := by
  have hset : (t.setMachine { t.machine with ctx := t.machine.ctx.setUserOut buf }).Holds held
      frames bufs buf := by
    refine ⟨⟨h.sound.intact.setUserOut ?_ held, h.sound.held⟩, rfl⟩
    intro v hv
    exact ⟨v, List.mem_append_right _ (hmem v hv).1, rfl, le_rfl⟩
  apply wp_ffi.mpr
  unfold drmtapSetOutputBuffer
  cases buf with
  | none => exact ⟨hset, rfl⟩
  | some v =>
    simp only [Cmd.wp_ite, Cmd.wp_bind, Cmd.wp_pure, wp_modifyCtx]
    exact ⟨fun hzero => absurd hzero (hmem v rfl).2, fun _ => ⟨hset, rfl⟩⟩

end Calls

/-! Its grabs -/

/-- What a grab of the wrapper returns, and what is held after it. -/
def Returned (frames : List FrameInfo) (bufs : List Slice) (t : DrmTap)
    (held : Multiset Resource) : Except ℤ TapFrame → Prop
  | .error _ => t.Holds held frames bufs none
  | .ok f => t.Holds held (f.raw :: frames) (f.owned.toList ++ bufs) none ∧ f.Backed ∧
      f.Shows t.machine.heap

section Grabs
variable {egl : Prop} {t : DrmTap} {held : Multiset Resource} {frames : List FrameInfo}
  {bufs : List Slice} {buf : Option Slice} {raw : FrameInfo}

theorem lendBuffer_holds (h : t.Holds held frames bufs none) :
    Cmd.wp (rustEnv egl) lendBuffer (fun buf t' held' =>
      t'.Holds held' frames (buf.toList ++ bufs) buf ∧ Leaves frames bufs t t') t held := by
  unfold lendBuffer
  simp only [Cmd.wp_bind, Cmd.wp_get, Cmd.wp_ite, Cmd.wp_pure]
  constructor
  · intro hpos
    apply Cmd.wp_mono (takeBuffer_holds h t.outLen)
    intro v t₁ held₁ h
    obtain ⟨hlen, h₁, hs₁⟩ := h
    apply Cmd.wp_mono (setOutput_holds h₁ (some v) ?_)
    · intro _ t₂ held₂ h
      obtain ⟨h₂, hheap⟩ := h
      refine ⟨h₂, ?_⟩
      unfold Leaves
      rw [hheap]
      exact hs₁
    · rintro _ ⟨⟩
      exact ⟨List.mem_cons_self, by omega⟩
  · intro _
    exact ⟨h, .refl _⟩

/-- After the call nothing is lent, and what was lent is still held. -/
theorem grabInto_holds (h : t.Holds held frames (buf.toList ++ bufs) buf) :
    Cmd.wp (rustEnv egl) (grabInto buf) (fun r t' held' =>
      Answered frames (buf.toList ++ bufs) none r t' held' ∧ Leaves frames bufs t t') t held := by
  have hunlent : ∀ c ∈ bufs, c ∈ buf.toList ++ bufs ∧ ¬ Lent buf c.base := by
    intro c hc
    refine ⟨List.mem_append_right _ hc, ?_⟩
    rintro ⟨v, rfl, heq⟩
    have hnodup := (List.nodup_append.mp (List.map_append ▸ h.nodup)).2.1
    rw [Option.toList_some, List.singleton_append, List.map_cons, List.nodup_cons] at hnodup
    exact hnodup.1 (heq ▸ List.mem_map_of_mem hc)
  have hreset {t₁ : DrmTap} {held₁ : Multiset Resource} {r : ℤ × FrameInfo}
      (ha : Answered frames (buf.toList ++ bufs) buf r t₁ held₁) :
      Cmd.wp (rustEnv egl) (ffi (drmtapSetOutputBuffer none)) (fun _ t' held' =>
        Answered frames (buf.toList ++ bufs) none r t' held' ∧
          t'.machine.heap = t₁.machine.heap) t₁ held₁ := by
    rcases ha with ⟨hneg, h₁⟩ | ⟨h0, h₁, hg⟩
    · apply Cmd.wp_mono (setOutput_holds h₁ none (by simp))
      intro _ t₂ held₂ h
      obtain ⟨h₂, hheap⟩ := h
      exact ⟨.inl ⟨hneg, h₂⟩, hheap⟩
    · apply Cmd.wp_mono (setOutput_holds h₁ none (by simp))
      intro _ t₂ held₂ h
      obtain ⟨h₂, hheap⟩ := h
      exact ⟨.inr ⟨h0, h₂, hheap ▸ hg⟩, hheap⟩
  unfold grabInto
  rw [Cmd.wp_bind]
  apply Cmd.wp_mono (grab_holds h .mapped .zeroed)
  intro r t₁ held₁ h
  obtain ⟨ha, hs₁⟩ := h
  have hleaves₁ := hs₁ bufs hunlent
  rw [Cmd.wp_bind]
  apply Cmd.wp_mono (hreset ha)
  intro _ t₂ held₂ h
  obtain ⟨ha₂, hheap⟩ := h
  have hleaves₂ : Leaves frames bufs t t₂ := by
    unfold Leaves
    rw [hheap]
    exact hleaves₁
  rw [Cmd.wp_ite]
  constructor
  · intro h
    obtain ⟨hspace, _⟩ := h
    have hneg : r.1 < 0 := by
      rw [hspace]
      decide
    have h₂ := (ha₂.resolve_right fun hok => hneg.ne hok.1).2
    apply Cmd.wp_mono (grab_holds h₂ .mapped r.2)
    intro r' t₃ held₃ h
    obtain ⟨ha₃, hs₃⟩ := h
    exact ⟨ha₃, hleaves₂.trans (hs₃ bufs fun c hc => ⟨List.mem_append_right _ hc, not_lent_none⟩)⟩
  · intro _
    exact ⟨ha₂, hleaves₂⟩

theorem Copied.shown {copy : Option Slice} {h : Heap} (hc : Copied raw h copy)
    (hg : raw.Granted h) :
    (⟨raw, copy⟩ : TapFrame).Backed ∧ (⟨raw, copy⟩ : TapFrame).Shows h := by
  cases copy with
  | none =>
    refine ⟨⟨by simp, ?_⟩, ?_, ?_⟩
    · intro _ d hd
      exact ⟨hg.len d hd, hg.mapped d hd (hc d hd)⟩
    · intro v hv
      obtain ⟨d, hd, rfl⟩ := Option.map_eq_some_iff.mp (Option.some.inj hv)
      exact ⟨d, hd, hg.live d hd, rfl, hg.len d hd, fun _ _ => rfl⟩
    · simp [TapFrame.data]
  | some b =>
    obtain ⟨hlen, d, hdata, hread⟩ := hc
    have hview : (⟨raw, some b⟩ : TapFrame).data =
        some (some ⟨b.base, raw.stride.toNat * raw.height.toNat⟩) := if_pos hlen
    refine ⟨⟨?_, by simp⟩, ?_, ?_⟩
    · rintro _ ⟨⟩
      exact hlen
    · intro v hv
      obtain rfl := Option.some.inj (Option.some.inj (hview.symm.trans hv))
      exact ⟨d, hdata, hg.live d hdata, rfl, hg.len d hdata, hread⟩
    · simp [hview, hdata]

theorem Same.frames_tail {f : FrameInfo} {h h' : Heap} (hs : Same (f :: frames) bufs h h') :
    Same frames bufs h h' :=
  hs.mono (fun _ => List.mem_cons_of_mem f) fun _ => id

/-- The wrapper's `grab` and `grab_desc` copy what is not the frame's own. -/
theorem grabbed_holds {r : ℤ × FrameInfo} (ha : Answered frames bufs none r t held)
    (h0 : ¬ r.1 < 0) :
    Cmd.wp (rustEnv egl) (copyUnowned r.2 none) (fun c t' held' =>
      Returned frames bufs t' held' (.ok ⟨r.2, c.1⟩) ∧ Leaves frames bufs t t') t held := by
  obtain ⟨-, hh, hg⟩ := ha.resolve_left fun hneg => h0 hneg.1
  apply Cmd.wp_mono (copyUnowned_holds none hh hg (by simp))
  intro c t' held' h
  obtain ⟨hh', hs, hg', hcopy, hleft⟩ := h
  rw [ite_self] at hleft
  rw [hleft] at hh'
  exact ⟨⟨hh', hcopy.shown hg'⟩, hs.frames_tail⟩

theorem grab_returned (h : t.Holds held frames bufs none) :
    Cmd.wp (rustEnv egl) grab (fun r t' held' =>
      Returned frames bufs t' held' r ∧ Leaves frames bufs t t') t held := by
  unfold grab
  rw [Cmd.wp_bind]
  apply Cmd.wp_mono (grab_holds h .grab .zeroed)
  intro r t₁ held₁ h
  obtain ⟨ha, hs⟩ := h
  have hs₁ := hs bufs fun c hc => ⟨hc, not_lent_none⟩
  simp only [Cmd.wp_ite, Cmd.wp_bind, Cmd.wp_pure]
  constructor
  · intro hneg
    exact ⟨(ha.resolve_right fun hok => hneg.ne hok.1).2, hs₁⟩
  · intro h0
    apply Cmd.wp_mono (grabbed_holds ha h0)
    intro c t₂ held₂ h
    obtain ⟨hret, hs₂⟩ := h
    exact ⟨hret, hs₁.trans hs₂⟩

theorem grabDesc_returned (h : t.Holds held frames bufs none) (zeroed : DmabufDesc) :
    Cmd.wp (rustEnv egl) (grabDesc zeroed) (fun r t' held' =>
      Returned frames bufs t' held' (r.map Prod.fst) ∧ Leaves frames bufs t t') t held := by
  have hgrab : Cmd.wp (rustEnv egl) (ffi ((GrabEntry.desc zeroed).run .zeroed)) _ t held :=
    grab_holds h (.desc zeroed) .zeroed
  have hdesc := wp_ffi.mp hgrab
  unfold GrabEntry.run at hdesc
  rw [Cmd.wp_bind] at hdesc
  unfold grabDesc
  rw [Cmd.wp_bind, wp_ffi]
  apply Cmd.wp_mono hdesc
  intro r m₁ held₁ h
  obtain ⟨ha, hs⟩ := h
  have hs₁ := hs bufs fun c hc => ⟨hc, not_lent_none⟩
  simp only [Cmd.wp_ite, Cmd.wp_bind, Cmd.wp_pure]
  constructor
  · intro hneg
    exact ⟨(ha.resolve_right fun hok => hneg.ne hok.1).2, hs₁⟩
  · intro h0
    apply Cmd.wp_mono (grabbed_holds ha h0)
    intro c t₂ held₂ h
    obtain ⟨hret, hs₂⟩ := h
    exact ⟨hret, hs₁.trans hs₂⟩

/-- What is not copied over is kept for the next grab. -/
theorem copyOut_holds (h : t.Holds held (raw :: frames) (buf.toList ++ bufs) none)
    (hg : raw.Granted t.machine.heap)
    (hapart : ∀ d v, raw.data = some d → buf = some v → d.base ≠ v.base) :
    Cmd.wp (rustEnv egl) (copyOut raw buf) (fun owned t' held' =>
      Returned frames bufs t' held' (.ok ⟨raw, owned⟩) ∧ Leaves frames bufs t t') t held := by
  unfold copyOut
  rw [Cmd.wp_bind]
  apply Cmd.wp_mono (copyUnowned_holds buf h hg hapart)
  intro r t₁ held₁ h
  obtain ⟨hh, hs, hg, hcopy, hleft⟩ := h
  obtain ⟨copy, left⟩ := r
  cases left with
  | none => exact ⟨⟨hh, hcopy.shown hg⟩, hs.frames_tail⟩
  | some buf' =>
    cases copy with
    | some b => simp at hleft
    | none =>
      rw [Cmd.wp_bind]
      apply Cmd.wp_mono (keepBuffer_holds hh)
      intro _ t₂ held₂ h
      obtain ⟨hh₂, hs₂⟩ := h
      have hg₂ : raw.Granted t₂.machine.heap := by
        refine ⟨fun d hd => ?_, hg.len, hg.mapped⟩
        obtain ⟨p, hp, hmap⟩ := hg.mapped d hd (hcopy d hd)
        exact ((hh₂.sound.intact.valid raw List.mem_cons_self p hp).mapped d hmap).1.live
      have hcopied : Copied raw t₂.machine.heap none := hcopy
      exact ⟨⟨hh₂, hcopied.shown hg₂⟩, (hs.trans hs₂).frames_tail⟩

/-- The pixels are in the buffer that was lent, which is long enough, or are copied out. -/
theorem claimPixels_holds (h : t.Holds held (raw :: frames) (buf.toList ++ bufs) none)
    (hg : raw.Granted t.machine.heap) :
    Cmd.wp (rustEnv egl) (claimPixels raw buf) (fun r t' held' =>
      ∃ owned, r = .ok owned ∧ Returned frames bufs t' held' (.ok ⟨raw, owned⟩) ∧
        Leaves frames bufs t t') t held := by
  have hout (hapart : ∀ d v, raw.data = some d → buf = some v → d.base ≠ v.base) :
      Cmd.wp (rustEnv egl) (copyOut raw buf) (fun owned t' held' =>
        ∃ owned', (Except.ok owned : Except ℤ (Option Slice)) = .ok owned' ∧
          Returned frames bufs t' held' (.ok ⟨raw, owned'⟩) ∧ Leaves frames bufs t t') t held := by
    apply Cmd.wp_mono (copyOut_holds h hg hapart)
    intro owned t' held' hret
    exact ⟨owned, rfl, hret⟩
  unfold claimPixels
  cases buf with
  | none =>
    rw [Cmd.wp_bind]
    exact hout (by simp)
  | some v =>
    simp only [Cmd.wp_ite, Cmd.wp_bind, Cmd.wp_pure]
    constructor
    · intro hbase
      obtain ⟨d, hd, hbase⟩ := Option.map_eq_some_iff.mp hbase
      have hfits : raw.stride.toNat * raw.height.toNat ≤ v.len := by
        obtain ⟨B, hB, hsize⟩ := h.whole (v := v) (by simp)
        obtain ⟨B', hB', hlen⟩ := hg.live d hd
        rw [hbase] at hB'
        obtain rfl : B = B' := Option.some.inj (hB.symm.trans hB')
        exact (hg.len d hd).trans (hlen.trans hsize.le)
      constructor
      · intro hlong
        exact absurd hlong hfits.not_gt
      · intro _
        have hcopied : Copied raw t.machine.heap (some v) :=
          ⟨hfits, d, hd, fun i _ => by rw [hbase]⟩
        exact ⟨some v, rfl, ⟨h, hcopied.shown hg⟩, .refl _⟩
    · intro hbase
      apply hout
      rintro d _ hd ⟨⟩ heq
      exact hbase (by rw [hd, Option.map_some, heq])

theorem grabMapped_returned (h : t.Holds held frames bufs none) :
    Cmd.wp (rustEnv egl) grabMapped (fun r t' held' =>
      Returned frames bufs t' held' r ∧ Leaves frames bufs t t') t held := by
  unfold grabMapped
  rw [Cmd.wp_bind]
  apply Cmd.wp_mono (lendBuffer_holds h)
  intro buf t₁ held₁ h
  obtain ⟨h₁, hs₁⟩ := h
  rw [Cmd.wp_bind]
  apply Cmd.wp_mono (grabInto_holds h₁)
  intro r t₂ held₂ h
  obtain ⟨ha, hs₂⟩ := h
  have hleaves := hs₁.trans hs₂
  simp only [Cmd.wp_ite, Cmd.wp_bind, Cmd.wp_pure]
  constructor
  · intro hneg
    have h₂ := (ha.resolve_right fun hok => hneg.ne hok.1).2
    cases buf with
    | none => exact ⟨h₂, hleaves⟩
    | some v =>
      apply Cmd.wp_mono (vecDrop_holds h₂ not_lent_none)
      intro _ t₃ held₃ h
      obtain ⟨h₃, hs₃⟩ := h
      exact ⟨h₃, hleaves.trans hs₃⟩
  · intro h0
    obtain ⟨-, h₂, hg⟩ := ha.resolve_left fun hneg => h0 hneg.1
    apply Cmd.wp_mono (claimPixels_holds h₂ hg)
    intro _ t₃ held₃ h
    obtain ⟨owned, heq, hret, hs₃⟩ := h
    subst heq
    obtain ⟨h₃, hshown⟩ := hret
    exact ⟨⟨⟨h₃.sound, h₃.user⟩, hshown⟩, hleaves.trans hs₃⟩

/-- A frame that is dropped gives back what the library holds for it, and its buffer. -/
theorem drop_holds {f : TapFrame}
    (h : t.Holds held (f.raw :: frames) (f.owned.toList ++ bufs) none) :
    Cmd.wp (rustEnv egl) f.drop (fun _ t' held' =>
      t'.Holds held' frames bufs none ∧ Leaves frames bufs t t') t held := by
  unfold TapFrame.drop
  rw [Cmd.wp_bind]
  apply Cmd.wp_mono (release_holds h)
  intro _ t₁ held₁ h
  obtain ⟨h₁, hs₁⟩ := h
  have hleaves : Leaves frames bufs t t₁ := hs₁.mono (fun _ => id) fun _ => List.mem_append_right _
  cases howned : f.owned with
  | none =>
    rw [howned] at h₁
    exact ⟨h₁, hleaves⟩
  | some buf =>
    rw [howned] at h₁
    apply Cmd.wp_mono (keepBuffer_holds h₁)
    intro _ t₂ held₂ h
    obtain ⟨h₂, hs₂⟩ := h
    exact ⟨h₂, hleaves.trans hs₂⟩

end Grabs

end DrmTap

end Drmtap
