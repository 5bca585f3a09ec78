import Drmtap.GrabLedger

/-! The buffers a grab works with, and its conversation with the helper. -/
namespace Drmtap

open Memory Effect

namespace Machine

/-- The socket to the helper. -/
def sockets (m : Machine) : Multiset Resource := fdOf m.ctx.helperFd

/-- Blocks that neither a conversion writes nor the context keeps pixels in. -/
def Private (m : Machine) (b : ℕ) : Prop :=
  ¬ m.Out b ∧ ∀ s, m.ctx.pixelBuf = some s → s.base ≠ b

/-- The buffers of a context are there, and its memo holds a width. -/
structure Ready (m : Machine) : Prop where
  buffered : m.Buffered
  pixel : ∀ s, m.ctx.pixelBuf = some s → m.heap.Whole s ∧ ¬ m.Out s.base
  memo : m.ctx.MemoOk

end Machine

/-- The two contexts have the same buffers. -/
structure SameBuffers (c c' : Ctx) : Prop where
  userOut : c'.userOut = c.userOut
  deswizzleBuf : c'.deswizzleBuf = c.deswizzleBuf
  pixelBuf : c'.pixelBuf = c.pixelBuf

section Buffers
variable {m m' : Machine}

theorem SameBuffers.out (h : SameBuffers m.ctx m'.ctx) (b : ℕ) : m'.Out b ↔ m.Out b := by
  rw [Machine.Out, Machine.Out, h.userOut, h.deswizzleBuf]

theorem SameBuffers.isPrivate (h : SameBuffers m.ctx m'.ctx) (b : ℕ) :
    m'.Private b ↔ m.Private b := by
  rw [Machine.Private, Machine.Private, h.out, h.pixelBuf]

/-- A change of the context, and of blocks that keep their sizes. -/
theorem Machine.Ready.of_same (hm : m.Ready) (hc : SameBuffers m.ctx m'.ctx)
    (hmemo : m'.ctx.MemoOk) (hlive : ∀ s, m.heap.Live s → ¬ m.Private s.base → m'.heap.Live s)
    (hwhole : ∀ s, m.heap.Whole s → ¬ m.Private s.base → m'.heap.Whole s) : m'.Ready where
  buffered :=
    { user := fun u hu => by
        rw [hc.userOut] at hu
        exact hlive u (hm.buffered.user u hu) fun hp => hp.1 (.inl ⟨u, hu, rfl⟩)
      shadow := fun s hs => by
        rw [hc.deswizzleBuf] at hs
        exact hwhole s (hm.buffered.shadow s hs) fun hp => hp.1 (.inr ⟨s, hs, rfl⟩)
      apart := by
        rw [hc.userOut, hc.deswizzleBuf]
        exact hm.buffered.apart }
  pixel s hs := by
    rw [hc.pixelBuf] at hs
    rw [hc.out]
    obtain ⟨hw, ho⟩ := hm.pixel s hs
    exact ⟨hwhole s hw fun hp => hp.2 s hs rfl, ho⟩
  memo := hmemo

theorem Machine.Ready.of_ctx (hm : m.Ready) {c : Ctx} (hc : SameBuffers m.ctx c)
    (hmemo : c.MemoOk) : ({ m with ctx := c } : Machine).Ready :=
  hm.of_same hc hmemo (fun _ h _ => h) fun _ h _ => h

theorem Machine.Ready.private_next (hm : m.Ready) {b : ℕ} (hb : m.heap.next ≤ b) :
    m.Private b := by
  constructor
  · intro ho
    exact absurd (hm.buffered.out_lt ho) (not_lt.mpr hb)
  · rintro s hs rfl
    exact absurd (hm.pixel s hs).1.live.lt_next (not_lt.mpr hb)

theorem Machine.Ready.alloc (hm : m.Ready) (size : ℕ) (g : ℕ → UInt8) :
    ({ m with heap := (m.heap.alloc size g).2 } : Machine).Ready :=
  hm.of_same ⟨rfl, rfl, rfl⟩ hm.memo (fun _ h _ => h.alloc size g) fun _ h _ =>
    h.congr (Heap.alloc_block_of_lt h.live.lt_next _ _)

theorem Machine.Ready.release (hm : m.Ready) {b : ℕ} (hb : m.Private b) :
    ({ m with heap := m.heap.release b } : Machine).Ready := by
  have hne : ∀ s : Slice, ¬ m.Private s.base → s.base ≠ b := fun s hs he => hs (he ▸ hb)
  exact hm.of_same ⟨rfl, rfl, rfl⟩ hm.memo (fun s h hp => h.release (hne s hp)) fun s h hp =>
    h.congr (Heap.release_block (hne s hp))

theorem Machine.Ready.filled (hm : m.Ready) {h : Heap} {b : ℕ} {A : ℕ → Prop} {V : ℕ → UInt8}
    (hf : Filled m.heap h b A V) : ({ m with heap := h } : Machine).Ready :=
  hm.of_same ⟨rfl, rfl, rfl⟩ hm.memo (fun _ hs _ => hf.live hs) fun _ hs _ => hf.whole hs

theorem Machine.Ready.converts (hm : m.Ready) (hc : Converts m m') : m'.Ready where
  buffered := hc.buffered
  pixel s hs := by
    rw [hc.ctx] at hs
    obtain ⟨hw, ho⟩ := hm.pixel s hs
    exact ⟨hw.congr (hc.keep _ hw.live.lt_next ho), fun h => ho (hc.out _ hw.live.lt_next h)⟩
  memo := by
    rw [hc.ctx]
    exact hm.memo

end Buffers

/-- The context was changed beside its buffers, its socket and its memo. -/
structure Tunes (m m' : Machine) : Prop where
  heap : m'.heap = m.heap
  buffers : SameBuffers m.ctx m'.ctx
  helperFd : m'.ctx.helperFd = m.ctx.helperFd
  memo : m.ctx.MemoOk → m'.ctx.MemoOk

instance : IsPreorder Machine Tunes where
  refl _ := ⟨rfl, ⟨rfl, rfl, rfl⟩, rfl, id⟩
  trans _ _ _ h₁ h₂ :=
    ⟨h₂.heap.trans h₁.heap,
      ⟨h₂.buffers.userOut.trans h₁.buffers.userOut,
        h₂.buffers.deswizzleBuf.trans h₁.buffers.deswizzleBuf,
        h₂.buffers.pixelBuf.trans h₁.buffers.pixelBuf⟩,
      h₂.helperFd.trans h₁.helperFd, h₂.memo ∘ h₁.memo⟩

section Tunes
variable {m m' : Machine}

theorem Scans.tunes (h : Scans m m') : Tunes m m' where
  heap := h.heap
  buffers := by
    rw [h.ctx]
    exact ⟨rfl, rfl, rfl⟩
  helperFd := by rw [h.ctx]
  memo := h.memo

theorem Tunes.ready (h : Tunes m m') (hm : m.Ready) : m'.Ready :=
  hm.of_same h.buffers (h.memo hm.memo) (fun _ hs _ => h.heap ▸ hs) fun _ hs _ => h.heap ▸ hs

theorem Tunes.sockets (h : Tunes m m') : m'.sockets = m.sockets := by
  rw [Machine.sockets, h.helperFd, Machine.sockets]

end Tunes

/-! The helper -/

/-- A conversation with the helper may replace it; the rest of what is held stays. -/
structure Talks (m m' : Machine) : Prop where
  heap : m'.heap = m.heap
  ctx : m'.ctx = { m.ctx with helperFd := m'.ctx.helperFd, helperPid := m'.ctx.helperPid }

instance : IsPreorder Machine Talks where
  refl _ := ⟨rfl, rfl⟩
  trans _ _ _ h₁ h₂ := ⟨h₂.heap.trans h₁.heap, by rw [h₂.ctx, h₁.ctx]⟩

section Helper
variable {egl : Prop} {m : Machine} {rest : Multiset Resource}

theorem drmtapHelperSpawn_lib : Cmd.wp (libEnv egl .free) drmtapHelperSpawn
    (fun r m' held' => (r = 0 ∨ r < 0) ∧ Talks m m' ∧ held' = m'.sockets + rest)
    m (m.sockets + rest) := by
  unfold drmtapHelperSpawn
  simp only [Cmd.wp_bind, wp_getCtx, Cmd.wp_ite, Cmd.wp_pure]
  refine ⟨fun _ => ⟨.inl trivial, refl_of Talks m, trivial⟩, fun hfd => lib_take rfl trivial ?_⟩
  rintro (e | ⟨fd, pid⟩) -
  · exact ⟨.inr e.neg_lt_zero, refl_of Talks m, by simp [libLedger]⟩
  · refine ⟨.inl rfl, ⟨rfl, rfl⟩, ?_⟩
    have hnone : m.sockets = 0 := if_neg hfd
    have hnew : ({ m with ctx := m.ctx.withHelper fd pid } : Machine).sockets =
        {Resource.fd fd} := fdOf_natCast fd
    rw [hnone, hnew, zero_add]
    rfl

theorem hangUp_lib {g : WindowRule}
    (hg : 0 ≤ m.ctx.helperFd → g.allows (m.sockets + rest) (.close m.ctx.helperFd)) :
    Cmd.wp (libEnv egl g) (hangUp m.ctx.helperFd)
    (fun _ m' held' => Talks m m' ∧ m'.ctx.helperFd < 0 ∧ held' = rest) m (m.sockets + rest) := by
  unfold hangUp
  simp only [Cmd.wp_bind, Cmd.wp_ite, Cmd.wp_pure, wp_modifyCtx]
  constructor
  · intro hfd
    refine lib_quiet (send_quiet _ _) fun _ _ => ?_
    exact lib_close (hg hfd) rfl ⟨⟨rfl, rfl⟩, show (-1 : ℤ) < 0 by decide, rfl⟩
  · intro hfd
    have hnone : m.sockets = 0 := if_neg hfd
    exact ⟨refl_of Talks m, by omega, by rw [hnone, zero_add]⟩

/-- A helper that is stopped leaves no socket. -/
theorem drmtapHelperStop_closes {g : WindowRule}
    (hg : 0 ≤ m.ctx.helperFd → g.allows (m.sockets + rest) (.close m.ctx.helperFd)) :
    Cmd.wp (libEnv egl g) drmtapHelperStop
      (fun _ m' held' => Talks m m' ∧ m'.ctx.helperFd < 0 ∧ held' = rest) m (m.sockets + rest) := by
  unfold drmtapHelperStop
  simp only [Cmd.wp_bind, wp_getCtx, Cmd.wp_ite, Cmd.wp_pure, wp_modifyCtx]
  refine Cmd.wp_mono (hangUp_lib hg) ?_
  rintro _ m₁ held ⟨ht, hfd, rfl⟩
  have hpid : Talks m₁ { m₁ with ctx := m₁.ctx.withoutHelperPid } := ⟨rfl, rfl⟩
  exact ⟨fun _ => lib_quiet ⟨⟨rfl, fun _ => rfl⟩, id⟩ fun _ _ =>
    ⟨trans_of Talks ht hpid, hfd, rfl⟩, fun _ => ⟨ht, hfd, rfl⟩⟩

theorem drmtapHelperStop_lib : Cmd.wp (libEnv egl .free) drmtapHelperStop
    (fun _ m' held' => Talks m m' ∧ held' = m'.sockets + rest) m (m.sockets + rest) := by
  refine Cmd.wp_mono (drmtapHelperStop_closes fun _ => trivial) ?_
  rintro _ m' _ ⟨ht, hfd, rfl⟩
  have hnone : m'.sockets = 0 := if_neg (by omega)
  exact ⟨ht, by rw [hnone, zero_add]⟩

theorem trySend_lib (type : UInt16) {held : Multiset Resource} :
    Cmd.wp (libEnv egl .free) (trySend type) (fun _ m' held' => m' = m ∧ held' = held) m held := by
  unfold trySend
  simp only [Cmd.wp_bind, wp_getCtx]
  refine lib_quiet (send_quiet _ _) ?_
  rintro (e | n) - <;> exact ⟨rfl, rfl⟩

theorem sendCommand_lib (type : UInt16) {respawnError : ℤ → ℤ}
    (hneg : ∀ e, e < 0 → respawnError e < 0) : Cmd.wp (libEnv egl .free)
    (sendCommand type respawnError)
    (fun r m' held' => (r = 0 ∨ r < 0) ∧ Talks m m' ∧ held' = m'.sockets + rest)
    m (m.sockets + rest) := by
  have hio : (- EIO : ℤ) < 0 := by decide
  unfold sendCommand sendOrResend resend
  simp only [Cmd.wp_bind, Cmd.wp_ite, Cmd.wp_pure]
  refine Cmd.wp_mono drmtapHelperSpawn_lib ?_
  rintro r m₁ _ ⟨-, h₁, rfl⟩
  refine ⟨fun hr => ⟨.inr hr, h₁, rfl⟩, fun _ => ?_⟩
  refine Cmd.wp_mono (trySend_lib type) ?_
  rintro sent _ _ ⟨rfl, rfl⟩
  refine ⟨fun _ => ⟨.inl trivial, h₁, rfl⟩, fun _ => ?_⟩
  refine Cmd.wp_mono drmtapHelperStop_lib ?_
  rintro _ m₂ _ ⟨h₂, rfl⟩
  refine Cmd.wp_mono drmtapHelperSpawn_lib ?_
  rintro r m₃ _ ⟨-, h₃, rfl⟩
  have h : Talks m m₃ := trans_of Talks h₁ (trans_of Talks h₂ h₃)
  refine ⟨fun hr => ⟨.inr (hneg r hr), h, rfl⟩, fun _ => ?_⟩
  refine Cmd.wp_mono (trySend_lib type) ?_
  rintro sent _ _ ⟨rfl, rfl⟩
  refine ⟨?_, h, rfl⟩
  split
  · exact .inl rfl
  · exact .inr hio

/-- As `Talks`, where the bytes of a buffer may have been received. -/
structure Fetches (pixelBuf : Slice) (m m' : Machine) : Prop where
  heap : m'.heap = m.heap ∨
    ∃ l, l.length ≤ pixelBuf.len ∧ m.heap.store pixelBuf 0 l = some m'.heap
  ctx : m'.ctx = { m.ctx with helperFd := m'.ctx.helperFd, helperPid := m'.ctx.helperPid }

theorem Talks.fetches {m m' : Machine} (h : Talks m m') (pixelBuf : Slice) :
    Fetches pixelBuf m m' :=
  ⟨.inl h.heap, h.ctx⟩

theorem Fetches.after {pixelBuf : Slice} {m m' m'' : Machine} (h : Talks m m')
    (hf : Fetches pixelBuf m' m'') : Fetches pixelBuf m m'' :=
  ⟨h.heap ▸ hf.heap, by rw [hf.ctx, h.ctx]⟩

theorem Fetches.filled {pixelBuf : Slice} {m m' : Machine} (h : Fetches pixelBuf m m')
    (hp : m.heap.Live pixelBuf) : ∃ A V, Filled m.heap m'.heap pixelBuf.base A V := by
  rcases h.heap with he | ⟨l, hl, he⟩
  · rw [he]
    exact ⟨_, fun _ => 0, .refl _ _ _⟩
  · obtain ⟨h', he', V, hf⟩ := Heap.store_live hp (zero_add l.length ▸ hl)
    obtain rfl := Option.some.inj (he.symm.trans he')
    exact ⟨_, V, hf⟩

theorem Fetches.ready {pixelBuf : Slice} {m m' : Machine} (h : Fetches pixelBuf m m')
    (hp : m.heap.Live pixelBuf) (hm : m.Ready) : m'.Ready := by
  obtain ⟨A, V, hf⟩ := h.filled hp
  have hc : SameBuffers m.ctx m'.ctx := by
    rw [h.ctx]
    exact ⟨rfl, rfl, rfl⟩
  have hmemo : m'.ctx.MemoOk := by
    rw [h.ctx]
    exact hm.memo
  exact (hm.filled hf).of_ctx hc hmemo

theorem drainPixels_lib (fd : ℤ) (dataSize : ℕ) {held : Multiset Resource} :
    Cmd.wp (libEnv egl .free) (drainPixels fd dataSize) (fun _ m' held' => m' = m ∧ held' = held)
      m held := by
  have hr : Cmd.Reads LibQuiet (drainPixels fd dataSize) := by
    apply Cmd.Reads.loop
    intro remaining
    apply Cmd.Reads.ite (.pure _)
    apply Cmd.Reads.bind (.call (recv_quiet _ _))
    rintro (e | got)
    · exact .pure _
    · exact .ite (.pure _) (.pure _)
  exact hr.wp (libEnv_quiet fun _ h => h) m held

theorem receivePixels_lib (fd : ℤ) {pixelBuf : Slice} {bufSize dataSize : ℕ}
    (hp : m.heap.Live pixelBuf) (hsize : bufSize ≤ pixelBuf.len) :
    Cmd.wp (libEnv egl .free) (receivePixels fd pixelBuf bufSize dataSize)
      (fun r m' held' => (r < 0 ∨ r = 0 ∧ dataSize ≤ bufSize) ∧ Fetches pixelBuf m m' ∧
        held' = m'.sockets + rest) m (m.sockets + rest) := by
  have hneg : (- EIO : ℤ) < 0 ∧ (- ENOSPC : ℤ) < 0 := by decide
  have hsame : Fetches pixelBuf m m := (refl_of Talks m).fetches pixelBuf
  unfold receivePixels
  simp only [Cmd.wp_ite, Cmd.wp_pure, Cmd.wp_bind]
  refine ⟨fun _ => ⟨.inl hneg.1, hsame, trivial⟩, fun _ => ⟨fun _ => ?_, fun hfit => ?_⟩⟩
  · refine Cmd.wp_mono (drainPixels_lib fd dataSize) ?_
    rintro drained _ _ ⟨rfl, rfl⟩
    refine ⟨fun _ => ⟨.inl hneg.2, hsame, rfl⟩, fun _ => ?_⟩
    refine Cmd.wp_mono drmtapHelperStop_lib ?_
    rintro _ m₁ _ ⟨ht, rfl⟩
    exact ⟨.inl hneg.1, ht.fetches pixelBuf, rfl⟩
  · refine Cmd.wp_mono (wireRecvAll_lib fd dataSize) ?_
    rintro (_ | pixels) _ _ ⟨hlen, rfl, rfl⟩
    · exact ⟨.inl hneg.1, hsame, rfl⟩
    · have hl : pixels.length ≤ pixelBuf.len := by
        rw [hlen pixels rfl]
        omega
      obtain ⟨h', he, -⟩ := Heap.store_live hp (zero_add pixels.length ▸ hl)
      simp only [Cmd.wp_bind, wp_onHeap, Cmd.wp_pure, Option.map_eq_some_iff]
      exact ⟨(), h', ⟨h', he, rfl⟩, .inr ⟨trivial, by omega⟩, ⟨.inr ⟨pixels, hl, he⟩, rfl⟩, rfl⟩

/-- The outcome of a grab by the helper: a descriptor, or pixels that fit. -/
theorem drmtapHelperGrab_lib {pixelBuf : Slice} {bufSize : ℕ} (hp : m.heap.Live pixelBuf)
    (hsize : bufSize ≤ pixelBuf.len) :
    Cmd.wp (libEnv egl .free) (drmtapHelperGrab pixelBuf bufSize)
      (fun r m' held' => Fetches pixelBuf m m' ∧
        (r.1 < 0 ∧ held' = m'.sockets + rest ∨
          r.1 = 0 ∧ held' = fdOf r.2.dmabufFd + (m'.sockets + rest) ∧
            (r.2.dmabufFd < 0 → r.2.wire.dataSize.toNat ≤ bufSize)))
      m (m.sockets + rest) := by
  have hio : (- EIO : ℤ) < 0 := by decide
  unfold drmtapHelperGrab
  simp only [Cmd.wp_bind, Cmd.wp_ite, Cmd.wp_pure, wp_getCtx]
  refine Cmd.wp_mono (sendCommand_lib cmdGrab (fun _ h => h)) ?_
  rintro ret m₁ _ ⟨-, h₁, rfl⟩
  refine ⟨fun hr => ⟨h₁.fetches pixelBuf, .inl ⟨hr, rfl⟩⟩, fun _ => ?_⟩
  have hp₁ : m₁.heap.Live pixelBuf := h₁.heap ▸ hp
  unfold receiveGrab
  rw [Cmd.wp_bind]
  refine Cmd.wp_mono (wireRecvFd_lib _ sizeofGrabWire) ?_
  rintro (_ | ⟨bytes, dmabufFd⟩) _ _ ⟨rfl, rfl⟩
  · exact ⟨h₁.fetches pixelBuf, .inl ⟨hio, by simp⟩⟩
  · simp only [Cmd.wp_ite, Cmd.wp_pure, Cmd.wp_bind, Option.elim_some]
    refine ⟨fun _ => ⟨fun hfd => ⟨h₁.fetches pixelBuf, .inl ⟨hio, ?_⟩⟩, fun hfd =>
      ⟨h₁.fetches pixelBuf, .inr ⟨trivial, trivial, fun h => absurd h hfd⟩⟩⟩, fun _ => ?_⟩
    · rw [fdOf, if_neg (by omega), zero_add]
    · refine closeFd_lib (fun _ => trivial) rfl ?_
      refine Cmd.wp_mono (receivePixels_lib _ hp₁ hsize) ?_
      rintro r m₂ _ ⟨hr, h₂, rfl⟩
      refine ⟨.after h₁ h₂, hr.imp (fun h => ⟨h, rfl⟩) fun h => ⟨h.1, ?_, fun _ => h.2⟩⟩
      rw [fdOf, if_neg (by decide), zero_add]

end Helper

end Drmtap
