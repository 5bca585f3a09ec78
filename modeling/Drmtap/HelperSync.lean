import Drmtap.HelperStream

/-! The library and its helper stay in step, over any sequence of calls. -/
namespace Drmtap

open Memory Effect

section Receive
variable {m : Machine} {s : Stream} {fd : ℤ} {head : List UInt8}

/-- A call ends in step with the helper. -/
def Ends (s : Stream) (m' : Machine) (s' : Stream) : Prop := Synced m' s' ∧ s'.again = s.again

theorem Ends.of_clean {m' : Machine} {s' : Stream} (h : s'.Clean) (ha : s'.again = s.again) :
    Ends s m' s' := ⟨.inr h, ha⟩

theorem Ends.trans {s₁ s₂ : Stream} {m₂ : Machine} (h : Ends s₁ m₂ s₂)
    (ha : s₁.again = s.again) : Ends s m₂ s₂ := ⟨h.1, h.2.trans ha⟩

theorem drainPixels_spec {l : List UInt8} (h : s.Owes l) :
    Cmd.wp benignEnv (drainPixels fd l.length) (fun r m' s' => m' = m ∧ s'.again = s.again ∧
      (r = true → s'.Clean)) m s := by
  unfold drainPixels
  refine Cmd.wp_loop (fun remaining m' s' => m' = m ∧ s'.again = s.again ∧
    ∃ l', s'.Owes l' ∧ l'.length = remaining) ⟨rfl, rfl, l, h, rfl⟩ ?_
  intro remaining m' s' ⟨hm, ha, l', ho, hlen⟩
  rw [Cmd.wp_ite]
  constructor
  · intro h0
    obtain rfl : l' = [] := List.eq_nil_of_length_eq_zero (hlen.trans h0)
    exact ⟨hm, ha, fun _ => ho.clean⟩
  · intro _
    rw [Cmd.wp_bind]
    apply recv_spec
    · intro e _ _
      exact ⟨hm, ha, by simp⟩
    · intro e _
      exact ⟨hm, ha, by simp⟩
    · exact ⟨hm, ha, by simp⟩
    · intro b hne _ _ _
      simp only [hne, if_false]
      exact ⟨hm, ha, _, ho.received b, by rw [List.length_drop, hlen]⟩

/-- A drain that counts what it asks for is in step when it gets that. -/
theorem drainCursor_spec {l : List UInt8} (h : s.Owes l)
    (hd : s.closed = true ∨ l.length ≤ s.drain) :
    Cmd.wp benignEnv (drainCursor fd l.length) (fun _ m' s' => m' = m ∧ s'.again = s.again ∧
      s'.Clean) m s := by
  unfold drainCursor
  refine Cmd.wp_loop (fun rem m' s' => m' = m ∧ s'.again = s.again ∧
    ∃ l', s'.Owes l' ∧ l'.length = rem ∧ (s'.closed = true ∨ rem ≤ s'.drain))
    ⟨rfl, rfl, l, h, rfl, hd⟩ ?_
  intro rem m' s' ⟨hm, ha, l', ho, hlen, hd'⟩
  have hdraining : rem ≠ 0 → s'.closed = true ∨ (s'.Draining ∧ s'.pending.length = rem) := by
    intro hrem
    rcases ho with hc | ⟨-, hp⟩
    · exact .inl hc
    · rcases hd' with hc | hle
      · exact .inl hc
      · right
        constructor
        · constructor
          · rw [hp]
            rintro rfl
            exact hrem hlen.symm
          · rwa [hp, hlen]
        · rw [hp, hlen]
  rw [Cmd.wp_ite]
  constructor
  · intro h0
    obtain rfl : l' = [] := List.eq_nil_of_length_eq_zero (hlen.trans h0)
    exact ⟨hm, ha, ho.clean⟩
  · intro hrem
    rw [Cmd.wp_bind]
    apply recv_spec
    · intro e _ hint
      refine ⟨hm, ha, .inl ?_⟩
      rcases hdraining hrem with hc | ⟨hdr, -⟩
      · exact hc
      · exact hint hdr
    · intro e _
      exact ⟨hm, ha, .inl rfl⟩
    · exact ⟨hm, ha, .inl rfl⟩
    · intro b hne _ _ hfull
      simp only [hne, if_false]
      have hgot : s'.closed = true ∨ (b.length = min rem 4096 ∧ rem ≤ s'.drain) := by
        rcases hdraining hrem with hc | ⟨hdr, hp⟩
        · exact .inl hc
        · rcases hfull hdr with hc | hb
          · exact .inl hc
          · exact .inr ⟨by omega, hp.symm.trans_le hdr.2⟩
      rcases hgot with hc | ⟨hb, hle⟩
      · exact ⟨hm, ha, List.replicate (rem - min rem 4096) 0, .inl hc,
          List.length_replicate, .inl hc⟩
      · refine ⟨hm, ha, _, ho.received b, by rw [List.length_drop, hlen, hb], .inr ?_⟩
        exact (Nat.sub_le _ _).trans hle

theorem store_spec {buf : Slice} {bytes : List UInt8} {Q : Unit → Machine → Stream → Prop}
    (hlive : m.heap.Live buf) (hlen : bytes.length ≤ buf.len)
    (hQ : ∀ h, Q () { m with heap := h } s) :
    Cmd.wp benignEnv (onHeap fun h => (h.store buf 0 bytes).map ((), ·)) Q m s := by
  obtain ⟨h, hst, -⟩ := Heap.store_live hlive (show 0 + bytes.length ≤ buf.len by omega)
  rw [wp_onHeap]
  exact ⟨(), h, by rw [heap_machine, hst]; rfl, hQ h⟩

theorem receivePixels_spec {buf : Slice} {bufSize : ℕ} (h : s.OwesBody cmdGrab head)
    (hlive : m.heap.Live buf) (hbuf : bufSize ≤ buf.len) :
    Cmd.wp benignEnv (receivePixels fd buf bufSize (replyBody cmdGrab head))
      (fun _ m' s' => Ends s m' s') m s := by
  unfold receivePixels
  rw [Cmd.wp_ite]
  constructor
  · intro h0
    exact .of_clean (h.clean h0) rfl
  · intro _
    rw [Cmd.wp_ite]
    constructor
    · intro _
      obtain ⟨body, ho, hlen, -⟩ := h
      rw [Cmd.wp_bind, ← hlen]
      apply Cmd.wp_mono (drainPixels_spec ho)
      intro drained m' s' ⟨hm, ha, hclean⟩
      rw [Cmd.wp_ite]
      constructor
      · intro hd
        exact .of_clean (hclean hd) ha
      · intro _
        rw [Cmd.wp_bind]
        apply Cmd.wp_mono drmtapHelperStop_spec
        intro _ m'' s'' ⟨_, hfd, ha'⟩
        exact ⟨.inl hfd, ha'.trans ha⟩
    · intro hfits
      rw [Cmd.wp_bind]
      apply Cmd.wp_mono (recvBody_spec h)
      intro r m' s' ⟨hm, ha, hclean, hbytes⟩
      subst hm
      cases r with
      | none => exact .of_clean hclean ha
      | some bytes =>
        rw [Cmd.wp_bind]
        apply store_spec hlive
        · rw [hbytes bytes rfl]
          omega
        · intro h
          exact .of_clean hclean ha

theorem receiveGrab_spec {buf : Slice} {bufSize : ℕ} (h : s.OwesReply cmdGrab)
    (hlive : m.heap.Live buf) (hbuf : bufSize ≤ buf.len) :
    Cmd.wp benignEnv (receiveGrab fd buf bufSize) (fun _ m' s' => Ends s m' s') m s := by
  unfold receiveGrab
  rw [Cmd.wp_bind]
  apply Cmd.wp_mono (wireRecvFd_spec h)
  intro r m' s' ⟨hm, ha, hr⟩
  subst hm
  rcases hr with ⟨rfl, hclean⟩ | ⟨bytes, dmabufFd, rfl, hbody⟩
  · exact .of_clean hclean ha
  · have hpayload : replyBody cmdGrab bytes = (GrabWire.decode bytes).payload := rfl
    simp only [Cmd.wp_ite]
    constructor
    · intro hflag
      have hclean : s'.Clean := hbody.clean (by rw [hpayload, GrabWire.payload, if_pos hflag])
      exact ⟨fun _ => .of_clean hclean ha, fun _ => .of_clean hclean ha⟩
    · intro hflag
      have hsize : replyBody cmdGrab bytes = (GrabWire.decode bytes).dataSize.toNat := by
        rw [hpayload, GrabWire.payload, if_neg hflag]
      rw [Cmd.wp_bind]
      apply closeFd_spec
      rw [Cmd.wp_bind, ← hsize]
      apply Cmd.wp_mono (receivePixels_spec hbody hlive hbuf)
      intro _ m'' s'' hends
      exact hends.trans ha

theorem Stream.wp_malloc {size : ℕ} {Q : Option Slice → Machine → Stream → Prop}
    (hnone : s.closed = true → Q none m s)
    (hsome : ∀ g, Q (some (m.heap.alloc size g).1) { m with heap := (m.heap.alloc size g).2 } s) :
    Cmd.wp benignEnv (malloc size) Q m s := by
  rw [Drmtap.wp_malloc]
  constructor
  · trivial
  constructor
  · intro t ⟨hmove, hbenign⟩
    cases hmove
    exact hnone (hbenign rfl)
  · intro g t ⟨hmove, _⟩
    cases hmove
    exact hsome g

theorem Stream.wp_free {b : Slice} {Q : Unit → Machine → Stream → Prop} (hb : m.heap.Whole b)
    (hQ : Q () { m with heap := m.heap.release b.base } s) :
    Cmd.wp benignEnv (free b) Q m s := by
  rw [Drmtap.wp_free]
  constructor
  · trivial
  · intro r t ⟨hmove, _⟩
    cases hmove
    exact ⟨_, hb.free, hQ⟩

theorem receiveCursorPixels_spec {type : UInt16} {cursor : CursorInfo} (htype : type ≠ cmdGrab)
    (h : s.OwesBody type head) :
    Cmd.wp benignEnv (receiveCursorPixels fd (replyBody type head) cursor)
      (fun _ m' s' => Ends s m' s') m s := by
  unfold receiveCursorPixels
  rw [Cmd.wp_ite]
  constructor
  · intro hbig
    obtain ⟨body, ho, hlen, hdrain⟩ := h
    have hd : replyDrain type head = replyBody type head := if_pos ⟨htype, hbig⟩
    rw [Cmd.wp_bind, ← hlen]
    apply Cmd.wp_mono (drainCursor_spec ho (hdrain.imp_right fun h => by rw [h, hd, hlen]))
    intro _ m' s' ⟨_, ha, hclean⟩
    exact .of_clean hclean ha
  · intro _
    rw [Cmd.wp_bind]
    apply Stream.wp_malloc
    · intro hc
      exact .of_clean (.inl hc) rfl
    · intro g
      have hwhole := m.heap.alloc_whole (replyBody type head) g
      simp only [Cmd.wp_bind]
      apply Cmd.wp_mono (recvBody_spec h)
      rintro r m' s' ⟨hm, ha, hclean, hbytes⟩
      subst hm
      cases r with
      | none =>
        rw [Cmd.wp_bind]
        apply Stream.wp_free hwhole
        exact .of_clean hclean ha
      | some bytes =>
        rw [Cmd.wp_bind]
        apply store_spec hwhole.live
        · exact (hbytes bytes rfl).le
        · intro h
          exact .of_clean hclean ha

theorem receiveCursor_spec {type : UInt16} {extended : Bool} (htype : type ≠ cmdGrab)
    (h : s.OwesBody type head) :
    Cmd.wp benignEnv (receiveCursor fd extended (CursorWire.decode head))
      (fun _ m' s' => Ends s m' s') m s := by
  have hbody : replyBody type head = (CursorWire.decode head).payload := if_neg htype
  unfold receiveCursor
  rw [Cmd.wp_bind, wp_modifyCtx, Cmd.wp_ite]
  constructor
  · intro hpix
    have hsize : replyBody type head = (CursorWire.decode head).dataSize.toNat := by
      rw [hbody, CursorWire.payload, if_pos hpix.1]
    rw [← hsize]
    exact receiveCursorPixels_spec htype h
  · intro hpix
    refine .of_clean (h.clean ?_) rfl
    rw [hbody, CursorWire.payload]
    split
    next hv =>
      have hle : ¬ (0 : UInt32) < (CursorWire.decode head).dataSize := fun h0 => hpix ⟨hv, h0⟩
      exact Nat.le_zero.mp (not_lt.mp hle)
    next => rfl

end Receive

section Cursor
variable {m : Machine} {s : Stream}

theorem cursorUnanswered_spec {extended : Bool} (hc : s.closed = true) (ha : s.again = false) :
    Cmd.wp benignEnv (cursorUnanswered extended)
      (fun _ m' s' => Synced m' s' ∧ s'.again = false) m s := by
  unfold cursorUnanswered
  rw [Cmd.wp_bind, wp_getCtx, Cmd.wp_ite]
  constructor
  · intro _
    rw [Cmd.wp_bind]
    apply Cmd.wp_mono drmtapHelperStop_spec
    intro _ m₁ s₁ ⟨_, hfd, hagain⟩
    rw [Cmd.wp_bind]
    apply drmtapHelperSpawn_spec
    · intro hle
      exact absurd hle (not_le.mpr hfd)
    · intro _ e
      rw [if_pos e.neg_lt_zero]
      exact ⟨.inl hfd, rfl⟩
    · intro fd pid
      rw [if_neg (lt_irrefl 0)]
      exact ⟨.inr (Stream.clean_fresh _), hagain.trans ha⟩
  · intro _
    exact ⟨.inr (.inl hc), ha⟩

theorem getCursorOnce_spec (hs : Synced m s) (ha : s.again = false) :
    Cmd.wp benignEnv getCursorOnce (fun _ m' s' => Synced m' s' ∧ s'.again = false) m s := by
  unfold getCursorOnce
  rw [Cmd.wp_bind, wp_getCtx]
  generalize (!m.ctx.helperNoCursor2) = extended
  -- the command and the size of the head it is answered with go together
  obtain ⟨type, htype⟩ : ∃ type, type = if extended then cmdGetCursor2 else cmdGetCursor :=
    ⟨_, rfl⟩
  have hmem : type ∈ commandTypes := by
    rw [htype]
    cases extended <;> decide
  have hne : type ≠ cmdGrab := by
    rw [htype]
    cases extended <;> decide
  have hhead : CursorWire.size extended = replyHead type := by
    rw [htype]
    cases extended <;> rfl
  simp only [← htype, hhead]
  rw [Cmd.wp_bind]
  apply Cmd.wp_mono (sendCommand_spec hmem (fun _ _ => by decide) hs ha)
  intro r m₁ s₁ ⟨_, ha₁, hr⟩
  rw [Cmd.wp_ite]
  constructor
  · intro hneg
    rcases hr with ⟨h0, -⟩ | ⟨-, hsync⟩
    · exact absurd h0 hneg.ne
    · exact ⟨hsync, ha₁⟩
  · intro hpos
    rcases hr with ⟨-, ho⟩ | ⟨hneg, -⟩
    · rw [Cmd.wp_bind, wp_getCtx, Cmd.wp_bind]
      apply Cmd.wp_mono (recvHead_spec ho)
      intro r m₂ s₂ ⟨_, ha₂, hr⟩
      rcases hr with ⟨rfl, hc⟩ | ⟨bytes, rfl, hbody⟩
      · exact cursorUnanswered_spec hc (ha₂.trans ha₁)
      · rw [Cmd.wp_bind]
        apply Cmd.wp_mono (receiveCursor_spec hne hbody)
        intro _ m₃ s₃ hends
        exact ⟨hends.1, hends.2.trans (ha₂.trans ha₁)⟩
    · exact absurd hneg hpos

theorem drmtapHelperGetCursor_spec (hs : Synced m s) (ha : s.again = false) :
    Cmd.wp benignEnv drmtapHelperGetCursor (fun _ m' s' => Synced m' s' ∧ s'.again = false)
      m s := by
  refine Cmd.wp_loop (fun _ m' s' => Synced m' s' ∧ s'.again = false) ⟨hs, ha⟩ ?_
  intro _ m₁ s₁ ⟨hs₁, ha₁⟩
  apply Cmd.wp_mono (getCursorOnce_spec hs₁ ha₁)
  intro r _ _ h
  cases r <;> exact h

theorem drmtapHelperGrab_spec {buf : Slice} {bufSize : ℕ} (hs : Synced m s)
    (ha : s.again = false) (hlive : m.heap.Live buf) (hbuf : bufSize ≤ buf.len) :
    Cmd.wp benignEnv (drmtapHelperGrab buf bufSize)
      (fun _ m' s' => Synced m' s' ∧ s'.again = false) m s := by
  unfold drmtapHelperGrab
  rw [Cmd.wp_bind]
  apply Cmd.wp_mono (sendCommand_spec (by decide) (fun _ h => h) hs ha)
  intro r m₁ s₁ ⟨hheap, ha₁, hr⟩
  rw [Cmd.wp_ite]
  constructor
  · intro hneg
    rcases hr with ⟨h0, -⟩ | ⟨-, hsync⟩
    · exact absurd h0 hneg.ne
    · exact ⟨hsync, ha₁⟩
  · intro hpos
    rcases hr with ⟨-, ho⟩ | ⟨hneg, -⟩
    · rw [Cmd.wp_bind, wp_getCtx]
      apply Cmd.wp_mono (receiveGrab_spec ho (hheap ▸ hlive) hbuf)
      intro _ m₂ s₂ hends
      exact ⟨hends.1, hends.2.trans ha₁⟩
    · exact absurd hneg hpos

end Cursor

/-- What happens on a context that has a helper: a grab into a buffer as large as it says, a
look at the cursor, or anything that lets the connection be. -/
inductive Called (C : Stream → (o : Op) → Ans o → Prop) : Machine × Stream → Machine × Stream → Prop
  where
  | grab {m m' : Machine} {s s' : Stream} {buf : Slice} {bufSize : ℕ} {r : ℤ × HelperGrabResult}
      (hlive : m.heap.Live buf) (hbuf : bufSize ≤ buf.len)
      (hr : Cmd.Runs (streamEnv.restrict C) (drmtapHelperGrab buf bufSize) m s r m' s') :
      Called C (m, s) (m', s')
  | getCursor {m m' : Machine} {s s' : Stream} {r : ℤ × CursorInfo}
      (hr : Cmd.Runs (streamEnv.restrict C) drmtapHelperGetCursor m s r m' s') :
      Called C (m, s) (m', s')
  | other {m m' : Machine} {s : Stream} (hfd : m'.ctx.helperFd = m.ctx.helperFd) :
      Called C (m, s) (m', s)

theorem Called.synced {t t' : Machine × Stream} (h : Called Benign t t')
    (ht : Synced t.1 t.2 ∧ t.2.again = false) : Synced t'.1 t'.2 ∧ t'.2.again = false := by
  cases h with
  | grab hlive hbuf hr => exact Cmd.wp_runs (drmtapHelperGrab_spec ht.1 ht.2 hlive hbuf) hr
  | getCursor hr => exact Cmd.wp_runs (drmtapHelperGetCursor_spec ht.1 ht.2) hr
  | other hfd => exact ⟨ht.1.imp_left hfd.trans_lt, ht.2⟩

theorem Called.synced_run {m : Machine} {t : Machine × Stream} (hm : m.ctx.helperFd < 0)
    (h : Relation.ReflTransGen (Called Benign) (m, .fresh false) t) :
    Synced t.1 t.2 ∧ t.2.again = false := by
  induction h with
  | refl => exact ⟨.inl hm, rfl⟩
  | tail _ hcall ih => exact hcall.synced ih

/-- After any calls, the next command finds a stream with nothing of an earlier one in it, and
that is all any call ever sends a command on. -/
theorem helper_stays_in_sync (m : Machine) (t : Machine × Stream) (hm : m.ctx.helperFd < 0)
    (h : Relation.ReflTransGen (Called Benign) (m, .fresh false) t) :
    Synced t.1 t.2 ∧ ¬ Fault benignEnv t.2 (drmtapHelperGetCursor t.1) ∧
      ∀ buf bufSize, t.1.heap.Live buf → bufSize ≤ buf.len →
        ¬ Fault benignEnv t.2 (drmtapHelperGrab buf bufSize t.1) := by
  obtain ⟨hs, ha⟩ := Called.synced_run hm h
  refine ⟨hs, Prog.wp_safe (drmtapHelperGetCursor_spec hs ha), fun buf bufSize hlive hbuf => ?_⟩
  exact Prog.wp_safe (drmtapHelperGrab_spec hs ha hlive hbuf)

/-- A peer that answers one CMD_GET_CURSOR2 for CRTC 0, to a library that is given `mem`. -/
def cursorPeer (w : CursorWire) (pixels : List UInt8) (mem : Option (ℕ → UInt8)) (s : Stream) :
    (o : Op) → Option (Ans o × Stream)
  | .helperSpawn => some (.ok (3, 7), .fresh s.again)
  | .send _ b =>
    if s = .fresh false ∧ b = (wireCmd cmdGetCursor2 0).encode then
      some (.ok b.length, { Stream.fresh false with pending := w.encode true ++ pixels })
    else none
  | .recv _ len =>
    if s.pending.take len ≠ [] then
      some (.ok (s.pending.take len), s.received (s.pending.take len))
    else none
  | .malloc _ => some (mem, s)
  | _ => none

theorem cursorPeer_moves {w : CursorWire} {pixels : List UInt8} {mem : Option (ℕ → UInt8)}
    (hbody : pixels.length = w.payload) (hsmall : w.payload ≤ maxCursorBytes) (s : Stream) (o : Op)
    (r : Ans o) (t : Stream) (h : cursorPeer w pixels mem s o = some (r, t)) :
    streamEnv.step s o r t := by
  unfold cursorPeer at h
  split at h
  next =>
    obtain ⟨rfl, rfl⟩ := Prod.mk.inj (Option.some.inj h)
    exact .spawned 3 7
  next fd b =>
    split at h
    next hcmd =>
      obtain ⟨rfl, rfl⟩ := hcmd
      obtain ⟨rfl, rfl⟩ := Prod.mk.inj (Option.some.inj h)
      have htype : (HelperCmd.decode (wireCmd cmdGetCursor2 0).encode).type = cmdGetCursor2 := by
        decide
      have hpay : replyBody cmdGetCursor2 (w.encode true) = w.payload := by
        rw [replyBody, if_neg (by decide), ← List.append_nil (w.encode true),
          CursorWire.decode_encode]
      have hdrain : replyDrain cmdGetCursor2 (w.encode true) = 0 :=
        if_neg fun hbig => absurd (hpay ▸ hbig.2) (not_lt.mpr hsmall)
      refine .sent fd _ _ le_rfl rfl _ ?_
      rw [List.take_length]
      have hans : Served (.fresh false) (wireCmd cmdGetCursor2 0).encode _ :=
        .answers (w.encode true) pixels (by decide) (by decide) (by decide)
          (by rw [htype]; simp; rfl) (by rw [htype, hpay, hbody])
      rw [htype, hdrain] at hans
      exact hans
    next => cases h
  next fd len =>
    split at h
    next hne =>
      obtain ⟨rfl, rfl⟩ := Prod.mk.inj (Option.some.inj h)
      exact .recv fd len _ _ (.bytes _ hne (List.length_take_le _ _) (List.take_prefix _ _))
    next => cases h
  next =>
    obtain ⟨rfl, rfl⟩ := Prod.mk.inj (Option.some.inj h)
    exact .malloc _ _
  next => cases h

theorem cursorPeer_benign {w : CursorWire} {pixels : List UInt8} {g : ℕ → UInt8} (s : Stream)
    (o : Op) (r : Ans o) (t : Stream) (h : cursorPeer w pixels (some g) s o = some (r, t)) :
    Benign s o r := by
  unfold cursorPeer at h
  split at h
  next =>
    obtain ⟨rfl, rfl⟩ := Prod.mk.inj (Option.some.inj h)
    trivial
  next fd b =>
    split at h
    next =>
      obtain ⟨rfl, rfl⟩ := Prod.mk.inj (Option.some.inj h)
      exact fun _ _ => .inr rfl
    next => cases h
  next fd len =>
    split at h
    next =>
      obtain ⟨rfl, rfl⟩ := Prod.mk.inj (Option.some.inj h)
      exact fun _ => .inr List.length_take
    next => cases h
  next =>
    obtain ⟨rfl, rfl⟩ := Prod.mk.inj (Option.some.inj h)
    exact fun hnone => by cases hnone
  next => cases h

/-- A context whose helper has answered a cursor query. -/
def Machine.queried : Machine where
  ctx := { (Ctx.opened "i915" 0).withHelper 3 7 with helperCursor2Ok := true }
  heap := .empty

theorem queried_hidden : Relation.ReflTransGen (Called Benign)
    (.opened "i915", .fresh false) (.queried, .fresh false) := by
  refine .single (.getCursor (r := (0, CursorInfo.ofWire .zero true)) ?_)
  refine Cmd.exec_runs (E := benignEnv) (h := cursorPeer .zero [] (some fun _ => 0)) (n := 2)
    (fun s o r t he => ⟨cursorPeer_moves rfl (by decide) s o r t he,
      cursorPeer_benign s o r t he⟩) rfl

theorem helper_stays_in_sync_hidden : Synced .queried (.fresh false) ∧
    ¬ Fault benignEnv (Stream.fresh false) (drmtapHelperGetCursor .queried) ∧
      ∀ buf bufSize, Machine.queried.heap.Live buf → bufSize ≤ buf.len →
        ¬ Fault benignEnv (Stream.fresh false) (drmtapHelperGrab buf bufSize .queried) :=
  helper_stays_in_sync (.opened "i915") (.queried, .fresh false) (by decide) queried_hidden

/-- A cursor whose pixels find no memory is left in the stream. -/
theorem helper_out_of_sync : ¬ ∀ (m : Machine) (t : Machine × Stream), m.ctx.helperFd < 0 →
    Relation.ReflTransGen (Called fun _ _ _ => True) (m, .fresh false) t → Synced t.1 t.2 := by
  intro h
  have hrun : Called (fun _ _ _ => True) (.opened "i915", .fresh false)
      (.queried, { Stream.fresh false with pending := [1, 2, 3, 4] }) := by
    refine .getCursor (r := (- ENOMEM,
      CursorInfo.ofWire { CursorWire.zero with visible := 1, dataSize := 4 } true)) ?_
    refine Cmd.exec_runs (E := streamEnv.restrict fun _ _ _ => True) (n := 2)
      (h := cursorPeer { CursorWire.zero with visible := 1, dataSize := 4 } [1, 2, 3, 4] none)
      (fun s o r t he => ⟨cursorPeer_moves (by decide) (by decide) s o r t he, trivial⟩) rfl
  have hs := h (.opened "i915") _ (by decide) (.single hrun)
  rcases hs with hfd | hc | ⟨-, hp⟩
  · exact absurd hfd (by decide)
  · cases hc
  · cases hp

end Drmtap
