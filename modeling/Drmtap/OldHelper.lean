import Drmtap.HelperClient
import Drmtap.Lib.Total

/-! A helper that does not know CMD_GET_CURSOR2, and how the library comes to terms with it. -/
namespace Drmtap

open Memory Effect

/-- The connection to an old helper, and what is known of it. -/
structure Old where
  /-- what it has answered and the library has not received yet -/
  pending : List UInt8
  closed : Bool
  /-- how often it was started -/
  spawned : ℕ
  /-- the cursor that it told last -/
  said : Option (CursorWire × List UInt8)
  /-- the grabs that it has answered, the last one first -/
  grabs : List (List UInt8 × List UInt8)

namespace Old

/-- No helper yet. -/
def start : Old := ⟨[], true, 0, none, []⟩

def respawn (s : Old) : Old := { s with pending := [], closed := false, spawned := s.spawned + 1 }

def left (s : Old) (l : List UInt8) : Old := { s with pending := l }

end Old

/-- It answers a grab, or a cursor in the older of the two shapes; at anything else it hangs up. -/
inductive OldAnswers (s : Old) (bytes : List UInt8) : Old → Prop
  | grab (head body : List UInt8) (hcmd : wireCmdValid (HelperCmd.decode bytes))
      (htype : (HelperCmd.decode bytes).type = cmdGrab) (hhead : head.length = sizeofGrabWire)
      (hbody : body.length = (GrabWire.decode head).payload) :
      OldAnswers s bytes { s with pending := head ++ body, grabs := (head, body) :: s.grabs }
  | cursor (w : CursorWire) (pixels : List UInt8) (hcmd : wireCmdValid (HelperCmd.decode bytes))
      (htype : (HelperCmd.decode bytes).type = cmdGetCursor) (hpixels : pixels.length = w.payload)
      (hsmall : w.payload ≤ maxCursorBytes) :
      OldAnswers s bytes
        { s with pending := w.encode false ++ pixels, said := some (w, pixels) }
  | hangsUp (h : ¬ (wireCmdValid (HelperCmd.decode bytes) ∧
        (HelperCmd.decode bytes).type ∈ [cmdGrab, cmdGetCursor])) :
      OldAnswers s bytes { s with closed := true }

/-- Some of what is pending, or the end of the stream. -/
inductive OldGives (s : Old) (len : ℕ) : List UInt8 → Old → Prop
  | bytes (b : List UInt8) (hne : b ≠ []) (hlen : b.length ≤ len) (hp : b <+: s.pending) :
      OldGives s len b (s.left (s.pending.drop b.length))
  | ended (hp : s.pending = []) : OldGives s len [] s

inductive OldMoves (s : Old) : (o : Op) → Ans o → Old → Prop
  | spawned (fd pid : ℕ) : OldMoves s .helperSpawn (.ok (fd, pid)) s.respawn
  | reaped : OldMoves s .helperReap () s
  | closed (fd : ℤ) : OldMoves s (.close fd) () s
  | sent (fd : ℤ) (b : List UInt8) (t : Old) (ho : s.closed = false) (ht : OldAnswers s b t) :
      OldMoves s (.send fd b) (.ok b.length) t
  | refused (fd : ℤ) (b : List UInt8) (e : Errno) (hc : s.closed = true) :
      OldMoves s (.send fd b) (.error e) s
  | recv (fd : ℤ) (len : ℕ) (b : List UInt8) (t : Old) (h : OldGives s len b t) :
      OldMoves s (.recv fd len) (.ok b) t
  | recvmsg (fd : ℤ) (len : ℕ) (b : List UInt8) (control : List ControlBlock) (t : Old)
      (h : OldGives s len b t) (hone : Message.fds ⟨b, control, false⟩ = [] ∨
        ∃ fd, Message.fds ⟨b, control, false⟩ = [fd]) :
      OldMoves s (.recvmsg fd len) (.ok ⟨b, control, false⟩) t
  | malloc (size : ℕ) (g : ℕ → UInt8) : OldMoves s (.malloc size) (some g) s
  | free (addr : Slice) : OldMoves s (.free addr) () s

/-- A command may be sent when there is nothing left of the answers to earlier ones. To receive
where there is nothing to come would be to wait for good. -/
def oldLegal (s : Old) : Op → Prop
  | .send _ _ => s.closed = true ∨ s.pending = []
  | .recv _ _ | .recvmsg _ _ => s.closed = true ∨ s.pending ≠ []
  | _ => True

/-- Where starts and whole sends succeed, no call is interrupted and there is memory. -/
abbrev oldEnv : Env where
  State := Old
  legal := oldLegal
  step := OldMoves

/-! Calls -/

section Calls
variable {m : Machine} {s : Old} {fd : ℤ} {α : Type}

theorem old_close {Q : Unit → Machine → Old → Prop} (h : Q () m s) :
    Cmd.total oldEnv (sys (.close fd)) Q m s := by
  apply Cmd.total_call trivial
  intro _ s' hs
  cases hs
  exact h

theorem old_closeFd {Q : Unit → Machine → Old → Prop} (h : Q () m s) :
    Cmd.total oldEnv (closeFd fd) Q m s := by
  unfold closeFd
  exact Cmd.total_ite (fun _ => old_close h) fun _ => Cmd.total_pure h

theorem old_closeAll {Q : Unit → Machine → Old → Prop} (fds : List ℕ) (h : Q () m s) :
    Cmd.total oldEnv (closeAll fds) Q m s := by
  induction fds with
  | nil => exact Cmd.total_pure h
  | cons fd fds ih =>
    apply Cmd.total_bind
    exact old_close ih

theorem old_getCtx {Q : Ctx → Machine → Old → Prop} (h : Q m.ctx m s) :
    Cmd.total oldEnv getCtx Q m s := ⟨h, h⟩

theorem old_modifyCtx {f : Ctx → Ctx} {Q : Unit → Machine → Old → Prop}
    (h : Q () { m with ctx := f m.ctx } s) : Cmd.total oldEnv (modifyCtx f) Q m s := ⟨h, h⟩

theorem old_onHeap {f : Heap → Option (α × Heap)} {a : α} {h : Heap}
    {Q : α → Machine → Old → Prop} (hf : f m.heap = some (a, h))
    (hQ : Q a { m with heap := h } s) : Cmd.total oldEnv (onHeap f) Q m s := by
  constructor
  · exact wp_onHeap.mpr ⟨a, h, hf, hQ⟩
  · show Prog.halts oldEnv (onHeap f m) _ s
    unfold onHeap
    rw [show f (HasHeap.heap m) = some (a, h) from hf]
    exact hQ

theorem old_malloc {size : ℕ} {Q : Option Slice → Machine → Old → Prop}
    (h : ∀ g, Q (some (m.heap.alloc size g).1) { m with heap := (m.heap.alloc size g).2 } s) :
    Cmd.total oldEnv (malloc size) Q m s := by
  unfold malloc
  apply Cmd.total_bind
  apply Cmd.total_call trivial
  intro r s' hs
  cases hs with
  | malloc _ g => exact old_onHeap rfl (h g)

/-- What is to come is received whole. -/
theorem old_wireRecvAll {a l : List UInt8} {Q : Option (List UInt8) → Machine → Old → Prop}
    (hp : s.pending = a ++ l) (h : Q (some a) m (s.left l)) :
    Cmd.total oldEnv (wireRecvAll fd a.length) Q m s := by
  unfold wireRecvAll
  apply Cmd.total_loop (fun got m' s' => m' = m ∧ got.length ≤ a.length ∧
    got = a.take got.length ∧ s' = s.left (a.drop got.length ++ l)) fun got _ =>
      a.length - got.length
  · refine ⟨rfl, Nat.zero_le _, rfl, ?_⟩
    simp [Old.left, ← hp]
  intro got m' s' h
  obtain ⟨hm, hlen, hgot, hs⟩ := h
  subst hm hs
  apply Cmd.total_ite
  · intro hall
    have hwhole : got = a := by
      rw [hgot, List.take_of_length_le hall]
    apply Cmd.total_pure
    rw [hwhole, List.drop_length, List.nil_append]
    exact h
  · intro hless
    apply Cmd.total_bind
    have hne : a.drop got.length ≠ [] := by
      rw [ne_eq, List.drop_eq_nil_iff]
      omega
    apply Cmd.total_call
    · exact .inr (by simp [Old.left, hne])
    · intro r s' hs
      cases hs with
      | recv _ _ b _ hgives =>
        cases hgives with
        | ended hp => exact absurd hp (by simp [Old.left, hne])
        | bytes _ hb hle hpre =>
          have hpre : b <+: a.drop got.length ++ l := hpre
          have hble : b.length ≤ (a.drop got.length).length := by
            rw [List.length_drop]
            exact hle
          have hba : b = (a.drop got.length).take b.length :=
            (List.prefix_iff_eq_take.mp hpre).trans (List.take_append_of_le_length hble)
          dsimp only
          rw [if_neg hb]
          apply Cmd.total_pure
          refine ⟨⟨rfl, ?_, ?_, ?_⟩, ?_⟩
          · rw [List.length_append]
            rw [List.length_drop] at hble
            omega
          · rw [List.length_append, List.take_add, ← hgot, ← hba]
          · show s.left (List.drop b.length (a.drop got.length ++ l)) = _
            rw [List.drop_append_of_le_length hble, List.drop_drop, List.length_append]
          · rw [List.length_append]
            have := List.length_pos_iff.mpr hb
            omega

/-- Once it has hung up there is nothing to receive. -/
theorem old_wireRecvAll_closed {len : ℕ} {Q : Option (List UInt8) → Machine → Old → Prop}
    (hc : s.closed = true) (hp : s.pending = []) (hlen : 0 < len) (h : Q none m s) :
    Cmd.total oldEnv (wireRecvAll fd len) Q m s := by
  unfold wireRecvAll
  apply Cmd.total_loop (fun got m' s' => got = [] ∧ m' = m ∧ s' = s) fun _ _ => 0
  · exact ⟨rfl, rfl, rfl⟩
  intro got m' s' h
  obtain ⟨hgot, hm, hs⟩ := h
  subst hgot hm hs
  apply Cmd.total_ite
  · intro hle
    exact absurd hle (not_le.mpr hlen)
  · intro _
    apply Cmd.total_bind
    apply Cmd.total_call
    · exact .inl hc
    intro r s'' hs
    cases hs with
    | recv _ _ b _ hgives =>
      cases hgives with
      | ended _ => exact Cmd.total_pure h
      | bytes _ hb _ hpre =>
        rw [hp, List.prefix_nil] at hpre
        exact absurd hpre hb

/-! Grabs -/

theorem old_drainPixels {l : List UInt8} (hp : s.pending = l) :
    Cmd.total oldEnv (drainPixels fd l.length) (fun r m' s' =>
      r = true ∧ m' = m ∧ s' = s.left []) m s := by
  unfold drainPixels
  apply Cmd.total_loop (fun remaining m' s' => m' = m ∧ ∃ l', s' = s.left l' ∧
    l'.length = remaining) fun remaining _ => remaining
  · refine ⟨rfl, l, ?_, rfl⟩
    simp [Old.left, ← hp]
  intro remaining m' s' h
  obtain ⟨hm, l', hs, hlen⟩ := h
  subst hm hs
  apply Cmd.total_ite
  · intro hzero
    have hnil : l' = [] := List.eq_nil_of_length_eq_zero (hlen.trans hzero)
    subst hnil
    exact Cmd.total_pure ⟨rfl, rfl, rfl⟩
  · intro hrest
    have hne : l' ≠ [] := fun h => hrest (by rw [← hlen, h, List.length_nil])
    apply Cmd.total_bind
    apply Cmd.total_call
    · exact .inr hne
    intro r s' hs
    cases hs with
    | recv _ _ b _ hgives =>
      cases hgives with
      | ended hp => exact absurd hp hne
      | bytes _ hb _ hpre =>
        dsimp only
        rw [if_neg hb]
        apply Cmd.total_pure
        have hpos := List.length_pos_iff.mpr hb
        have hle : b.length ≤ l'.length := List.IsPrefix.length_le hpre
        refine ⟨⟨rfl, l'.drop b.length, rfl, ?_⟩, ?_⟩
        · rw [List.length_drop, hlen]
        · omega

/-- The record of a grab comes with one descriptor at most. -/
theorem old_wireRecvFd {head body : List UInt8} (hp : s.pending = head ++ body)
    (hhead : head.length = sizeofGrabWire) :
    Cmd.total oldEnv (wireRecvFd fd sizeofGrabWire) (fun r m' s' =>
      m' = m ∧ s' = s.left body ∧ ∃ passed, r = some (head, passed)) m s := by
  have hne : head ≠ [] := by
    intro h
    rw [h] at hhead
    exact absurd hhead (by decide)
  rw [wireRecvFd_eq]
  apply Cmd.total_bind
  apply Cmd.total_call
  · exact .inr (by simp [hp, hne])
  intro r s' hs
  cases hs with
  | recvmsg _ _ b control _ hgives hone =>
    cases hgives with
    | ended hnil => exact absurd (hp.symm.trans hnil) (by simp [hne])
    | bytes _ hb hlen hpre =>
      rw [hp] at hpre
      have hle : b.length ≤ head.length := hhead ▸ hlen
      have hbh : b = head.take b.length :=
        (List.prefix_iff_eq_take.mp hpre).trans (List.take_append_of_le_length hle)
      have hpending : (s.left (s.pending.drop b.length)).pending = head.drop b.length ++ body := by
        show s.pending.drop b.length = _
        rw [hp, List.drop_append_of_le_length hle]
      have hfew : ¬ (false = true ∨ 1 < (Message.fds ⟨b, control, false⟩).length) := by
        rcases hone with h | ⟨fd, h⟩ <;> simp [h]
      dsimp only
      rw [if_neg hb]
      apply Cmd.total_bind
      apply old_closeAll
      rw [if_neg hfew]
      apply Cmd.total_ite
      · intro _
        apply Cmd.total_bind
        have hrest : sizeofGrabWire - b.length = (head.drop b.length).length := by
          rw [List.length_drop, hhead]
        rw [hrest]
        apply old_wireRecvAll hpending
        apply Cmd.total_pure
        have hwhole : b ++ head.drop b.length = head := by
          conv_lhs => rw [hbh]
          rw [List.length_take_of_le hle, List.take_append_drop]
        exact ⟨rfl, rfl, _, by rw [hwhole]⟩
      · intro hfull
        have hall : head.length ≤ b.length := by omega
        have heq : b = head := by rw [hbh, List.take_of_length_le hall]
        apply Cmd.total_pure
        refine ⟨rfl, ?_, _, by rw [heq]⟩
        rw [heq, hp, List.drop_left]

/-- What comes of the payload of an answer: the pixels, or an error. -/
structure PixelsCame (ret : ℤ) (m : Machine) (buf : Slice) (bufSize : ℕ) (body : List UInt8) :
    Prop where
  empty : body = [] → ret = - EIO
  large : bufSize < body.length → ret = - ENOSPC
  whole : body ≠ [] → body.length ≤ bufSize → ret = 0 ∧
    m.heap.load buf 0 body.length = some body

theorem old_receivePixels {buf : Slice} {bufSize : ℕ} {body : List UInt8} (hp : s.pending = body)
    (hlive : m.heap.Live buf) (hbuf : bufSize ≤ buf.len) :
    Cmd.total oldEnv (receivePixels fd buf bufSize body.length) (fun r m' s' =>
      m'.ctx = m.ctx ∧ s' = s.left [] ∧ PixelsCame r m' buf bufSize body) m s := by
  unfold receivePixels
  apply Cmd.total_ite
  · intro hzero
    apply Cmd.total_pure
    have hnil : body = [] := List.eq_nil_of_length_eq_zero hzero
    subst hnil
    refine ⟨rfl, by simp [Old.left, ← hp], fun _ => rfl, fun h => ?_, fun h => absurd rfl h⟩
    exact absurd h (Nat.not_lt_zero _)
  intro hpos
  have hne : body ≠ [] := fun h => hpos (by rw [h, List.length_nil])
  apply Cmd.total_ite
  · intro hlarge
    apply Cmd.total_bind
    apply Cmd.total_mono (old_drainPixels hp)
    intro r m' s' h
    obtain ⟨hr, hm, hs⟩ := h
    subst hr hm hs
    apply Cmd.total_pure
    exact ⟨rfl, rfl, fun h => absurd h hne, fun _ => rfl, fun _ h => absurd hlarge (not_lt.mpr h)⟩
  · intro hfits
    apply Cmd.total_bind
    apply old_wireRecvAll (l := []) (by rw [hp, List.append_nil])
    obtain ⟨h, hstore, -⟩ := Heap.store_live hlive (show 0 + body.length ≤ buf.len by omega)
    apply Cmd.total_bind
    apply old_onHeap (a := ()) (h := h)
    · rw [hstore]
      rfl
    · apply Cmd.total_pure
      exact ⟨rfl, rfl, fun h => absurd h hne, fun h => absurd h hfits,
        fun _ _ => ⟨rfl, Heap.load_store hstore⟩⟩

/-- A grab tells of its own answer, and has the pixels of that one. -/
structure OldGrabbed (r : ℤ × HelperGrabResult) (m : Machine) (buf : Slice) (bufSize : ℕ)
    (head body : List UInt8) : Prop where
  wire : r.2.wire = GrabWire.decode head
  pixels : (GrabWire.decode head).flags &&& helperFlagHasDmabuf = 0 →
    PixelsCame r.1 m buf bufSize body

theorem old_receiveGrab {buf : Slice} {bufSize : ℕ} {head body : List UInt8}
    (hp : s.pending = head ++ body) (hhead : head.length = sizeofGrabWire)
    (hbody : body.length = (GrabWire.decode head).payload) (hlive : m.heap.Live buf)
    (hbuf : bufSize ≤ buf.len) :
    Cmd.total oldEnv (receiveGrab fd buf bufSize) (fun r m' s' =>
      m'.ctx = m.ctx ∧ s' = s.left [] ∧ OldGrabbed r m' buf bufSize head body) m s := by
  unfold receiveGrab
  apply Cmd.total_bind
  apply Cmd.total_mono (old_wireRecvFd hp hhead)
  intro r m' s' h
  obtain ⟨hm, hs, passed, hr⟩ := h
  subst hm hs hr
  dsimp only
  unfold GrabWire.payload at hbody
  apply Cmd.total_ite
  · intro hflag
    rw [if_pos hflag] at hbody
    have hnil : body = [] := List.eq_nil_of_length_eq_zero hbody
    subst hnil
    apply Cmd.total_ite
    · intro _
      exact Cmd.total_pure ⟨rfl, rfl, rfl, fun h => absurd h hflag⟩
    · intro _
      exact Cmd.total_pure ⟨rfl, rfl, rfl, fun h => absurd h hflag⟩
  · intro hflag
    rw [if_neg hflag] at hbody
    apply Cmd.total_bind
    apply old_closeFd
    apply Cmd.total_bind
    rw [← hbody]
    apply Cmd.total_mono (old_receivePixels (s := s.left body) rfl hlive hbuf)
    intro ret m'' s'' h
    obtain ⟨hctx, hs, hcame⟩ := h
    exact Cmd.total_pure ⟨hctx, hs, rfl, fun _ => hcame⟩

end Calls

/-! The state of the fallback -/

/-- What a context knows of its helper's commands. -/
def Ctx.latch (c : Ctx) : Bool × Bool × Bool :=
  (c.helperNoCursor2, c.helperCursor2Ok, c.helperCursor2Retried)

/-- How often the helper was started anew, by what the context knows. -/
def Ctx.respawns (c : Ctx) : ℕ := c.helperCursor2Retried.toNat + c.helperNoCursor2.toNat

/-- The context has never heard an extended reply, and falls back after a second try. -/
structure Ctx.Unheard (c : Ctx) : Prop where
  unknown : c.helperCursor2Ok = false
  latched : c.helperNoCursor2 = true → c.helperCursor2Retried = true

/-- A helper waits for a command. -/
structure Old.Ready (m : Machine) (s : Old) : Prop where
  fd : 0 ≤ m.ctx.helperFd
  alive : s.closed = false
  empty : s.pending = []
  count : s.spawned = 1 + m.ctx.respawns

/-- Between calls: there is no helper yet, or it waits for a command. -/
structure OldSynced (m : Machine) (s : Old) : Prop where
  helper : (m.ctx.helperFd < 0 ∧ s.spawned = 0 ∧ m.ctx.respawns = 0) ∨ s.Ready m
  unheard : m.ctx.Unheard

/-- Neither what is known nor what was told has changed. -/
structure OldKept (m : Machine) (s : Old) (m' : Machine) (s' : Old) : Prop where
  heap : m'.heap = m.heap
  latch : m'.ctx.latch = m.ctx.latch
  said : s'.said = s.said
  grabs : s'.grabs = s.grabs

theorem OldKept.refl (m : Machine) (s : Old) : OldKept m s m s := ⟨rfl, rfl, rfl, rfl⟩

theorem Ctx.Unheard.congr {c c' : Ctx} (h : c.Unheard) (hl : c'.latch = c.latch) : c'.Unheard := by
  simp only [Ctx.latch, Prod.mk.injEq] at hl
  obtain ⟨hno, hok, hre⟩ := hl
  exact ⟨hok.trans h.unknown, fun hyes => hre.trans (h.latched (hno ▸ hyes))⟩

theorem Ctx.respawns_congr {c c' : Ctx} (hl : c'.latch = c.latch) : c'.respawns = c.respawns := by
  simp only [Ctx.latch, Prod.mk.injEq] at hl
  simp [Ctx.respawns, hl]

theorem Ctx.respawns_le (c : Ctx) : c.respawns ≤ 2 := by
  unfold Ctx.respawns
  have h₁ := c.helperCursor2Retried.toNat_le
  have h₂ := c.helperNoCursor2.toNat_le
  omega

/-- A missing answer is counted. -/
theorem Ctx.noteNoAnswer_respawns {c : Ctx} (hno : c.helperNoCursor2 = false) :
    c.noteNoAnswer.respawns = c.respawns + 1 := by
  unfold Ctx.noteNoAnswer Ctx.respawns
  cases c.helperCursor2Retried <;> simp [hno]

theorem Ctx.noteNoAnswer_helperFd (c : Ctx) : c.noteNoAnswer.helperFd = c.helperFd := by
  unfold Ctx.noteNoAnswer
  split <;> rfl

theorem Ctx.Unheard.noteNoAnswer {c : Ctx} (h : c.Unheard) : c.noteNoAnswer.Unheard := by
  unfold Ctx.noteNoAnswer
  split
  next hretried => exact ⟨h.unknown, fun _ => hretried⟩
  next => exact ⟨h.unknown, fun _ => rfl⟩

theorem OldSynced.spawned_le {m : Machine} {s : Old} (h : OldSynced m s) : s.spawned ≤ 3 := by
  have hle := m.ctx.respawns_le
  rcases h.helper with ⟨-, hzero, -⟩ | hready
  · omega
  · have := hready.count
    omega

section Commands
variable {m : Machine} {s : Old}

/-- There is a helper, once it is needed. -/
theorem old_spawn (h : OldSynced m s) : Cmd.total oldEnv drmtapHelperSpawn (fun r m' s' =>
    r = 0 ∧ s'.Ready m' ∧ OldKept m s m' s') m s := by
  unfold drmtapHelperSpawn
  apply Cmd.total_bind
  apply old_getCtx
  apply Cmd.total_ite
  · intro hfd
    rcases h.helper with ⟨hneg, -⟩ | hready
    · exact absurd hfd (not_le.mpr hneg)
    · exact Cmd.total_pure ⟨rfl, hready, .refl m s⟩
  · intro hfd
    rcases h.helper with ⟨-, hzero, hnone⟩ | hready
    · apply Cmd.total_bind
      apply Cmd.total_call trivial
      intro r s' hs
      cases hs with
      | spawned fd pid =>
        apply Cmd.total_bind
        apply old_modifyCtx
        apply Cmd.total_pure
        refine ⟨rfl, ⟨Int.natCast_nonneg fd, rfl, rfl, ?_⟩, rfl, rfl, rfl, rfl⟩
        show s.spawned + 1 = 1 + m.ctx.respawns
        omega
    · exact absurd hready.fd hfd

theorem old_trySend (type : UInt16) (h : s.Ready m) : Cmd.total oldEnv (trySend type)
    (fun sent m' s' => sent = true ∧ m' = m ∧
      OldAnswers s (wireCmd type m.ctx.crtcId).encode s') m s := by
  unfold trySend
  apply Cmd.total_bind
  apply old_getCtx
  apply Cmd.total_bind
  apply Cmd.total_call
  · exact .inr h.empty
  intro r s' hs
  cases hs with
  | sent _ _ _ _ ht =>
    apply Cmd.total_pure
    exact ⟨by simp, rfl, ht⟩
  | refused _ _ _ hc =>
    rw [h.alive] at hc
    cases hc

/-- A command is sent whole, to a helper that waits for it. -/
theorem old_sendCommand (type : UInt16) (respawnError : ℤ → ℤ) (h : OldSynced m s) :
    Cmd.total oldEnv (sendCommand type respawnError) (fun r m' s' => r = 0 ∧ ∃ s₁ : Old,
      s₁.Ready m' ∧ OldKept m s m' s₁ ∧
        OldAnswers s₁ (wireCmd type m'.ctx.crtcId).encode s') m s := by
  unfold sendCommand
  apply Cmd.total_bind
  apply Cmd.total_mono (old_spawn h)
  intro r m₁ s₁ h
  obtain ⟨hr, hready, hkept⟩ := h
  subst hr
  apply Cmd.total_ite (fun hneg => absurd hneg (lt_irrefl _))
  intro _
  unfold sendOrResend
  apply Cmd.total_bind
  apply Cmd.total_mono (old_trySend type hready)
  intro sent m₂ s₂ h
  obtain ⟨hsent, hm, ht⟩ := h
  subst hsent hm
  apply Cmd.total_ite
  · intro _
    exact Cmd.total_pure ⟨rfl, s₁, hready, hkept, ht⟩
  · intro hno
    exact absurd rfl hno

/-- What an old helper makes of a command of this library. -/
theorem OldAnswers.of_type {type : UInt16} {crtc : UInt32} {t : Old}
    (h : OldAnswers s (wireCmd type crtc).encode t) :
    (type = cmdGrab ∧ ∃ head body, head.length = sizeofGrabWire ∧
      body.length = (GrabWire.decode head).payload ∧
      t = { s with pending := head ++ body, grabs := (head, body) :: s.grabs }) ∨
    (type = cmdGetCursor ∧ ∃ w pixels, pixels.length = w.payload ∧ w.payload ≤ maxCursorBytes ∧
      t = { s with pending := w.encode false ++ pixels, said := some (w, pixels) }) ∨
    (type ≠ cmdGrab ∧ type ≠ cmdGetCursor ∧ t = { s with closed := true }) := by
  have hdec : HelperCmd.decode (wireCmd type crtc).encode = wireCmd type crtc := by
    rw [← List.append_nil (HelperCmd.encode _), HelperCmd.decode_encode]
  cases h with
  | grab head body _ htype hhead hbody =>
    rw [hdec] at htype
    exact .inl ⟨htype, head, body, hhead, hbody, rfl⟩
  | cursor w pixels _ htype hpixels hsmall =>
    rw [hdec] at htype
    exact .inr (.inl ⟨htype, w, pixels, hpixels, hsmall, rfl⟩)
  | hangsUp hno =>
    rw [hdec] at hno
    refine .inr (.inr ⟨?_, ?_, rfl⟩)
    · intro ht
      subst ht
      exact hno ⟨by simp [wireCmdValid, wireCmd], by simp [wireCmd]⟩
    · intro ht
      subst ht
      exact hno ⟨by simp [wireCmdValid, wireCmd], by simp [wireCmd]⟩

/-- A grab is answered. -/
theorem old_helperGrab {buf : Slice} {bufSize : ℕ} (h : OldSynced m s) (hlive : m.heap.Live buf)
    (hbuf : bufSize ≤ buf.len) : Cmd.total oldEnv (drmtapHelperGrab buf bufSize)
      (fun r m' s' => OldSynced m' s' ∧ ∃ head body, s'.grabs = (head, body) :: s.grabs ∧
        OldGrabbed r m' buf bufSize head body) m s := by
  unfold drmtapHelperGrab
  apply Cmd.total_bind
  apply Cmd.total_mono (old_sendCommand cmdGrab id h)
  intro r m₁ s₁ h
  obtain ⟨hr, s₀, hready, hkept, ht⟩ := h
  subst hr
  apply Cmd.total_ite (fun hneg => absurd hneg (lt_irrefl _))
  intro _
  apply Cmd.total_bind
  apply old_getCtx
  rcases ht.of_type with ⟨-, head, body, hhead, hbody, hs⟩ | ⟨hne, -⟩ | ⟨hne, -⟩
  · subst hs
    have hlive₁ : m₁.heap.Live buf := by
      rw [hkept.heap]
      exact hlive
    apply Cmd.total_mono (old_receiveGrab rfl hhead hbody hlive₁ hbuf)
    intro r m₂ s₂ h
    obtain ⟨hctx, hs, hgrabbed⟩ := h
    subst hs
    refine ⟨⟨.inr ⟨?_, hready.alive, rfl, ?_⟩, ?_⟩, head, body, ?_, hgrabbed⟩
    · rw [hctx]
      exact hready.fd
    · rw [hctx]
      exact hready.count
    · rw [hctx]
      exact h.unheard.congr hkept.latch
    · exact congrArg ((head, body) :: ·) hkept.grabs
  · exact absurd hne (by decide)
  · exact absurd rfl hne

/-! Cursors -/

/-- What the helper told last, without provenance. -/
structure OldTold (r : ℤ × CursorInfo) (m : Machine) (s : Old) : Prop where
  ret : r.1 = 0
  told : ∃ w pixels, s.said = some (w, pixels) ∧
    r.2 = { CursorInfo.ofWire w false with pixels := r.2.pixels } ∧
    (pixels = [] ∧ r.2.pixels = none ∨ pixels ≠ [] ∧ ∃ block, r.2.pixels = some block ∧
      m.heap.Whole block ∧ m.heap.load block 0 block.len = some pixels)

/-- The reply to the older command, metadata and pixels. -/
theorem old_receiveCursor {fd : ℤ} {w : CursorWire} {pixels : List UInt8}
    (hpixels : pixels.length = w.payload) (hsmall : w.payload ≤ maxCursorBytes)
    (hp : s.pending = pixels) (hsaid : s.said = some (w, pixels)) :
    Cmd.total oldEnv (receiveCursor fd false { w with hotFromProperty := 0 })
      (fun r m' s' => m'.ctx = m.ctx ∧ s' = s.left [] ∧ OldTold r m' s') m s := by
  unfold receiveCursor
  apply Cmd.total_bind
  apply old_modifyCtx
  dsimp only
  unfold CursorWire.payload at hpixels hsmall
  apply Cmd.total_ite
  · intro h
    obtain ⟨hvisible, hpos⟩ := h
    have hvisible : w.visible ≠ 0 := hvisible
    rw [if_pos hvisible] at hpixels hsmall
    have hsize : 0 < w.dataSize.toNat := hpos
    unfold receiveCursorPixels
    apply Cmd.total_ite
    · intro hlarge
      have hlarge : maxCursorBytes < w.dataSize.toNat := hlarge
      omega
    intro _
    apply Cmd.total_bind
    apply old_malloc
    intro g
    apply Cmd.total_bind
    show Cmd.total oldEnv (wireRecvAll fd w.dataSize.toNat) _ _ s
    rw [← hpixels]
    apply old_wireRecvAll (l := []) (by rw [hp, List.append_nil])
    obtain ⟨h, hstore, -⟩ := Heap.store_live (Heap.alloc_live m.heap pixels.length g)
      (show 0 + pixels.length ≤ pixels.length by omega)
    apply Cmd.total_bind
    apply old_onHeap (a := ()) (h := h)
    · show ((m.heap.alloc pixels.length g).2.store _ 0 pixels).map _ = _
      rw [hstore]
      rfl
    · apply Cmd.total_pure
      refine ⟨rfl, rfl, rfl, w, pixels, hsaid, rfl, .inr ⟨?_, _, rfl, ?_, ?_⟩⟩
      · intro hnil
        rw [hnil] at hpixels
        exact hsize.ne hpixels
      · obtain ⟨-, -, hfilled⟩ := Heap.filled_store hstore
        exact hfilled.whole (Heap.alloc_whole m.heap pixels.length g)
      · exact Heap.load_store hstore
  · intro hnone
    have hnil : pixels = [] := by
      apply List.eq_nil_of_length_eq_zero
      rw [hpixels]
      split
      next hvisible =>
        by_contra hne
        exact hnone ⟨hvisible, Nat.pos_of_ne_zero hne⟩
      next => rfl
    subst hnil
    apply Cmd.total_pure
    refine ⟨rfl, ?_, rfl, w, [], hsaid, rfl, .inl ⟨rfl, rfl⟩⟩
    simp [Old.left, ← hp]

/-- A helper that has hung up is reaped. -/
theorem old_stop (hclosed : s.closed = true) : Cmd.total oldEnv drmtapHelperStop
    (fun _ m' s' => m'.ctx.helperFd < 0 ∧ m'.ctx.latch = m.ctx.latch ∧ s' = s) m s := by
  have hreap {m₁ : Machine} (hfd : m₁.ctx.helperFd < 0) (hlatch : m₁.ctx.latch = m.ctx.latch) :
      Cmd.total oldEnv (if 0 < m.ctx.helperPid then do
          sys .helperReap
          modifyCtx Ctx.withoutHelperPid
        else pure ())
        (fun _ m' s' => m'.ctx.helperFd < 0 ∧ m'.ctx.latch = m.ctx.latch ∧ s' = s) m₁ s := by
    apply Cmd.total_ite
    · intro _
      apply Cmd.total_bind
      apply Cmd.total_call trivial
      intro r s' hs
      cases hs
      apply old_modifyCtx
      exact ⟨hfd, hlatch, rfl⟩
    · intro _
      exact Cmd.total_pure ⟨hfd, hlatch, rfl⟩
  unfold drmtapHelperStop
  apply Cmd.total_bind
  apply old_getCtx
  apply Cmd.total_bind
  unfold hangUp
  apply Cmd.total_ite
  · intro _
    apply Cmd.total_bind
    apply Cmd.total_call
    · exact .inl hclosed
    intro r s' hs
    cases hs with
    | sent _ _ _ ho _ =>
      rw [hclosed] at ho
      cases ho
    | refused _ _ _ _ =>
      apply Cmd.total_bind
      apply old_close
      apply old_modifyCtx
      exact hreap (show (-1 : ℤ) < 0 by decide) rfl
  · intro hno
    exact Cmd.total_pure (hreap (not_le.mp hno) rfl)

/-- No answer to the extended command: a fresh helper is there for the next try. -/
theorem old_cursorUnanswered (hunheard : m.ctx.Unheard) (hno : m.ctx.helperNoCursor2 = false)
    (hclosed : s.closed = true) (hcount : s.spawned = 1 + m.ctx.respawns) :
    Cmd.total oldEnv (cursorUnanswered true) (fun r m' s' => r = .inl () ∧ OldSynced m' s' ∧
      m'.ctx.respawns = m.ctx.respawns + 1 ∧ s'.grabs = s.grabs) m s := by
  unfold cursorUnanswered
  apply Cmd.total_bind
  apply old_getCtx
  apply Cmd.total_ite
  · intro _
    apply Cmd.total_bind
    apply Cmd.total_mono (old_stop hclosed)
    intro _ m₁ s₁ h
    obtain ⟨hfd, hlatch, hs⟩ := h
    subst hs
    apply Cmd.total_bind
    unfold drmtapHelperSpawn
    apply Cmd.total_bind
    apply old_getCtx
    apply Cmd.total_ite
    · intro hle
      exact absurd hfd (not_lt.mpr hle)
    intro _
    apply Cmd.total_bind
    apply Cmd.total_call trivial
    intro r s' hs
    cases hs with
    | spawned fd pid =>
      apply Cmd.total_bind
      apply old_modifyCtx
      apply Cmd.total_pure
      apply Cmd.total_ite (fun hneg => absurd hneg (lt_irrefl _))
      intro _
      apply Cmd.total_bind
      apply old_modifyCtx
      apply Cmd.total_pure
      have hkept : (m₁.ctx.withHelper fd pid).latch = m.ctx.latch := hlatch
      have hnone : (m₁.ctx.withHelper fd pid).helperNoCursor2 = false :=
        (congrArg Prod.fst hkept).trans hno
      have hmore : (m₁.ctx.withHelper fd pid).noteNoAnswer.respawns = m.ctx.respawns + 1 := by
        rw [Ctx.noteNoAnswer_respawns hnone, Ctx.respawns_congr hkept]
      refine ⟨rfl, ⟨.inr ⟨?_, rfl, rfl, ?_⟩, ?_⟩, hmore, rfl⟩
      · show 0 ≤ (m₁.ctx.withHelper fd pid).noteNoAnswer.helperFd
        rw [Ctx.noteNoAnswer_helperFd]
        exact Int.natCast_nonneg fd
      · show s₁.spawned + 1 = 1 + (m₁.ctx.withHelper fd pid).noteNoAnswer.respawns
        rw [hmore]
        omega
      · exact (hunheard.congr hkept).noteNoAnswer
  · intro hknown
    rw [hunheard.unknown] at hknown
    exact absurd ⟨rfl, Bool.false_ne_true⟩ hknown

/-- One try. -/
theorem old_getCursorOnce (h : OldSynced m s) : Cmd.total oldEnv getCursorOnce
    (fun r m' s' => OldSynced m' s' ∧ s'.grabs = s.grabs ∧
      r.elim (fun _ => m'.ctx.respawns = m.ctx.respawns + 1) fun r =>
        OldTold r m' s' ∧ m'.ctx.helperNoCursor2 = true) m s := by
  unfold getCursorOnce
  apply Cmd.total_bind
  apply old_getCtx
  apply Cmd.total_bind
  apply Cmd.total_mono (old_sendCommand _ _ h)
  intro r m₁ s₁ h
  obtain ⟨hr, s₀, hready, hkept, ht⟩ := h
  subst hr
  have hunheard : m₁.ctx.Unheard := h.unheard.congr hkept.latch
  have hrespawns : m₁.ctx.respawns = m.ctx.respawns := Ctx.respawns_congr hkept.latch
  have hlatched : m₁.ctx.helperNoCursor2 = m.ctx.helperNoCursor2 := congrArg Prod.fst hkept.latch
  apply Cmd.total_ite (fun hneg => absurd hneg (lt_irrefl _))
  intro _
  apply Cmd.total_bind
  apply old_getCtx
  apply Cmd.total_bind
  cases hno : m.ctx.helperNoCursor2 with
  | false =>
    rw [hno] at ht
    rcases ht.of_type with ⟨hne, -⟩ | ⟨hne, -⟩ | ⟨-, -, hs⟩
    · exact absurd hne (by decide)
    · exact absurd hne (by decide)
    · subst hs
      apply old_wireRecvAll_closed rfl
      · exact hready.empty
      · decide
      have hasked := old_cursorUnanswered (s := { s₀ with closed := true }) hunheard
        (hlatched.trans hno) rfl hready.count
      apply Cmd.total_mono hasked
      intro r m₂ s₂ h
      obtain ⟨hr, hsynced, hmore, hgrabs⟩ := h
      subst hr
      exact ⟨hsynced, hgrabs.trans hkept.grabs, hmore.trans (congrArg (· + 1) hrespawns)⟩
  | true =>
    rw [hno] at ht
    rcases ht.of_type with ⟨hne, -⟩ | ⟨-, w, pixels, hpixels, hsmall, hs⟩ | ⟨-, hne, -⟩
    · exact absurd hne (by decide)
    · subst hs
      have hlen : (w.encode false).length = CursorWire.size (!true) := w.encode_length false
      rw [← hlen]
      apply old_wireRecvAll rfl
      dsimp only
      rw [CursorWire.decode_encode_legacy]
      apply Cmd.total_bind
      apply Cmd.total_mono (old_receiveCursor hpixels hsmall rfl rfl)
      intro r m₂ s₂ h
      obtain ⟨hctx, hs, htold⟩ := h
      subst hs
      apply Cmd.total_pure
      refine ⟨⟨.inr ⟨?_, hready.alive, rfl, ?_⟩, ?_⟩, hkept.grabs, htold, ?_⟩
      · rw [hctx]
        exact hready.fd
      · rw [hctx]
        exact hready.count
      · rw [hctx]
        exact hunheard
      · rw [hctx]
        exact hlatched.trans hno
    · exact absurd rfl hne

/-- Where the older command is known to be the one, the helper is the third. -/
theorem OldSynced.spawned_eq (h : OldSynced m s) (hno : m.ctx.helperNoCursor2 = true) :
    s.spawned = 3 := by
  have hretried := h.unheard.latched hno
  have htwo : m.ctx.respawns = 2 := by
    simp [Ctx.respawns, hno, hretried]
  rcases h.helper with ⟨-, -, hnone⟩ | hready
  · omega
  · have := hready.count
    omega

/-- The cursor is asked for three times at most, and told in the end. -/
theorem old_helperGetCursor (h : OldSynced m s) : Cmd.total oldEnv drmtapHelperGetCursor
    (fun r m' s' => OldSynced m' s' ∧ s'.grabs = s.grabs ∧ OldTold r m' s' ∧ s'.spawned = 3)
    m s := by
  unfold drmtapHelperGetCursor
  apply Cmd.total_loop (fun _ m' (s' : Old) => OldSynced m' s' ∧ s'.grabs = s.grabs) fun _ m' =>
    2 - m'.ctx.respawns
  · exact ⟨h, rfl⟩
  intro _ m₁ s₁ h
  obtain ⟨hsynced, hgrabs⟩ := h
  apply Cmd.total_mono (old_getCursorOnce hsynced)
  intro r m₂ s₂ h
  obtain ⟨hsynced₂, hgrabs₂, hr⟩ := h
  cases r with
  | inl u =>
    have hmore : m₂.ctx.respawns = m₁.ctx.respawns + 1 := hr
    have hle := m₂.ctx.respawns_le
    refine ⟨⟨hsynced₂, hgrabs₂.trans hgrabs⟩, ?_⟩
    omega
  | inr reply => exact ⟨hsynced₂, hgrabs₂.trans hgrabs, hr.1, hsynced₂.spawned_eq hr.2⟩

end Commands

/-! Runs -/

/-- What becomes of a context whose helper is old: grabs, cursors, and whatever has nothing to do
with the helper. -/
inductive OldStep : Machine × Old → Machine × Old → Prop
  | grab (m : Machine) (s : Old) (buf : Slice) (bufSize : ℕ) (r : ℤ × HelperGrabResult)
      (m' : Machine) (s' : Old) (hlive : m.heap.Live buf) (hbuf : bufSize ≤ buf.len)
      (h : Cmd.Runs oldEnv (drmtapHelperGrab buf bufSize) m s r m' s') : OldStep (m, s) (m', s')
  | cursor (m : Machine) (s : Old) (r : ℤ × CursorInfo) (m' : Machine) (s' : Old)
      (h : Cmd.Runs oldEnv drmtapHelperGetCursor m s r m' s') : OldStep (m, s) (m', s')
  | other (m : Machine) (s : Old) (m' : Machine) (hfd : m'.ctx.helperFd = m.ctx.helperFd)
      (hlatch : m'.ctx.latch = m.ctx.latch) : OldStep (m, s) (m', s)

theorem OldStep.synced {x y : Machine × Old} (hstep : OldStep x y) (h : OldSynced x.1 x.2) :
    OldSynced y.1 y.2 := by
  cases hstep with
  | grab m s buf bufSize r m' s' hlive hbuf hrun =>
    exact (Cmd.wp_runs (old_helperGrab h hlive hbuf).1 hrun).1
  | cursor m s r m' s' hrun => exact (Cmd.wp_runs (old_helperGetCursor h).1 hrun).1
  | other m s m' hfd hlatch =>
    have hrespawns : m'.ctx.respawns = m.ctx.respawns := Ctx.respawns_congr hlatch
    refine ⟨?_, h.unheard.congr hlatch⟩
    rcases h.helper with ⟨hneg, hzero, hnone⟩ | hready
    · exact .inl ⟨hfd ▸ hneg, hzero, hrespawns.trans hnone⟩
    · exact .inr ⟨hfd ▸ hready.fd, hready.alive, hready.empty, hrespawns ▸ hready.count⟩

section Runs
variable {m₀ : Machine} {x : Machine × Old}

theorem old_synced_start (hfd : m₀.ctx.helperFd < 0)
    (hlatch : m₀.ctx.latch = (false, false, false)) : OldSynced m₀ .start := by
  simp only [Ctx.latch, Prod.mk.injEq] at hlatch
  obtain ⟨hno, hok, hretried⟩ := hlatch
  refine ⟨.inl ⟨hfd, rfl, ?_⟩, hok, fun h => ?_⟩
  · simp [Ctx.respawns, hno, hretried]
  · rw [hno] at h
    cases h

theorem old_stays_synced (hfd : m₀.ctx.helperFd < 0)
    (hlatch : m₀.ctx.latch = (false, false, false))
    (hrun : Relation.ReflTransGen OldStep (m₀, .start) x) : OldSynced x.1 x.2 := by
  induction hrun with
  | refl => exact old_synced_start hfd hlatch
  | tail _ hstep ih => exact hstep.synced ih

/-- In whatever order grabs and cursors come, an old helper is started three times at most. Every
cursor is what it told, without provenance, and every grab what it answered. -/
theorem old_helper_falls_back (hfd : m₀.ctx.helperFd < 0)
    (hlatch : m₀.ctx.latch = (false, false, false))
    (hrun : Relation.ReflTransGen OldStep (m₀, .start) x) :
    x.2.spawned ≤ 3 ∧
      Cmd.total oldEnv drmtapHelperGetCursor (fun r m' s' =>
        OldTold r m' s' ∧ s'.grabs = x.2.grabs ∧ s'.spawned = 3) x.1 x.2 ∧
      ∀ buf bufSize, x.1.heap.Live buf → bufSize ≤ buf.len →
        Cmd.total oldEnv (drmtapHelperGrab buf bufSize) (fun r m' s' => s'.spawned ≤ 3 ∧
          ∃ head body, s'.grabs = (head, body) :: x.2.grabs ∧
            OldGrabbed r m' buf bufSize head body) x.1 x.2 := by
  have hsynced := old_stays_synced hfd hlatch hrun
  refine ⟨hsynced.spawned_le, ?_, ?_⟩
  · apply Cmd.total_mono (old_helperGetCursor hsynced)
    intro r m' s' h
    obtain ⟨_, hgrabs, htold, hthree⟩ := h
    exact ⟨htold, hgrabs, hthree⟩
  · intro buf bufSize hlive hbuf
    apply Cmd.total_mono (old_helperGrab hsynced hlive hbuf)
    intro r m' s' h
    obtain ⟨hsynced', hgrabbed⟩ := h
    exact ⟨hsynced'.spawned_le, hgrabbed⟩

end Runs

/-- An old helper whose cursor is hidden. -/
def oldPeer (s : Old) : (o : Op) → Option (Ans o × Old)
  | .helperSpawn => some (.ok (3, 7), s.respawn)
  | .helperReap => some ((), s)
  | .close _ => some ((), s)
  | .send _ b =>
    if s.closed = true then some (.error ⟨32, Nat.succ_pos 31⟩, s)
    else if b = (wireCmd cmdGetCursor 0).encode then
      some (.ok b.length,
        { s with pending := CursorWire.zero.encode false ++ [], said := some (.zero, []) })
    else if b = (wireCmd cmdGetCursor2 0).encode then
      some (.ok b.length, { s with closed := true })
    else none
  | .recv _ len =>
    if s.pending = [] then some (.ok [], s)
    else if s.pending.take len ≠ [] then
      some (.ok (s.pending.take len), s.left (s.pending.drop (s.pending.take len).length))
    else none
  | _ => none

theorem oldPeer_moves (s : Old) (o : Op) (r : Ans o) (t : Old) (h : oldPeer s o = some (r, t)) :
    oldEnv.step s o r t := by
  unfold oldPeer at h
  split at h
  next =>
    obtain ⟨rfl, rfl⟩ := Prod.mk.inj (Option.some.inj h)
    exact .spawned 3 7
  next =>
    obtain ⟨rfl, rfl⟩ := Prod.mk.inj (Option.some.inj h)
    exact .reaped
  next fd =>
    obtain ⟨rfl, rfl⟩ := Prod.mk.inj (Option.some.inj h)
    exact .closed fd
  next fd b =>
    split at h
    next hclosed =>
      obtain ⟨rfl, rfl⟩ := Prod.mk.inj (Option.some.inj h)
      exact .refused fd b _ hclosed
    next hopen =>
      have hopen : s.closed = false := by simpa using hopen
      split at h
      next hb =>
        obtain ⟨rfl, rfl⟩ := Prod.mk.inj (Option.some.inj h)
        subst hb
        exact .sent fd _ _ hopen (.cursor .zero [] (by decide) (by decide) rfl (by decide))
      next =>
        split at h
        next hb =>
          obtain ⟨rfl, rfl⟩ := Prod.mk.inj (Option.some.inj h)
          subst hb
          exact .sent fd _ _ hopen (.hangsUp (by decide))
        next => cases h
  next fd len =>
    split at h
    next hnil =>
      obtain ⟨rfl, rfl⟩ := Prod.mk.inj (Option.some.inj h)
      exact .recv fd len _ _ (.ended hnil)
    next =>
      split at h
      next hne =>
        obtain ⟨rfl, rfl⟩ := Prod.mk.inj (Option.some.inj h)
        exact .recv fd len _ _ (.bytes _ hne (List.length_take_le _ _) (List.take_prefix _ _))
      next => cases h
  next => cases h

/-- A context that has fallen back. -/
def Machine.fellBack : Machine where
  ctx := { (Ctx.opened "i915" 0).withHelper 3 7 with
    helperNoCursor2 := true, helperCursor2Retried := true }
  heap := .empty

theorem fellBack_reached : Relation.ReflTransGen OldStep (.opened "i915", .start)
    (.fellBack, ⟨[], false, 3, some (.zero, []), []⟩) := by
  apply Relation.ReflTransGen.single
  apply OldStep.cursor _ _ (0, CursorInfo.ofWire .zero false)
  exact Cmd.exec_runs (h := oldPeer) (n := 4) oldPeer_moves rfl

theorem old_helper_falls_back_hidden :
    Cmd.total oldEnv drmtapHelperGetCursor (fun r m' s' => OldTold r m' s' ∧ s'.grabs = [] ∧
      s'.spawned = 3) .fellBack ⟨[], false, 3, some (.zero, []), []⟩ :=
  (old_helper_falls_back (by decide) rfl fellBack_reached).2.1

end Drmtap
