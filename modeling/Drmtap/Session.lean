import Drmtap.FailedGrabs
import Drmtap.FastRuns
import Drmtap.Footprint
import Drmtap.Isolation

/-! A context in use: grabs, converts and releases in any order, with any number of frames handed
out. -/
namespace Drmtap

open Memory Effect

namespace FrameInfo

/-- What a frame holds until it is released. -/
def owned (frame : FrameInfo) : Multiset Resource := frame.priv.elim 0 FramePriv.owned

/-- The blocks of a frame: its record, and its mapping. -/
def blocks (frame : FrameInfo) : List ℕ :=
  frame.priv.elim [] fun p => p.self.base :: (p.mapped.map Slice.base).toList

theorem blocks_of_priv {frame : FrameInfo} {p : FramePriv} (hp : frame.priv = some p) :
    frame.blocks = p.self.base :: (p.mapped.map Slice.base).toList := by
  rw [blocks, hp]
  rfl

theorem mem_blocks {frame : FrameInfo} {b : ℕ} : b ∈ frame.blocks ↔
    ∃ p, frame.priv = some p ∧ (b = p.self.base ∨ ∃ s, p.mapped = some s ∧ b = s.base) := by
  unfold blocks
  cases frame.priv with
  | none => simp
  | some p => simp [eq_comm]

theorem spared_iff {frame : FrameInfo} {b : ℕ} :
    (∀ p, frame.priv = some p → p.Spared b) ↔ b ∉ frame.blocks := by
  constructor
  · intro h hb
    obtain ⟨p, hp, rfl | ⟨s, hs, rfl⟩⟩ := mem_blocks.mp hb
    · exact (h p hp).self rfl
    · exact (h p hp).mapped s hs rfl
  · intro h p hp
    constructor
    · intro hb
      exact h (mem_blocks.mpr ⟨p, hp, .inl hb.symm⟩)
    · intro s hs hb
      exact h (mem_blocks.mpr ⟨p, hp, .inr ⟨s, hs, hb.symm⟩⟩)

end FrameInfo

/-- A context with what it holds, the frames of its grabs that are not released, and the memory
that its caller has allocated. -/
structure Session where
  machine : Machine
  held : Multiset Resource
  frames : List FrameInfo
  caller : List Slice

namespace Session

def opened (driver : String) : Session := ⟨.opened driver, 0, [], []⟩

def owned (s : Session) : Multiset Resource := (s.frames.map FrameInfo.owned).sum

/-- The blocks that are not the library's to use. -/
def claimed (s : Session) : List ℕ := s.frames.flatMap FrameInfo.blocks ++ s.caller.map Slice.base

def user (s : Session) : Option Slice := s.machine.ctx.userOut

def after (s : Session) (m : Machine) (held : Multiset Resource) : Session :=
  { s with machine := m, held := held }

/-- A frame is handed out when its call succeeds. -/
def hand (s : Session) (ret : ℤ) (frame : FrameInfo) : Session :=
  if ret = 0 then { s with frames := frame :: s.frames } else s

end Session

/-- The calls on a context that hand out nothing to release. -/
inductive LibraryCall where
  | fast (call : FastCall)
  | convert (desc : DmabufDesc) (frame : FrameInfo)
  | setOutput (dst : Option Slice)

namespace LibraryCall

def run : LibraryCall → M Unit
  | .fast call => call.run
  | .convert desc frame => do
    let _ ← drmtapConvertDmabuf desc frame
    pure ()
  | .setOutput dst => do
    let _ ← drmtapSetOutputBuffer dst
    pure ()

/-- The output buffer is in the caller's own memory. -/
def Fair (s : Session) : LibraryCall → Prop
  | .setOutput (some u) => ∃ c ∈ s.caller, u.base = c.base ∧ u.len ≤ c.len
  | _ => True

end LibraryCall

inductive SessionStep (egl : Prop) (s : Session) : Session → Prop
  | grab (entry : GrabEntry) (frame : FrameInfo) {r : ℤ × FrameInfo} {m : Machine}
      {held : Multiset Resource}
      (hr : Cmd.Runs (libEnv egl .free) (entry.run frame) s.machine s.held r m held) :
      SessionStep egl s ((s.after m held).hand r.1 r.2)
  | call (call : LibraryCall) (hfair : call.Fair s) {m : Machine} {held : Multiset Resource}
      (hr : Cmd.Runs (libEnv egl .free) call.run s.machine s.held () m held) :
      SessionStep egl s (s.after m held)
  | release {before after : List FrameInfo} {frame f : FrameInfo} {m : Machine}
      {held : Multiset Resource} (hs : s.frames = before ++ frame :: after)
      (hr : Cmd.Runs (libEnv egl .free) (drmtapFrameRelease frame) s.machine s.held f m held) :
      SessionStep egl s ⟨m, held, before ++ after, s.caller⟩
  | allocate (size : ℕ) (byte : ℕ → UInt8) :
      SessionStep egl s ⟨{ s.machine with heap := (s.machine.heap.alloc size byte).2 }, s.held,
        s.frames, (s.machine.heap.alloc size byte).1 :: s.caller⟩
  | deallocate {before after : List Slice} {c : Slice} (hs : s.caller = before ++ c :: after)
      (hfree : ¬ Lent s.user c.base) :
      SessionStep egl s ⟨{ s.machine with heap := s.machine.heap.release c.base }, s.held,
        s.frames, before ++ after⟩

/-- The invariant on memory: every block has one owner. -/
structure Session.Intact (s : Session) : Prop where
  fast : s.machine.Fast
  valid : ∀ frame ∈ s.frames, ∀ p, frame.priv = some p → p.Valid s.machine
  whole : ∀ c ∈ s.caller, s.machine.heap.Whole c
  spared : ∀ b ∈ s.claimed, s.machine.Spared (SlotsSpared b) b
  nodup : s.claimed.Nodup
  lent : ∀ u, s.user = some u → ∃ c ∈ s.caller, u.base = c.base ∧ u.len ≤ c.len

/-- With what is held, which is what the slots, the socket and the frames own. -/
structure Session.Sound (s : Session) : Prop where
  intact : s.Intact
  held : s.held = s.machine.ctx.owned + (s.machine.sockets + s.owned)

section Blocks
variable {s : Session} {m' : Machine} {frame : FrameInfo} {b : ℕ}

theorem Machine.Spared.isPrivate {K : (SlotId → FastSlot) → Prop} {m : Machine}
    (h : m.Spared K b) (hu : ¬ Lent m.ctx.userOut b) : m.Private b := by
  refine ⟨?_, h.pixel⟩
  rintro (⟨u, hu', hb⟩ | ⟨t, ht, hb⟩)
  · exact hu ⟨u, hu', hb⟩
  · exact h.shadow t ht hb

/-- Blocks that are private and in no slot. -/
theorem Machine.Private.spared {m : Machine} (hf : m.Fast) (hp : m.Private b)
    (hlt : b < m.heap.next)
    (hslots : ∀ i t, (m.ctx.fastSlots i).mmapPtr = some t → t.base ≠ b) :
    m.Spared (SlotsSpared b) b where
  lt := hlt
  shadow t ht hb := hp.1 (.inr ⟨t, ht, hb⟩)
  pixel := hp.2
  slots i := by
    refine ⟨hslots i, ?_⟩
    rcases hf.slots i with he | hc
    · rw [he]
      exact .zero
    · exact hc.bounded.small
  memo := hf.ready.memo

namespace Session

theorem mem_claimed : b ∈ s.claimed ↔
    (∃ frame ∈ s.frames, b ∈ frame.blocks) ∨ ∃ c ∈ s.caller, c.base = b := by
  simp [claimed]

theorem Intact.disjoint (h : s.Intact) (hf : frame ∈ s.frames) (hb : b ∈ frame.blocks)
    {c : Slice} (hc : c ∈ s.caller) : c.base ≠ b := by
  rintro rfl
  have hdis := (List.nodup_append.mp h.nodup).2.2
  exact hdis _ (List.mem_flatMap.mpr ⟨frame, hf, hb⟩) _ (List.mem_map_of_mem hc) rfl

/-- The blocks of the frames are not lent. -/
theorem Intact.not_lent (h : s.Intact) (hf : frame ∈ s.frames) (hb : b ∈ frame.blocks) :
    ¬ Lent s.user b := by
  rintro ⟨u, hu, rfl⟩
  obtain ⟨c, hc, hbase, -⟩ := h.lent u hu
  exact h.disjoint hf hb hc hbase.symm

theorem whole_of_size {h h' : Heap} {t : Slice} (ht : h.Whole t)
    (hs : (h'.block t.base).map Block.size = (h.block t.base).map Block.size) : h'.Whole t := by
  obtain ⟨B, hB, hl⟩ := ht
  rw [hB] at hs
  obtain ⟨B', hB', he⟩ := Option.map_eq_some_iff.mp hs
  exact ⟨B', hB', he.trans hl⟩

/-- A record is valid where its blocks are kept. -/
theorem valid_of_kept {m : Machine} {p : FramePriv} (hp : frame.priv = some p) (hv : p.Valid m)
    (hkeep : ∀ b ∈ frame.blocks, m'.heap.block b = m.heap.block b ∧ m'.Private b) :
    p.Valid m' where
  self := hv.self.congr (hkeep _ (FrameInfo.mem_blocks.mpr ⟨p, hp, .inl rfl⟩)).1
  selfPrivate := (hkeep _ (FrameInfo.mem_blocks.mpr ⟨p, hp, .inl rfl⟩)).2
  mapped t ht := by
    obtain ⟨hw, -, hr⟩ := hv.mapped t ht
    obtain ⟨hk, hpriv⟩ := hkeep _ (FrameInfo.mem_blocks.mpr ⟨p, hp, .inr ⟨t, ht, rfl⟩⟩)
    exact ⟨hw.congr hk, hpriv, hr⟩
  window := hv.window

/-- A call of the library. -/
theorem Intact.of_kept (h : s.Intact) (hf : m'.Fast) (hu : m'.ctx.userOut = s.user)
    (hkeep : ∀ b ∈ s.claimed,
      m'.Spared (SlotsSpared b) b ∧ Machine.Kept s.user b s.machine m')
    (held : Multiset Resource) : (s.after m' held).Intact where
  fast := hf
  valid frame hframe p hp := by
    refine valid_of_kept hp (h.valid frame hframe p hp) fun b hb => ?_
    obtain ⟨hs, hk⟩ := hkeep b (mem_claimed.mpr (.inl ⟨frame, hframe, hb⟩))
    have hlent := h.not_lent hframe hb
    exact ⟨hk.same hlent, hs.isPrivate (hu ▸ hlent)⟩
  whole c hc := whole_of_size (h.whole c hc)
    (hkeep _ (mem_claimed.mpr (.inr ⟨c, hc, rfl⟩))).2.size
  spared b hb := (hkeep b hb).1
  nodup := h.nodup
  lent u hu' := h.lent u (hu.symm.trans hu')

/-- A frame in blocks of its own. -/
theorem Intact.hand (h : s.Intact) {p : FramePriv} (hp : frame.priv = some p)
    (hv : p.Valid s.machine) (hnew : ∀ b ∈ frame.blocks,
      s.machine.Spared (SlotsSpared b) b ∧ b ∉ s.claimed) :
    Intact { s with frames := frame :: s.frames } where
  fast := h.fast
  valid frame' hf' p' hp' := by
    rcases List.mem_cons.mp hf' with rfl | hf'
    · obtain rfl : p = p' := Option.some.inj (hp.symm.trans hp')
      exact hv
    · exact h.valid frame' hf' p' hp'
  whole := h.whole
  spared b hb := by
    rcases mem_claimed.mp hb with ⟨frame', hf', hb'⟩ | hc
    · rcases List.mem_cons.mp hf' with rfl | hf'
      · exact (hnew b hb').1
      · exact h.spared b (mem_claimed.mpr (.inl ⟨frame', hf', hb'⟩))
    · exact h.spared b (mem_claimed.mpr (.inr hc))
  nodup := by
    have hself : frame.blocks.Nodup := by
      rw [FrameInfo.blocks_of_priv hp]
      cases hm : p.mapped with
      | none => simp
      | some t => simpa using (hv.mapped t hm).2.2.1.symm
    unfold claimed
    rw [List.flatMap_cons, List.append_assoc]
    refine List.nodup_append.mpr ⟨hself, h.nodup, ?_⟩
    rintro b hb _ hb' rfl
    exact (hnew b hb).2 hb'
  lent := h.lent

end Session

end Blocks

/-! What the calls leave of the context -/

section Context

/-- The output buffer stays set. -/
def KeepsUser (x y : Machine × Unit) : Prop := y.1.ctx.userOut = x.1.ctx.userOut

instance : IsPreorder (Machine × Unit) KeepsUser where
  refl _ := rfl
  trans _ _ _ h₁ h₂ := h₂.trans h₁

theorem keepsUser_tracks : Tracks Unprobing Env.any KeepsUser where
  beside _ h := h.unprobing
  legal _ _ _ := trivial
  call _ _ _ _ _ _ _ := rfl
  untouched _ _ _ h := h.userOut

/-- So do the slots. -/
def KeepsSlots (x y : Machine × Unit) : Prop :=
  SameSlots x.1.ctx y.1.ctx ∧ y.1.ctx.userOut = x.1.ctx.userOut

instance : IsPreorder (Machine × Unit) KeepsSlots where
  refl _ := ⟨⟨rfl, rfl⟩, rfl⟩
  trans _ _ _ h₁ h₂ := ⟨⟨h₂.1.slots.trans h₁.1.slots,
    h₂.1.initialized.trans h₁.1.initialized⟩, h₂.2.trans h₁.2⟩

theorem keepsSlots_tracks : Tracks Unprobing Env.any KeepsSlots where
  beside _ h := h.unprobing
  legal _ _ _ := trivial
  call _ _ _ _ _ _ _ := ⟨⟨rfl, rfl⟩, rfl⟩
  untouched _ _ _ h := ⟨⟨h.slots, h.initialized⟩, h.userOut⟩

variable {egl : Prop} {m m' : Machine} {held held' : Multiset Resource}

theorem GrabEntry.keepsSlots {entry : GrabEntry} {frame : FrameInfo} {r : ℤ × FrameInfo}
    (hr : Cmd.Runs (libEnv egl .free) (entry.run frame) m held r m' held') :
    SameSlots m.ctx m'.ctx ∧ m'.ctx.userOut = m.ctx.userOut := by
  have hselect : Cmd.Follows Env.any KeepsSlots selectFirstActiveCrtc :=
    follows_select keepsSlots_tracks fun _ _ _ => ⟨⟨rfl, rfl⟩, rfl⟩
  have hfollows := follows_grabEntry keepsSlots_tracks hselect
    (fun _ _ _ => ⟨⟨rfl, rfl⟩, rfl⟩) (fun _ _ _ => ⟨⟨rfl, rfl⟩, rfl⟩) entry frame
  exact Cmd.wlp_runs (hfollows m ()) hr.any

theorem FastCall.keepsUser {call : FastCall}
    (hr : Cmd.Runs (libEnv egl .free) call.run m held () m' held') :
    m'.ctx.userOut = m.ctx.userOut := by
  have hselect : Cmd.Follows Env.any KeepsUser selectFirstActiveCrtc :=
    follows_select keepsUser_tracks fun _ _ _ => rfl
  have hfast : ∀ (m : Machine) (c : Ctx) (s : Unit), m.ctx.SameSetup c →
      KeepsUser (m, s) (⟨c, m.heap⟩, s) := fun _ _ _ h => h.userOut
  have hfollows : Cmd.Follows Env.any KeepsUser call.run := by
    cases call with
    | grab frame =>
      exact .bind (follows_grabMappedFast keepsUser_tracks hselect hfast frame) fun _ => .pure _
    | cleanup => exact follows_fastCleanup keepsUser_tracks hfast
  exact Cmd.wlp_runs (hfollows m ()) hr.any

end Context

/-! A grab -/

section Grab
variable {egl : Prop} {K : (SlotId → FastSlot) → Prop} {user : Option Slice} {b : ℕ}
  {m m' : Machine} {rest held held' : Multiset Resource} {entry : GrabEntry}
  {frame : FrameInfo} {r : ℤ × FrameInfo}

theorem isolates_grabEntry (entry : GrabEntry) (frame : FrameInfo) :
    Isolates K user b (entry.run frame) fun r => Grabbed b r.1 r.2 := by
  cases entry with
  | grab => exact isolates_doGrab false frame
  | mapped => exact isolates_doGrab true frame
  | desc d =>
    apply Cmd.Stays.bind (isolates_grabDesc d frame)
    intro r hr
    exact .pure hr

theorem FastCall.isolates (call : FastCall) :
    Isolates (SlotsSpared b) user b call.run fun _ => True := by
  cases call with
  | grab frame => exact .bind (isolates_grabMappedFast frame) fun _ _ => .pure trivial
  | cleanup => exact isolates_of_spares spares_fastCleanup

theorem GrabEntry.run_lib (hm : m.Ready) (entry : GrabEntry) (frame : FrameInfo) :
    Cmd.wp (libEnv egl .free) (entry.run frame)
      (fun r m' held' => Settled rest r.1 r.2 m' held') m (m.sockets + rest) := by
  cases entry with
  | grab => exact doGrab_lib hm frame
  | mapped => exact doGrab_lib hm frame
  | desc d =>
    unfold GrabEntry.run
    rw [Cmd.wp_bind]
    exact Cmd.wp_mono (drmtapGrabDesc_lib hm d frame) fun _ _ _ h => h

theorem Settled.ready {ret : ℤ} (h : Settled rest ret frame m held) : m.Ready := by
  rcases h with ⟨-, hr, -⟩ | ⟨-, p, ho⟩
  · exact hr
  · exact ho.ready

/-- The mapping of a slot is nothing that a grab works with. -/
theorem Machine.Fast.slot_spared (hf : m.Fast) {t : Slice} (hw : m.heap.Whole t)
    (hp : m.Private t.base) : m.Spared (fun _ => True) t.base where
  lt := hw.live.lt_next
  shadow s hs hb := hp.1 (.inr ⟨s, hs, hb⟩)
  pixel := hp.2
  slots := trivial
  memo := hf.ready.memo

theorem Machine.Fast.grab (hf : m.Fast)
    (hr : Cmd.Runs (libEnv egl .free) (entry.run frame) m held r m' held') (hready : m'.Ready) :
    m'.Fast := by
  obtain ⟨hslots, hu⟩ := GrabEntry.keepsSlots hr
  refine hf.of_same hready hslots fun i t _ hw hp => ?_
  obtain ⟨hclear, hkept, -⟩ := (isolates_grabEntry entry frame).runs hr
    ⟨hf.slot_spared hw hp, rfl⟩
  have hlent : ¬ Lent m.ctx.userOut t.base := fun h => hp.1 (.inl h)
  exact ⟨hw.congr (hkept.same hlent), hclear.spared.isPrivate (hu ▸ hlent)⟩

/-- The blocks of a frame are the record and the mapping of its own. -/
theorem FramePriv.Valid.block {p : FramePriv} {b : ℕ} (hv : p.Valid m)
    (hp : frame.priv = some p) (hb : b ∈ frame.blocks) : b < m.heap.next ∧ m.Private b := by
  obtain ⟨p', hp', hcase⟩ := FrameInfo.mem_blocks.mp hb
  obtain rfl : p = p' := Option.some.inj (hp.symm.trans hp')
  rcases hcase with rfl | ⟨t, ht, rfl⟩
  · exact ⟨hv.self.live.lt_next, hv.selfPrivate⟩
  · exact ⟨(hv.mapped t ht).1.live.lt_next, (hv.mapped t ht).2.1⟩

/-- They are no slot's. -/
theorem Machine.Fast.grab_fresh (hf : m.Fast)
    (hr : Cmd.Runs (libEnv egl .free) (entry.run frame) m held r m' held') (h0 : r.1 = 0)
    {p : FramePriv} (ho : Owned rest r.2 p m' held') (hb : b ∈ r.2.blocks) :
    m'.Spared (SlotsSpared b) b := by
  obtain ⟨hlt, hpriv⟩ := ho.valid.block ho.priv hb
  refine hpriv.spared (hf.grab hr ho.ready) hlt fun i t ht hbase => ?_
  rw [(GrabEntry.keepsSlots hr).1.slots] at ht
  have hcached : m.heap.Whole t ∧ m.Private t.base := by
    rcases hf.slots i with he | hc
    · rw [he] at ht
      cases ht
    · obtain ⟨t', ht', hw, hp, -⟩ := hc.mapped
      obtain rfl := Option.some.inj (ht.symm.trans ht')
      exact ⟨hw, hp⟩
  obtain ⟨-, -, hg⟩ := (isolates_grabEntry entry frame).runs hr
    ⟨hf.slot_spared hcached.1 hcached.2, rfl⟩
  exact FrameInfo.spared_iff.mp (hg h0) (hbase ▸ hb)

end Grab

/-! Steps of a session -/

namespace Session

section Steps
variable {egl : Prop} {s s' : Session} {m : Machine} {held : Multiset Resource} {b : ℕ}

theorem Intact.clear (h : s.Intact) (hb : b ∈ s.claimed) :
    s.machine.Clear (SlotsSpared b) s.user b := ⟨h.spared b hb, rfl⟩

theorem owned_cons (s : Session) (frame : FrameInfo) :
    owned { s with frames := frame :: s.frames } = frame.owned + s.owned := by
  simp [owned]

theorem Sound.grab (h : s.Sound) {entry : GrabEntry} {frame : FrameInfo} {r : ℤ × FrameInfo}
    (hr : Cmd.Runs (libEnv egl .free) (entry.run frame) s.machine s.held r m held) :
    Sound ((s.after m held).hand r.1 r.2) := by
  have hfast := h.intact.fast
  have hheld : s.held = s.machine.sockets + (s.machine.ctx.owned + s.owned) := by
    rw [h.held]
    abel
  have hset : Settled (s.machine.ctx.owned + s.owned) r.1 r.2 m held :=
    Cmd.wp_runs (E := libEnv egl .free) (entry.run_lib hfast.ready frame) (hheld ▸ hr)
  have hslots := GrabEntry.keepsSlots hr
  have hfast' := hfast.grab hr hset.ready
  have hsame : m.ctx.owned = s.machine.ctx.owned := by
    unfold Ctx.owned
    rw [hslots.1.slots]
  have hkept : ∀ b ∈ s.claimed, m.Spared (SlotsSpared b) b ∧ Machine.Kept s.user b s.machine m ∧
      Grabbed b r.1 r.2 := by
    intro b hb
    obtain ⟨hc, hk, hg⟩ := (isolates_grabEntry entry frame).runs hr (h.intact.clear hb)
    exact ⟨hc.spared, hk, hg⟩
  have hafter : (s.after m held).Intact :=
    h.intact.of_kept hfast' hslots.2 (fun b hb => ⟨(hkept b hb).1, (hkept b hb).2.1⟩) held
  unfold hand
  rcases hset with ⟨hneg, -, hh⟩ | ⟨h0, p, ho⟩
  · rw [if_neg hneg.ne]
    refine ⟨hafter, ?_⟩
    show held = m.ctx.owned + (m.sockets + s.owned)
    rw [hh, hsame]
    abel
  · rw [if_pos h0]
    refine ⟨hafter.hand ho.priv ho.valid fun b hb => ⟨hfast.grab_fresh hr h0 ho hb, ?_⟩, ?_⟩
    · intro hclaimed
      exact FrameInfo.spared_iff.mp ((hkept b hclaimed).2.2 h0) hb
    · have howned : r.2.owned = p.owned := by
        rw [FrameInfo.owned, ho.priv]
        rfl
      rw [owned_cons, howned]
      show held = m.ctx.owned + (m.sockets + (p.owned + s.owned))
      rw [ho.held, hsame]
      abel

theorem Sound.fast (h : s.Sound) {call : FastCall}
    (hr : Cmd.Runs (libEnv egl .free) call.run s.machine s.held () m held) :
    Sound (s.after m held) := by
  have hdone := Cmd.wp_runs (E := libEnv egl .free) (FastCall.run_lib h.intact.fast
    (WindowRule.free_allows s.owned) call h.held) hr
  refine ⟨h.intact.of_kept hdone.1 (FastCall.keepsUser hr) (fun b hb => ?_) held, hdone.2⟩
  obtain ⟨hc, hk, -⟩ := call.isolates.runs hr (h.intact.clear hb)
  exact ⟨hc.spared, hk⟩

theorem Sound.convert (h : s.Sound) {desc : DmabufDesc} {frame : FrameInfo} {r : ℤ × FrameInfo}
    (hr : Cmd.Runs (libEnv egl .free) (drmtapConvertDmabuf desc frame) s.machine s.held r m held) :
    Sound (s.after m held) := by
  have hfast := h.intact.fast
  obtain ⟨hconv, hheld, -⟩ := Cmd.wp_runs (E := libEnv egl .free)
    (drmtapConvertDmabuf_lib hfast.ready.buffered frame) hr
  have hstage : (s.machine.stage desc).Fast := hfast.tunes ⟨rfl, ⟨rfl, rfl, rfl⟩, rfl, id⟩ ⟨rfl, rfl⟩
  have hdone : m.Fast ∧ m.ctx.userOut = s.user ∧ m.ctx.owned = s.machine.ctx.owned ∧
      m.sockets = s.machine.sockets := by
    rcases hconv with hc | hc
    · refine ⟨hfast.converts hc, ?_⟩
      rw [Machine.sockets, hc.ctx]
      exact ⟨rfl, rfl, rfl⟩
    · refine ⟨hstage.converts hc, ?_⟩
      rw [Machine.sockets, hc.ctx]
      exact ⟨rfl, rfl, rfl⟩
  obtain ⟨hfast', hu, howned, hsock⟩ := hdone
  refine ⟨h.intact.of_kept hfast' hu (fun b hb => ?_) held, ?_⟩
  · obtain ⟨hc, hk, -⟩ := (isolates_convertDmabuf desc frame).runs hr (h.intact.clear hb)
    exact ⟨hc.spared, hk⟩
  · show held = m.ctx.owned + (m.sockets + s.owned)
    rw [howned, hsock, hheld, h.held]

/-- Another output buffer, in the memory of the caller. -/
theorem Intact.setUserOut (h : s.Intact) {dst : Option Slice}
    (hdst : ∀ u, dst = some u → ∃ c ∈ s.caller, u.base = c.base ∧ u.len ≤ c.len)
    (held : Multiset Resource) :
    Intact (s.after { s.machine with ctx := s.machine.ctx.setUserOut dst } held) := by
  have hspared : ∀ u, dst = some u → s.machine.Spared (SlotsSpared u.base) u.base := by
    intro u hu
    obtain ⟨c, hc, hbase, -⟩ := hdst u hu
    rw [hbase]
    exact h.spared _ (mem_claimed.mpr (.inr ⟨c, hc, rfl⟩))
  have hready := h.fast.ready
  have hprivate : ∀ b, s.machine.Private b → (∀ u, dst = some u → u.base ≠ b) →
      Machine.Private { s.machine with ctx := s.machine.ctx.setUserOut dst } b := by
    intro b hp hne
    refine ⟨?_, hp.2⟩
    rintro (⟨u, hu, hb⟩ | hshadow)
    · exact hne u hu hb
    · exact hp.1 (.inr hshadow)
  have hready' : Machine.Ready { s.machine with ctx := s.machine.ctx.setUserOut dst } :=
    { buffered :=
        { user := fun u hu => by
            obtain ⟨c, hc, hbase, hlen⟩ := hdst u hu
            obtain ⟨B, hB, hl⟩ := (h.whole c hc).live
            exact ⟨B, hbase ▸ hB, hlen.trans hl⟩
          shadow := hready.buffered.shadow
          apart := fun u t hu ht => ((hspared u hu).shadow t ht).symm }
      pixel := fun t ht => by
        refine ⟨(hready.pixel t ht).1, ?_⟩
        rintro (⟨u, hu, hb⟩ | hshadow)
        · exact (hspared u hu).pixel t ht hb.symm
        · exact (hready.pixel t ht).2 (.inr hshadow)
      memo := hready.memo }
  constructor
  · refine h.fast.of_same hready' ⟨rfl, rfl⟩ fun i t ht hw hp => ⟨hw, hprivate _ hp ?_⟩
    intro u hu hb
    exact ((hspared u hu).slots i).mapped t ht hb.symm
  · intro frame hframe p hp
    refine valid_of_kept hp (h.valid frame hframe p hp) fun b hb => ⟨rfl, ?_⟩
    refine hprivate b ((h.valid frame hframe p hp).block hp hb).2 ?_
    rintro u hu rfl
    obtain ⟨c, hc, hbase, -⟩ := hdst u hu
    exact h.disjoint hframe hb hc hbase.symm
  · exact h.whole
  · intro b hb
    have hb := h.spared b hb
    exact ⟨hb.lt, hb.shadow, hb.pixel, hb.slots, hb.memo⟩
  · exact h.nodup
  · exact hdst

theorem Sound.setOutput (h : s.Sound) {dst : Option Slice} (hfair : (LibraryCall.setOutput dst).Fair s)
    (hr : Cmd.Runs (libEnv egl .free) (LibraryCall.setOutput dst).run s.machine s.held () m held) :
    Sound (s.after m held) := by
  have hset : Cmd.wp (libEnv egl .free) (LibraryCall.setOutput dst).run (fun _ m' held' =>
      held' = s.held ∧ (m' = s.machine ∨
        m' = { s.machine with ctx := s.machine.ctx.setUserOut dst })) s.machine s.held := by
    unfold LibraryCall.run drmtapSetOutputBuffer
    cases dst with
    | none => exact ⟨rfl, .inr rfl⟩
    | some u =>
      simp only [Cmd.wp_bind, Cmd.wp_ite, Cmd.wp_pure, wp_modifyCtx]
      exact ⟨fun _ => ⟨trivial, .inl trivial⟩, fun _ => ⟨trivial, .inr trivial⟩⟩
  obtain ⟨rfl, rfl | rfl⟩ := Cmd.wp_runs hset hr
  · exact h
  · refine ⟨h.intact.setUserOut ?_ _, h.held⟩
    rintro u rfl
    exact hfair

theorem Sound.call (h : s.Sound) {call : LibraryCall} (hfair : call.Fair s)
    (hr : Cmd.Runs (libEnv egl .free) call.run s.machine s.held () m held) :
    Sound (s.after m held) := by
  cases call with
  | fast call => exact h.fast hr
  | convert desc frame =>
    obtain ⟨r, m₁, held₁, hr, hret⟩ := Cmd.runs_bind hr
    have hdone : Cmd.wp (libEnv egl .free) (pure () : M Unit)
        (fun _ m' held' => m' = m₁ ∧ held' = held₁) m₁ held₁ := ⟨rfl, rfl⟩
    obtain ⟨rfl, rfl⟩ := Cmd.wp_runs hdone hret
    exact h.convert hr
  | setOutput dst => exact h.setOutput hfair hr

/-- A frame that is left out. -/
theorem claimed_frame {before after : List FrameInfo} {frame : FrameInfo}
    (hs : s.frames = before ++ frame :: after) : s.claimed.Perm
      (frame.blocks ++ claimed { s with frames := before ++ after }) := by
  unfold claimed
  rw [hs]
  simp only [List.flatMap_append, List.flatMap_cons, List.append_assoc]
  exact List.perm_append_comm_assoc _ _ _

/-- A piece of the caller's memory that is left out. -/
theorem claimed_caller {before after : List Slice} {c : Slice}
    (hs : s.caller = before ++ c :: after) : s.claimed.Perm
      (c.base :: claimed { s with caller := before ++ after }) := by
  unfold claimed
  rw [hs]
  simp only [List.map_append, List.map_cons, ← List.append_assoc]
  exact List.perm_middle

/-- The blocks that are left, where the others go. -/
theorem Intact.restrict (h : s.Intact) {blocks : List ℕ} {frames : List FrameInfo}
    {caller : List Slice} (hperm : s.claimed.Perm
      (blocks ++ claimed { s with frames := frames, caller := caller }))
    (hframes : ∀ f ∈ frames, f ∈ s.frames) (hcaller : ∀ c ∈ caller, c ∈ s.caller)
    (hf : m.Fast) (hu : m.ctx.userOut = s.user)
    (hlent : ∀ u, s.user = some u → ∃ c ∈ caller, u.base = c.base ∧ u.len ≤ c.len)
    (hkeep : ∀ b, b ∉ blocks → s.machine.Spared (SlotsSpared b) b →
      m.Spared (SlotsSpared b) b ∧ m.heap.block b = s.machine.heap.block b) :
    Intact ⟨m, held, frames, caller⟩ := by
  have hnodup := hperm.nodup_iff.mp h.nodup
  have hstays : ∀ b ∈ claimed ⟨m, held, frames, caller⟩,
      m.Spared (SlotsSpared b) b ∧ m.heap.block b = s.machine.heap.block b := by
    intro b hb
    refine hkeep b (fun hblock => (List.nodup_append.mp hnodup).2.2 b hblock b hb rfl) ?_
    exact h.spared b (hperm.mem_iff.mpr (List.mem_append_right _ hb))
  constructor
  · exact hf
  · intro frame hframe p hp
    have hmem := hframes frame hframe
    refine valid_of_kept hp (h.valid frame hmem p hp) fun b hb => ?_
    obtain ⟨hsp, hsame⟩ := hstays b (mem_claimed.mpr (.inl ⟨frame, hframe, hb⟩))
    exact ⟨hsame, hsp.isPrivate (hu ▸ h.not_lent hmem hb)⟩
  · intro c hc
    exact (h.whole c (hcaller c hc)).congr (hstays _ (mem_claimed.mpr (.inr ⟨c, hc, rfl⟩))).2
  · exact fun b hb => (hstays b hb).1
  · exact (List.nodup_append.mp hnodup).2.1
  · exact fun u hu' => hlent u (hu.symm.trans hu')

/-- A release leaves the blocks of the others alone. -/
theorem release_spares {K : (SlotId → FastSlot) → Prop} {m₀ : Machine} {held₀ : Multiset Resource}
    {frame f : FrameInfo} (hb : b ∉ frame.blocks) (hsp : m₀.Spared K b)
    (hr : Cmd.Runs (libEnv egl .free) (drmtapFrameRelease frame) m₀ held₀ f m held) :
    m.Spared K b ∧ m.heap.block b = m₀.heap.block b := by
  have hspares : Spares K b (drmtapFrameRelease frame) fun _ => True :=
    spares_frameRelease (FrameInfo.spared_iff.mpr hb)
  obtain ⟨hsp', hsame, -⟩ := (hspares.weaken (fun _ _ => trivial) (fun _ h => h)
    fun _ _ _ h hr => ⟨h, hr⟩).runs hr hsp
  exact ⟨hsp', hsame.block⟩

theorem Sound.release (h : s.Sound) {before after : List FrameInfo} {frame f : FrameInfo}
    (hs : s.frames = before ++ frame :: after)
    (hr : Cmd.Runs (libEnv egl .free) (drmtapFrameRelease frame) s.machine s.held f m held) :
    Sound ⟨m, held, before ++ after, s.caller⟩ := by
  have hmem : frame ∈ s.frames := by
    rw [hs]
    simp
  have hfast := h.intact.fast
  have howned : s.owned = frame.owned + owned ⟨m, held, before ++ after, s.caller⟩ := by
    simp only [owned, hs, List.map_append, List.map_cons, List.sum_append, List.sum_cons]
    abel
  have hdone : m.ctx = s.machine.ctx ∧ m.Ready ∧ s.held = frame.owned + held := by
    cases hp : frame.priv with
    | none =>
      have hnone : Cmd.wp (libEnv egl .free) (drmtapFrameRelease frame)
          (fun _ m' held' => m' = s.machine ∧ held' = s.held) s.machine s.held := by
        unfold drmtapFrameRelease
        rw [hp]
        exact ⟨rfl, rfl⟩
      obtain ⟨rfl, rfl⟩ := Cmd.wp_runs hnone hr
      exact ⟨rfl, hfast.ready, by simp [FrameInfo.owned, hp]⟩
    | some p =>
      have hsum : s.held = p.owned + (s.machine.ctx.owned + (s.machine.sockets +
          owned ⟨m, held, before ++ after, s.caller⟩)) := by
        rw [h.held, howned, FrameInfo.owned, hp]
        show _ + (_ + (p.owned + _)) = _
        abel
      obtain ⟨-, hctx, hready, hheld⟩ := Cmd.wp_runs (E := libEnv egl .free)
        (drmtapFrameRelease_lib hfast.ready hp (h.intact.valid frame hmem p hp) hsum) hr
      refine ⟨hctx, hready, ?_⟩
      rw [hsum, ← hheld, FrameInfo.owned, hp]
      rfl
  obtain ⟨hctx, hready, hheld⟩ := hdone
  have hfast' : m.Fast := by
    refine hfast.of_same hready (by rw [hctx]; exact ⟨rfl, rfl⟩) fun i t ht hw hp => ?_
    have hb : t.base ∉ frame.blocks := by
      intro hb
      exact ((h.intact.spared _ (mem_claimed.mpr (.inl ⟨frame, hmem, hb⟩))).slots i).mapped t ht rfl
    obtain ⟨hsp, hsame⟩ := release_spares hb (hfast.slot_spared hw hp) hr
    refine ⟨hw.congr hsame, hsp.isPrivate fun hlent => hp.1 (.inl ?_)⟩
    rwa [hctx] at hlent
  have hu : m.ctx.userOut = s.user := by
    rw [hctx]
    rfl
  have hperm := claimed_frame hs
  refine ⟨h.intact.restrict hperm (fun f hf => ?_) (fun _ hc => hc) hfast' hu h.intact.lent
    fun b hb hsp => release_spares hb hsp hr, ?_⟩
  · rw [hs]
    simp only [List.mem_append, List.mem_cons] at hf ⊢
    tauto
  · show held = m.ctx.owned + (m.sockets + _)
    have hsum := h.held
    rw [hheld, howned] at hsum
    rw [Machine.sockets, hctx]
    refine add_left_cancel (a := frame.owned) (hsum.trans ?_)
    show _ + (s.machine.sockets + _) = _ + (_ + (s.machine.sockets + _))
    abel

/-- Memory that the caller allocates is new. -/
theorem Intact.alloc_spared (h : s.Intact) (size : ℕ) (byte : ℕ → UInt8) :
    Machine.Spared (SlotsSpared s.machine.heap.next) s.machine.heap.next
      { s.machine with heap := (s.machine.heap.alloc size byte).2 } := by
  refine Machine.Private.spared (h.fast.alloc size byte) ?_ (Nat.lt_succ_self _) ?_
  · exact h.fast.ready.private_next le_rfl
  · intro i t ht
    exact ((h.fast.slots i).base_lt ht).ne

theorem Sound.allocate (h : s.Sound) (size : ℕ) (byte : ℕ → UInt8) :
    Sound ⟨{ s.machine with heap := (s.machine.heap.alloc size byte).2 }, s.held, s.frames,
      (s.machine.heap.alloc size byte).1 :: s.caller⟩ := by
  have hi := h.intact
  have hsame : ∀ {b}, b < s.machine.heap.next →
      (s.machine.heap.alloc size byte).2.block b = s.machine.heap.block b :=
    fun hb => Heap.alloc_block_of_lt hb _ _
  have hclaimed : ∀ b, b ∈ claimed ⟨{ s.machine with heap := (s.machine.heap.alloc size byte).2 },
      s.held, s.frames, (s.machine.heap.alloc size byte).1 :: s.caller⟩ ↔
      b = s.machine.heap.next ∨ b ∈ s.claimed := by
    intro b
    simp only [claimed, List.mem_append, List.map_cons, List.mem_cons]
    exact or_left_comm
  refine ⟨?_, h.held⟩
  constructor
  · exact hi.fast.alloc size byte
  · intro frame hframe p hp
    refine valid_of_kept hp (hi.valid frame hframe p hp) fun b hb => ?_
    obtain ⟨hlt, hpriv⟩ := (hi.valid frame hframe p hp).block hp hb
    exact ⟨hsame hlt, hpriv⟩
  · intro c hc
    rcases List.mem_cons.mp hc with rfl | hc
    · exact Heap.alloc_whole _ _ _
    · exact (hi.whole c hc).congr (hsame (hi.whole c hc).live.lt_next)
  · intro b hb
    rcases (hclaimed b).mp hb with rfl | hb
    · exact hi.alloc_spared size byte
    · exact (hi.spared b hb).of_heap (Nat.le_succ _)
  · have hperm : (claimed ⟨{ s.machine with heap := (s.machine.heap.alloc size byte).2 }, s.held,
        s.frames, (s.machine.heap.alloc size byte).1 :: s.caller⟩).Perm
        (s.machine.heap.next :: s.claimed) := List.perm_middle
    refine hperm.nodup_iff.mpr (List.nodup_cons.mpr ⟨fun hmem => ?_, hi.nodup⟩)
    exact lt_irrefl _ (hi.spared _ hmem).lt
  · intro u hu
    obtain ⟨c, hc, hbase⟩ := hi.lent u hu
    exact ⟨c, List.mem_cons_of_mem _ hc, hbase⟩

theorem Sound.deallocate (h : s.Sound) {before after : List Slice} {c : Slice}
    (hs : s.caller = before ++ c :: after) (hfree : ¬ Lent s.user c.base) :
    Sound ⟨{ s.machine with heap := s.machine.heap.release c.base }, s.held, s.frames,
      before ++ after⟩ := by
  have hi := h.intact
  have hmem : c ∈ s.caller := by
    rw [hs]
    simp
  have hspared := hi.spared _ (mem_claimed.mpr (.inr ⟨c, hmem, rfl⟩))
  have hfast := hi.fast.release (hspared.isPrivate hfree) fun i => (hspared.slots i).mapped
  have hperm := List.singleton_append ▸ claimed_caller hs
  refine ⟨hi.restrict hperm (fun _ hf => hf) (fun c' hc' => ?_)
    hfast rfl (fun u hu => ?_) fun b hb hsp => ⟨hsp.of_heap le_rfl, ?_⟩, h.held⟩
  · rw [hs]
    simp only [List.mem_append, List.mem_cons] at hc' ⊢
    tauto
  · obtain ⟨c', hc', hbase, hlen⟩ := hi.lent u hu
    refine ⟨c', ?_, hbase, hlen⟩
    rw [hs] at hc'
    simp only [List.mem_append, List.mem_cons] at hc' ⊢
    rcases hc' with hc' | rfl | hc'
    · exact .inl hc'
    · exact absurd ⟨u, hu, hbase⟩ hfree
    · exact .inr hc'
  · refine Heap.release_block ?_
    rintro rfl
    exact hb (List.mem_singleton_self _)

/-- One step keeps the invariant. -/
theorem Sound.step (h : s.Sound) (hstep : SessionStep egl s s') : s'.Sound := by
  cases hstep with
  | grab entry frame hr => exact h.grab hr
  | call call hfair hr => exact h.call hfair hr
  | release hs hr => exact h.release hs hr
  | allocate size byte => exact h.allocate size byte
  | deallocate hs hfree => exact h.deallocate hs hfree

theorem opened_sound (driver : String) : (opened driver).Sound where
  intact :=
    { fast := (Machine.opened_ready driver).fast fun _ => rfl
      valid := by simp [opened]
      whole := by simp [opened]
      spared := by simp [opened, claimed]
      nodup := by simp [opened, claimed]
      lent := by simp [opened, user, Machine.opened, Ctx.opened] }
  held := by
    have hctx : (Machine.opened driver).ctx.owned = 0 := Ctx.owned_eq_zero fun _ => rfl
    have hsock : (Machine.opened driver).sockets = 0 := by
      simp [Machine.sockets, Machine.opened, Ctx.opened, fdOf]
    show 0 = (Machine.opened driver).ctx.owned + ((Machine.opened driver).sockets + 0)
    rw [hctx, hsock]
    rfl

/-- Every run of a session keeps it. -/
theorem Sound.run (h : s.Sound) (hrun : Relation.ReflTransGen (SessionStep egl) s s') :
    s'.Sound := by
  induction hrun with
  | refl => exact h
  | tail _ hstep ih => exact ih.step hstep

end Steps

end Session

end Drmtap
