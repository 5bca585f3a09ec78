import Drmtap.Grab
import Drmtap.Lib.Ledger
import Drmtap.Pipeline

/-! What the library holds: GEM handles, descriptors, mappings, private records, and the windows
of CPU access to a dma-buf. -/
namespace Drmtap

open Memory Effect

inductive Resource where
  | handle (h : UInt32)
  | fd (fd : ℤ)
  | mapping
  | record
  | window (fd : ℤ)
deriving DecidableEq

def handleOf (h : UInt32) : Multiset Resource := if h = 0 then 0 else {.handle h}

def fdOf (fd : ℤ) : Multiset Resource := if 0 ≤ fd then {.fd fd} else 0

theorem fdOf_natCast (fd : ℕ) : fdOf fd = {.fd fd} := if_pos (Int.natCast_nonneg fd)

def mappingOf (mapped : Option Slice) : Multiset Resource :=
  if mapped.isSome then {.mapping} else 0

def windowOf (started : Bool) (fd : ℤ) : Multiset Resource := if started then {.window fd} else 0

/-- The handles a GetFB2 mints: one for each buffer object, whose planes share it. -/
def Fb2.objects (fb2 : Fb2) : Multiset Resource :=
  ((Finset.univ.image fb2.handles).erase 0).val.map .handle

def libLedger : Ledger Op Ans Resource where
  takes
    | .getFB2 _, .ok fb2 => fb2.objects
    | .primeHandleToFD _, .ok fd => {.fd fd}
    | .mmap _ _ _, .ok _ => {.mapping}
    | .callocPriv, true => {.record}
    | .dmabufSyncStart fd, true => {.window fd}
    | .helperSpawn, .ok (fd, _) => {.fd fd}
    | .recvmsg _ _, .ok msg => (msg.fds : Multiset ℕ).map fun fd : ℕ => Resource.fd fd
    | _, _ => 0
  gives
    | .gemClose h => some (.handle h)
    | .close fd => if 0 ≤ fd then some (.fd fd) else none
    | .munmap _ => some .mapping
    | .freePriv _ => some .record
    | .dmabufSyncEnd fd => some (.window fd)
    | _ => none

/-- Every answer is possible that the calls document: `recv` keeps to its buffer, a descriptor
comes with at least one byte, and `egl` is a static property of the device. -/
def libAns (egl : Prop) : (o : Op) → Ans o → Prop
  | .eglAvailable, r => r = true ↔ egl
  | .recv _ len, .ok bytes => bytes.length ≤ len
  | .recvmsg _ _, .ok msg => msg.bytes = [] → msg.fds = []
  | _, _ => True

/-- The calls that open or may cut off a window. -/
def WindowOp : Op → Prop
  | .dmabufSyncStart _ | .close _ => True
  | _ => False

/-- A discipline for windows, beside the ledger. -/
structure WindowRule where
  allows : Multiset Resource → Op → Prop
  others : ∀ o, ¬ WindowOp o → ∀ held, allows held o

def WindowRule.free : WindowRule := ⟨fun _ _ => True, fun _ _ _ => trivial⟩

abbrev libEnv (egl : Prop) (g : WindowRule) : Env := (libLedger.env (libAns egl)).guard g.allows

/-- Calls that neither take nor give, in any discipline. -/
def LibQuiet (o : Op) : Prop := libLedger.Neutral o ∧ ¬ WindowOp o

theorem scanoutOp_quiet {o : Op} (ho : ScanoutOp o) : LibQuiet o := by
  rcases ho with ho | rfl
  · cases o <;> first | exact ho.elim | exact ⟨⟨rfl, fun r => by cases r <;> rfl⟩, id⟩
  · exact ⟨⟨rfl, fun r => by cases r <;> rfl⟩, id⟩

theorem pipeOp_quiet {o : Op} (ho : PipeOp o) : LibQuiet o := by
  cases o <;> first | exact ho.elim | exact ⟨⟨rfl, fun r => by cases r <;> rfl⟩, id⟩

section Rules
variable {egl : Prop} {g : WindowRule} {m : Machine} {held rest : Multiset Resource}

theorem libEnv_quiet {P : Op → Prop} (hP : ∀ o, P o → LibQuiet o) :
    (libEnv egl g).Quiet P (libAns egl) :=
  Env.Quiet.guard (fun o ho => Ledger.quiet _ _ o (hP o ho).1) fun o ho => g.others o (hP o ho).2

theorem libEnv_pipe : (libEnv egl g).Quiet PipeOp (PipeAns egl) := by
  have hquiet : (libEnv egl g).Quiet PipeOp (libAns egl) := libEnv_quiet fun _ => pipeOp_quiet
  intro o ho held
  obtain ⟨hl, hs⟩ := hquiet o ho held
  refine ⟨hl, fun r held' h => ⟨?_, (hs r held' h).2⟩⟩
  have hA := (hs r held' h).1
  cases o <;> first | exact ho.elim | exact hA

theorem libEnv_scanout : (libEnv egl g).Quiet ScanoutOp fun _ _ => True := by
  have hquiet : (libEnv egl g).Quiet ScanoutOp (libAns egl) :=
    libEnv_quiet fun _ => scanoutOp_quiet
  intro o ho held
  obtain ⟨hl, hs⟩ := hquiet o ho held
  exact ⟨hl, fun r held' h => ⟨trivial, (hs r held' h).2⟩⟩

theorem lib_quiet {o : Op} {Q : Ans o → Machine → Multiset Resource → Prop}
    (ho : LibQuiet o) (h : ∀ r, libAns egl o r → Q r m held) :
    Cmd.wp (libEnv egl g) (sys o) Q m held :=
  Cmd.wp_guard_call.mpr ⟨g.others o ho.2 held, Ledger.wp_neutral ho.1 h⟩

theorem lib_take {o : Op} {Q : Ans o → Machine → Multiset Resource → Prop}
    (ho : libLedger.gives o = none) (hg : g.allows held o)
    (h : ∀ r, libAns egl o r → Q r m (libLedger.takes o r + held)) :
    Cmd.wp (libEnv egl g) (sys o) Q m held :=
  Cmd.wp_guard_call.mpr ⟨hg, Ledger.wp_take ho h⟩

theorem lib_give {o : Op} {k : Resource} {Q : Ans o → Machine → Multiset Resource → Prop}
    (ho : libLedger.gives o = some k) (hz : ∀ r, libLedger.takes o r = 0) (hg : g.allows held o)
    (hh : held = {k} + rest) (h : ∀ r, Q r m rest) : Cmd.wp (libEnv egl g) (sys o) Q m held := by
  subst hh
  exact Cmd.wp_guard_call.mpr ⟨hg, Ledger.wp_give ho hz fun r _ => h r⟩

theorem lib_mmap {src : MapSource} {size off : ℕ}
    {Q : Except Errno Slice → Machine → Multiset Resource → Prop} (he : ∀ e, Q (.error e) m held)
    (hok : ∀ bytes, Q (.ok (m.heap.alloc size bytes).1)
      { m with heap := (m.heap.alloc size bytes).2 } ({.mapping} + held)) :
    Cmd.wp (libEnv egl g) (mmap src size off) Q m held := by
  rw [wp_mmap]
  refine ⟨⟨?_, g.others _ id held⟩, ?_, ?_⟩
  · rintro _ ⟨⟩
  · rintro e _ ⟨-, rfl⟩
    simpa [Ledger.after, libLedger] using he e
  · rintro bytes _ ⟨-, rfl⟩
    exact hok bytes

theorem lib_munmap {b : Slice} {Q : Unit → Machine → Multiset Resource → Prop}
    (hb : m.heap.Whole b) (hh : held = {.mapping} + rest)
    (hQ : Q () { m with heap := m.heap.release b.base } rest) :
    Cmd.wp (libEnv egl g) (munmap b) Q m held := by
  subst hh
  rw [wp_munmap]
  refine ⟨⟨?_, g.others _ id _⟩, ?_⟩
  · rintro _ ⟨⟩
    exact Multiset.mem_cons_self _ _
  · rintro r _ ⟨-, rfl⟩
    exact ⟨_, hb.free, by simpa [Ledger.after, libLedger] using hQ⟩

theorem lib_callocPriv {Q : Option Slice → Machine → Multiset Resource → Prop}
    (hnone : Q none m held)
    (hsome : Q (some (m.heap.alloc sizeofFramePriv 0).1)
      { m with heap := (m.heap.alloc sizeofFramePriv 0).2 } ({.record} + held)) :
    Cmd.wp (libEnv egl g) callocPriv Q m held := by
  rw [wp_callocPriv]
  refine ⟨⟨?_, g.others _ id held⟩, ?_, ?_⟩
  · rintro _ ⟨⟩
  · rintro _ ⟨-, rfl⟩
    simpa [Ledger.after, libLedger] using hnone
  · rintro _ ⟨-, rfl⟩
    exact hsome

theorem lib_freePriv {b : Slice} {Q : Unit → Machine → Multiset Resource → Prop}
    (hb : m.heap.Whole b) (hh : held = {.record} + rest)
    (hQ : Q () { m with heap := m.heap.release b.base } rest) :
    Cmd.wp (libEnv egl g) (freePriv b) Q m held := by
  subst hh
  rw [wp_freePriv]
  refine ⟨⟨?_, g.others _ id _⟩, ?_⟩
  · rintro _ ⟨⟩
    exact Multiset.mem_cons_self _ _
  · rintro r _ ⟨-, rfl⟩
    exact ⟨_, hb.free, by simpa [Ledger.after, libLedger] using hQ⟩

theorem drmtapGemClose_spec {h : UInt32} {Q : Unit → Machine → Multiset Resource → Prop}
    (hh : held = handleOf h + rest) (hQ : Q () m rest) :
    Cmd.wp (libEnv egl g) (drmtapGemClose h) Q m held := by
  subst hh
  rw [drmtapGemClose, Cmd.wp_ite]
  constructor
  · intro h0
    simpa [handleOf, h0] using hQ
  · intro h0
    exact lib_give rfl (fun _ => rfl) (g.others _ id _) (by rw [handleOf, if_neg h0]) fun _ => hQ

/-- The handle of one plane, unless an earlier plane has the same one. -/
def Fb2.auxiliary (fb2 : Fb2) (p : Fin 4) : Multiset Resource :=
  if fb2.handles p = 0 ∨ fb2.handles p = fb2.handles 0 ∨
      ∃ q : Fin 4, 1 ≤ q.val ∧ q < p ∧ fb2.handles q = fb2.handles p then 0
  else handleOf (fb2.handles p)

theorem handles_insert (a : UInt32) (s : Finset UInt32) :
    (((insert a s).erase 0).val.map Resource.handle) =
      (if a = 0 ∨ a ∈ s then 0 else {Resource.handle a}) + (s.erase 0).val.map .handle := by
  by_cases h0 : a = 0
  · simp [h0, Finset.erase_insert_eq_erase]
  · by_cases hs : a ∈ s
    · simp [h0, hs]
    · have hs' : a ∉ s.erase 0 := fun h => hs (Finset.mem_of_mem_erase h)
      rw [Finset.erase_insert_of_ne h0, Finset.insert_val_of_notMem hs']
      simp [h0, hs]

theorem Fb2.objects_eq (fb2 : Fb2) : fb2.objects =
    fb2.auxiliary 3 + (fb2.auxiliary 2 + (fb2.auxiliary 1 + handleOf (fb2.handles 0))) := by
  have huniv : (Finset.univ : Finset (Fin 4)) = {3, 2, 1, 0} := by decide
  have haux : ∀ p : Fin 4, fb2.auxiliary p = if fb2.handles p = 0 ∨ fb2.handles p = fb2.handles 0 ∨
      ∃ q : Fin 4, 1 ≤ q.val ∧ q < p ∧ fb2.handles q = fb2.handles p then 0
    else {.handle (fb2.handles p)} := by
    intro p
    unfold Fb2.auxiliary handleOf
    split_ifs <;> tauto
  have h0 : ((({fb2.handles 0} : Finset UInt32).erase 0).val.map Resource.handle) =
      handleOf (fb2.handles 0) := by
    unfold handleOf
    split_ifs with h
    · simp [h]
    · rw [Finset.erase_eq_of_notMem (by simpa using Ne.symm h)]
      rfl
  unfold Fb2.objects
  rw [huniv]
  simp only [Finset.image_insert, Finset.image_singleton]
  rw [handles_insert, handles_insert, handles_insert, h0, haux, haux, haux]
  have h3 : (∃ q : Fin 4, 1 ≤ q.val ∧ q < 3 ∧ fb2.handles q = fb2.handles 3) ↔
      fb2.handles 3 = fb2.handles 2 ∨ fb2.handles 3 = fb2.handles 1 := by
    constructor
    · rintro ⟨q, hq, hlt, he⟩
      fin_cases q <;> simp_all
    · rintro (he | he)
      · exact ⟨2, by decide, by decide, he.symm⟩
      · exact ⟨1, by decide, by decide, he.symm⟩
  have h2 : (∃ q : Fin 4, 1 ≤ q.val ∧ q < 2 ∧ fb2.handles q = fb2.handles 2) ↔
      fb2.handles 2 = fb2.handles 1 := by
    constructor
    · rintro ⟨q, hq, hlt, he⟩
      fin_cases q <;> simp_all
    · exact fun he => ⟨1, by decide, by decide, he.symm⟩
  have h1 : ¬ ∃ q : Fin 4, 1 ≤ q.val ∧ q < 1 ∧ fb2.handles q = fb2.handles 1 := by
    rintro ⟨q, hq, hlt, -⟩
    fin_cases q <;> simp_all
  simp only [h3, h2, h1, or_false, Finset.mem_insert, Finset.mem_singleton]
  congr 1
  · exact if_congr (by tauto) rfl rfl
  · congr 1
    exact if_congr (by tauto) rfl rfl

theorem closeAuxiliary_spec {fb2 : Fb2} {p : Fin 4}
    {Q : Unit → Machine → Multiset Resource → Prop} (hh : held = fb2.auxiliary p + rest)
    (hQ : Q () m rest) : Cmd.wp (libEnv egl g) (closeAuxiliary fb2 p) Q m held := by
  unfold closeAuxiliary
  rw [Cmd.wp_ite]
  constructor
  · intro hdup
    rw [Fb2.auxiliary, if_pos hdup, zero_add] at hh
    exact hh ▸ hQ
  · intro hdup
    rw [Fb2.auxiliary, if_neg hdup] at hh
    exact drmtapGemClose_spec hh hQ

/-- What is left of a GetFB2 is the handle of its first plane. -/
theorem closeAuxiliaryGemHandles_spec {fb2 : Fb2} {Q : Unit → Machine → Multiset Resource → Prop}
    (hh : held = fb2.objects + rest) (hQ : Q () m (handleOf (fb2.handles 0) + rest)) :
    Cmd.wp (libEnv egl g) (closeAuxiliaryGemHandles fb2) Q m held := by
  unfold closeAuxiliaryGemHandles
  simp only [Cmd.wp_bind]
  refine closeAuxiliary_spec (p := 1) ?_ (closeAuxiliary_spec (p := 2) rfl
    (closeAuxiliary_spec (p := 3) rfl hQ))
  rw [hh, Fb2.objects_eq]
  abel

/-! Mapping -/

theorem virtioTransferFromHost_lib (handle width height : UInt32) :
    Cmd.wp (libEnv egl g) (virtioTransferFromHost handle width height)
      (fun _ m' held' => m' = m ∧ held' = held) m held := by
  unfold virtioTransferFromHost
  rw [Cmd.wp_bind]
  refine lib_quiet ⟨⟨rfl, fun r => by cases r <;> rfl⟩, id⟩ ?_
  rintro (_ | e) -
  · exact lib_quiet ⟨⟨rfl, fun r => by cases r <;> rfl⟩, id⟩ fun _ _ => ⟨rfl, rfl⟩
  · exact ⟨rfl, rfl⟩

/-- A new mapping of `size` bytes, or none. -/
def NewMapping (m : Machine) (held : Multiset Resource) (size : ℕ) (s : Option Slice)
    (m' : Machine) (held' : Multiset Resource) : Prop :=
  match s with
  | none => m' = m ∧ held' = held
  | some s => ∃ bytes, s = (m.heap.alloc size bytes).1 ∧
      m' = { m with heap := (m.heap.alloc size bytes).2 } ∧ held' = {.mapping} + held

theorem mapVirtio_lib (fb2 : Fb2) (size : ℕ) :
    Cmd.wp (libEnv egl g) (mapVirtio fb2 size) (NewMapping m held size) m held := by
  unfold mapVirtio
  simp only [Cmd.wp_bind, wp_getCtx, Cmd.wp_ite, Cmd.wp_pure]
  refine ⟨fun _ => ?_, fun _ => ⟨rfl, rfl⟩⟩
  refine Cmd.wp_mono (virtioTransferFromHost_lib _ _ _) ?_
  rintro (_ | e) _ _ ⟨rfl, rfl⟩
  · unfold virtioDumbMmap
    simp only [Cmd.wp_bind]
    refine lib_quiet ⟨⟨rfl, fun r => by cases r <;> rfl⟩, id⟩ ?_
    rintro (e | off) -
    · exact ⟨rfl, rfl⟩
    · exact lib_mmap (fun _ => ⟨rfl, rfl⟩) fun bytes => ⟨bytes, rfl, rfl, rfl⟩
  · exact ⟨rfl, rfl⟩

theorem mapFramebuffer_lib (fb2 : Fb2) (primeFd : ℤ) (size : ℕ) :
    Cmd.wp (libEnv egl g) (mapFramebuffer fb2 primeFd size)
      (fun r => NewMapping m held size (r.toOption.map Prod.fst)) m held := by
  unfold mapFramebuffer
  rw [Cmd.wp_bind]
  refine Cmd.wp_mono (mapVirtio_lib fb2 size) ?_
  rintro (_ | s) m₁ held₁ h
  · obtain ⟨rfl, rfl⟩ := h
    rw [Cmd.wp_bind]
    exact lib_mmap (fun _ => ⟨rfl, rfl⟩) fun bytes => ⟨bytes, rfl, rfl, rfl⟩
  · exact h

/-! Descriptors over the socket -/

theorem lib_close {fd : ℤ} {Q : Unit → Machine → Multiset Resource → Prop} (hg : g.allows held (.close fd))
    (hh : held = fdOf fd + rest) (hQ : Q () m rest) :
    Cmd.wp (libEnv egl g) (sys (.close fd)) Q m held := by
  by_cases hfd : 0 ≤ fd
  · exact lib_give (if_pos hfd) (fun _ => rfl) hg (by rw [hh, fdOf, if_pos hfd]) fun _ => hQ
  · rw [fdOf, if_neg hfd, zero_add] at hh
    subst hh
    exact lib_take (if_neg hfd) hg fun _ _ => by simpa [libLedger] using hQ

theorem closeFd_lib {fd : ℤ} {Q : Unit → Machine → Multiset Resource → Prop}
    (hg : 0 ≤ fd → g.allows held (.close fd)) (hh : held = fdOf fd + rest) (hQ : Q () m rest) :
    Cmd.wp (libEnv egl g) (closeFd fd) Q m held := by
  rw [closeFd, Cmd.wp_ite]
  constructor
  · intro hfd
    exact lib_close (hg hfd) hh hQ
  · intro hfd
    rw [fdOf, if_neg hfd, zero_add] at hh
    exact hh ▸ hQ

theorem closeAll_lib (fds : List ℕ) {held : Multiset Resource}
    {Q : Unit → Machine → Multiset Resource → Prop}
    (hh : held = (fds : Multiset ℕ).map (fun fd : ℕ => Resource.fd fd) + rest) (hQ : Q () m rest) :
    Cmd.wp (libEnv egl .free) (closeAll fds) Q m held := by
  induction fds generalizing held with
  | nil => simpa [closeAll, hh] using hQ
  | cons fd fds ih =>
    rw [closeAll, Cmd.wp_bind]
    refine lib_close trivial ?_ (ih rfl)
    rw [hh, fdOf_natCast, ← Multiset.cons_coe, Multiset.map_cons, Multiset.singleton_add,
      Multiset.cons_add]

theorem recv_quiet (fd : ℤ) (len : ℕ) : LibQuiet (.recv fd len) :=
  ⟨⟨rfl, fun r => by cases r <;> rfl⟩, id⟩

theorem send_quiet (fd : ℤ) (bytes : List UInt8) : LibQuiet (.send fd bytes) :=
  ⟨⟨rfl, fun r => by cases r <;> rfl⟩, id⟩

/-- What is received whole has the length asked for. -/
theorem wireRecvAll_lib (sock : ℤ) (len : ℕ) :
    Cmd.wp (libEnv egl g) (wireRecvAll sock len)
      (fun r m' held' => (∀ bytes, r = some bytes → bytes.length = len) ∧ m' = m ∧ held' = held)
      m held := by
  refine Cmd.wp_loop (fun got m' held' => got.length ≤ len ∧ m' = m ∧ held' = held)
    ⟨Nat.zero_le _, rfl, rfl⟩ ?_
  rintro got _ _ ⟨hle, rfl, rfl⟩
  simp only [Cmd.wp_ite, Cmd.wp_pure, Cmd.wp_bind, Sum.elim_inr]
  refine ⟨fun hlen => ⟨?_, trivial, trivial⟩, fun hlen => ?_⟩
  · rintro _ ⟨⟩
    omega
  · refine lib_quiet (recv_quiet _ _) ?_
    rintro (e | bytes) hA
    · simp only [Cmd.wp_ite, Cmd.wp_pure, Sum.elim_inl, Sum.elim_inr]
      exact ⟨fun _ => ⟨hle, trivial, trivial⟩, fun _ => ⟨by simp, trivial, trivial⟩⟩
    · simp only [Cmd.wp_ite, Cmd.wp_pure, Sum.elim_inl, Sum.elim_inr]
      have hb : bytes.length ≤ len - got.length := hA
      exact ⟨fun _ => ⟨by simp, trivial, trivial⟩,
        fun _ => ⟨by rw [List.length_append]; omega, trivial, trivial⟩⟩

/-- A reply brings at most the descriptor that is returned. -/
theorem wireRecvFd_lib (sock : ℤ) (len : ℕ) :
    Cmd.wp (libEnv egl .free) (wireRecvFd sock len)
      (fun r m' held' => m' = m ∧ held' = r.elim 0 (fun x => fdOf x.2) + held) m held := by
  rw [wireRecvFd_eq, Cmd.wp_bind]
  refine lib_take rfl trivial ?_
  rintro (e | msg) hA
  · exact ⟨rfl, rfl⟩
  · simp only [Cmd.wp_ite, Cmd.wp_pure]
    refine ⟨fun hempty => ?_, fun _ => ?_⟩
    · have hnone : msg.fds = [] := hA hempty
      simp [libLedger, hnone]
    · have hfirst : (msg.fds : Multiset ℕ).map (fun fd : ℕ => Resource.fd fd) + held =
          (msg.fds.tail : Multiset ℕ).map (fun fd : ℕ => Resource.fd fd) +
            (fdOf ((msg.fds.head?.map Nat.cast).getD (-1)) + held) := by
        cases msg.fds with
        | nil => simp [fdOf]
        | cons fd fds =>
          simp only [List.head?_cons, Option.map_some, Option.getD_some, List.tail_cons]
          rw [fdOf_natCast, ← Multiset.cons_coe, Multiset.map_cons, ← Multiset.singleton_add]
          abel
      rw [Cmd.wp_bind]
      refine closeAll_lib _ hfirst ?_
      simp only [Cmd.wp_ite, Cmd.wp_bind, Cmd.wp_pure]
      refine ⟨fun _ => closeFd_lib (fun _ => trivial) rfl ⟨rfl, (zero_add _).symm⟩, fun _ =>
        ⟨fun _ => ?_, fun _ => ⟨trivial, rfl⟩⟩⟩
      refine Cmd.wp_mono (wireRecvAll_lib sock _) ?_
      rintro (_ | rest) _ _ ⟨-, rfl, rfl⟩
      · rw [Cmd.wp_bind]
        exact lib_close trivial rfl ⟨rfl, (zero_add _).symm⟩
      · exact ⟨rfl, rfl⟩

end Rules

end Drmtap
