import Drmtap.Lib.Liberal
import Drmtap.Wire

/-! The descriptors that `wire_recv_fd` receives: whatever blocks a message has, each of them is
handed to the caller or closed, once. -/
namespace Drmtap

open Effect

/-- The message that was received, and what was closed since, in order. -/
structure DescriptorLog where
  message : Option Message
  closes : List ℤ

def noteDescriptors (d : DescriptorLog) : (o : Op) → Ans o → DescriptorLog
  | .recvmsg _ _, (r : Except Errno Message) => { d with message := r.toOption }
  | .close fd, _ => { d with closes := d.closes ++ [fd] }
  | _, _ => d

/-- What the kernel promises of a message on a stream: descriptors come with bytes, and get
numbers of their own. -/
def Installs : (o : Op) → Ans o → Prop
  | .recvmsg _ _, (r : Except Errno Message) =>
    ∀ msg, r = .ok msg → (msg.bytes = [] → msg.fds = []) ∧ msg.fds.Nodup
  | _, _ => True

abbrev descriptorEnv : Effect.Env Op Ans :=
  (Effect.Env.noting noteDescriptors).restrict fun _ => Installs

/-- Every descriptor that was installed is accounted for. -/
structure Accounts (result : Option (List UInt8)) (outFd : ℤ) (d : DescriptorLog) : Prop where
  success : ∀ bytes, result = some bytes → ∃ msg, d.message = some msg ∧ msg.ctrunc = false ∧
    ((msg.fds = [] ∧ outFd = -1) ∨ ∃ fd : ℕ, msg.fds = [fd] ∧ outFd = fd ∧ (fd : ℤ) ∉ d.closes)
  failure : result = none → outFd = -1 ∧
    ∀ msg, d.message = some msg → ∀ fd ∈ msg.fds, (fd : ℤ) ∈ d.closes
  once : ∀ msg, d.message = some msg → ∀ fd ∈ msg.fds, d.closes.count (fd : ℤ) ≤ 1

def RecvOp : Op → Prop
  | .recv _ _ => True
  | _ => False

section Receive
variable {S : Type} {st : S} {d : DescriptorLog}

theorem recvmsg_notes {sock : ℤ} {len : ℕ} {Q : Except Errno Message → S → DescriptorLog → Prop}
    (hQ : ∀ r : Except Errno Message, Installs (.recvmsg sock len) r →
      Q r st { d with message := r.toOption }) :
    Cmd.wp descriptorEnv (sys (.recvmsg sock len)) Q st d := by
  refine ⟨trivial, ?_⟩
  rintro r _ ⟨rfl, hr⟩
  exact hQ r hr

theorem close_notes {fd : ℤ} {Q : Unit → S → DescriptorLog → Prop}
    (hQ : Q () st { d with closes := d.closes ++ [fd] }) :
    Cmd.wp descriptorEnv (sys (.close fd)) Q st d := by
  refine ⟨trivial, ?_⟩
  rintro r _ ⟨rfl, -⟩
  exact hQ

theorem closeAll_notes (fds : List ℕ) {Q : Unit → S → DescriptorLog → Prop}
    (hQ : Q () st { d with closes := d.closes ++ fds.map Nat.cast }) :
    Cmd.wp descriptorEnv (closeAll fds) Q st d := by
  induction fds generalizing d with
  | nil =>
    simp only [List.map_nil, List.append_nil] at hQ
    exact hQ
  | cons fd fds ih =>
    rw [closeAll, Cmd.wp_bind]
    apply close_notes
    apply ih
    simpa using hQ

theorem wireRecvAll_reads (sock : ℤ) (len : ℕ) :
    Cmd.Reads RecvOp (wireRecvAll (S := S) sock len) := by
  apply Cmd.Reads.loop
  intro got
  apply Cmd.Reads.ite (.pure _)
  apply Cmd.Reads.bind (.call trivial)
  rintro (e | bytes)
  · exact .ite (.pure _) (.pure _)
  · exact .ite (.pure _) (.pure _)

theorem recv_quiet_notes : descriptorEnv.Quiet RecvOp fun _ _ => True := by
  intro o ho d
  cases o <;> try exact ho.elim
  exact ⟨trivial, fun _ _ h => ⟨trivial, h.1⟩⟩

theorem wireRecvAll_notes (sock : ℤ) (len : ℕ) :
    Cmd.wp descriptorEnv (wireRecvAll sock len) (fun _ st' d' => st' = st ∧ d' = d) st d :=
  (wireRecvAll_reads sock len).wp recv_quiet_notes st d

/-- The descriptor that is kept, once the others are closed. -/
def keptFd (msg : Message) : ℤ := (msg.fds.head?.map Nat.cast).getD (-1)

theorem keptFd_nonneg {msg : Message} : 0 ≤ keptFd msg ↔ msg.fds ≠ [] := by
  unfold keptFd
  cases msg.fds <;> simp

theorem cast_count (fds : List ℕ) (hn : fds.Nodup) (fd : ℤ) :
    (fds.map Nat.cast).count fd ≤ 1 :=
  List.nodup_iff_count_le_one.mp (hn.map Nat.cast_injective) fd

/-- A refusal, once the kept descriptor is closed too, if there is one. -/
theorem Accounts.refused {msg : Message} (hn : msg.fds.Nodup) {last : List ℤ}
    (hlast : msg.fds ≠ [] → last = [keptFd msg]) :
    Accounts none (-1) ⟨some msg, msg.fds.tail.map Nat.cast ++ last⟩ := by
  cases hfds : msg.fds with
  | nil =>
    constructor
    · intro bytes h
      simp at h
    · rintro -
      refine ⟨rfl, ?_⟩
      intro msg' h
      cases h
      simp [hfds]
    · intro msg' h
      cases h
      simp [hfds]
  | cons fd fds =>
    have hlast' : last = [(fd : ℤ)] := by
      rw [hlast (by simp [hfds])]
      simp [keptFd, hfds]
    subst hlast'
    constructor
    · intro bytes h
      simp at h
    · rintro -
      refine ⟨rfl, ?_⟩
      intro msg' h fd' hfd'
      cases h
      rw [hfds, List.mem_cons] at hfd'
      rcases hfd' with rfl | hfd'
      · simp
      · simp [hfd']
    · intro msg' h fd' hfd'
      cases h
      have hcount : ((fd :: fds).map Nat.cast).count (fd' : ℤ) ≤ 1 :=
        cast_count _ (hfds ▸ hn) _
      simp only [List.tail_cons, List.count_append, List.map_cons, List.count_cons,
        List.count_nil] at hcount ⊢
      omega

/-- The one descriptor, or none, of a message that is accepted. -/
theorem Accounts.accepted {msg : Message} (htrunc : msg.ctrunc = false)
    (hone : msg.fds.length ≤ 1) (bytes : List UInt8) :
    Accounts (some bytes) (keptFd msg) ⟨some msg, msg.fds.tail.map Nat.cast⟩ := by
  unfold keptFd
  match hfds : msg.fds with
  | [] => exact ⟨fun _ _ => ⟨msg, rfl, htrunc, .inl ⟨hfds, rfl⟩⟩, by simp, by simp⟩
  | [fd] =>
    exact ⟨fun _ _ => ⟨msg, rfl, htrunc, .inr ⟨fd, hfds, rfl, by simp⟩⟩, by simp, by simp⟩
  | _ :: _ :: _ =>
    rw [hfds] at hone
    simp at hone

/-- Whatever blocks a message has, whether it was truncated, and whether the rest of the frame
comes: each installed descriptor is handed out or closed, once. -/
theorem wireRecvFd_accounts (sock : ℤ) (len : ℕ) :
    Cmd.wp descriptorEnv (wireRecvFdOut sock len) (fun r _ d => Accounts r.1 r.2 d) st
      ⟨none, []⟩ := by
  rw [wireRecvFdOut, Cmd.wp_bind]
  apply recvmsg_notes
  rintro (e | msg) hmsg
  · exact ⟨by simp, by simp [Except.toOption], by simp [Except.toOption]⟩
  · obtain ⟨hempty, hn⟩ := hmsg msg rfl
    simp only [Cmd.wp_ite, Cmd.wp_pure, scanControl_eq, bind_assoc, pure_bind]
    refine ⟨fun hnil => ?_, fun _ => ?_⟩
    · have hfds : msg.fds = [] := hempty hnil
      exact ⟨by simp, by simp [Except.toOption, hfds], by simp [Except.toOption]⟩
    · rw [Cmd.wp_bind]
      apply closeAll_notes
      simp only [Cmd.wp_ite, Cmd.wp_bind, Cmd.wp_pure]
      refine ⟨fun hbad => ?_, fun hgood => ⟨fun _ => ?_, fun _ => ?_⟩⟩
      · rw [closeFd, Cmd.wp_ite]
        refine ⟨fun _ => ?_, fun hneg => ?_⟩
        · apply close_notes
          exact .refused hn fun _ => rfl
        · have hnone : msg.fds = [] := not_not.mp fun h => hneg (keptFd_nonneg.mpr h)
          have hdone : Accounts none (-1) ⟨some msg, msg.fds.tail.map Nat.cast ++ []⟩ :=
            .refused hn fun h => absurd hnone h
          rw [List.append_nil] at hdone
          exact hdone
      · apply Cmd.wp_mono (wireRecvAll_notes sock _)
        rintro (_ | rest) _ _ ⟨rfl, rfl⟩
        · rw [Cmd.wp_bind]
          apply close_notes
          exact .refused hn fun _ => rfl
        · exact .accepted (by simpa using fun h => hgood (.inl h)) (by omega) _
      · exact .accepted (by simpa using fun h => hgood (.inl h)) (by omega) _

end Receive

/-! Receptions of which the bytes are noted. -/

/-- The notes `take` the bytes that are received, which are no more than were asked for. -/
structure Hears {σ : Type} (note : σ → (o : Op) → Ans o → σ) (A : (o : Op) → Ans o → Prop)
    (take : σ → List UInt8 → σ) : Prop where
  nil : ∀ s, take s [] = s
  append : ∀ s b b', take (take s b) b' = take s (b ++ b')
  fails : ∀ s fd len e, note s (.recv fd len) (.error e) = s
  takes : ∀ s fd len b, note s (.recv fd len) (.ok b) = take s b
  within : ∀ fd len b, A (.recv fd len) (.ok b) → b.length ≤ len

theorem wireRecvAll_hears {S σ : Type} {note : σ → (o : Op) → Ans o → σ}
    {A : (o : Op) → Ans o → Prop} {take : σ → List UInt8 → σ} (h : Hears note A take) (fd : ℤ)
    (len : ℕ) {st : S} {s : σ} :
    Cmd.wlp ((Effect.Env.noting note).restrict fun _ => A) (wireRecvAll fd len)
      (fun r st' s' => st' = st ∧ ∃ got, s' = take s got ∧
        ∀ bytes, r = some bytes → bytes = got ∧ got.length = len) st s := by
  apply Cmd.wlp_loop (fun got st' s' => st' = st ∧ s' = take s got ∧ got.length ≤ len)
  · exact ⟨rfl, (h.nil s).symm, Nat.zero_le _⟩
  · rintro got _ _ ⟨rfl, rfl, hlen⟩
    rw [Cmd.wlp_ite]
    constructor
    · intro hle
      refine ⟨rfl, got, rfl, ?_⟩
      rintro _ ⟨⟩
      exact ⟨rfl, le_antisymm hlen hle⟩
    · intro hlt
      rw [Cmd.wlp_bind, Cmd.wlp_call]
      refine ⟨trivial, ?_⟩
      rintro r _ ⟨rfl, hr⟩
      cases r with
      | error e =>
        rw [h.fails]
        simp only [Cmd.wlp_ite, Cmd.wlp_pure, Sum.elim_inl, Sum.elim_inr]
        exact ⟨fun _ => ⟨trivial, trivial, hlen⟩, fun _ => ⟨trivial, got, rfl, by simp⟩⟩
      | ok bytes =>
        have hb := h.within fd _ bytes hr
        rw [h.takes, h.append]
        simp only [Cmd.wlp_ite, Cmd.wlp_pure, Sum.elim_inl, Sum.elim_inr]
        refine ⟨fun _ => ⟨trivial, _, rfl, by simp⟩, fun _ => ⟨trivial, trivial, ?_⟩⟩
        rw [List.length_append]
        omega

end Drmtap
