import Drmtap.FastLedger

/-! Runs of the fast path, up to the close of the context. -/
namespace Drmtap

open Memory Effect

/-- The calls of the fast path. -/
inductive FastCall where
  | grab (frame : FrameInfo)
  | cleanup

def FastCall.run : FastCall → M Unit
  | .grab frame => do
    let _ ← drmtapGrabMappedFast frame
    pure ()
  | .cleanup => drmtapFastCleanup

def runFast : List FastCall → M Unit
  | [] => pure ()
  | call :: calls => do
    call.run
    runFast calls

/-- What the slots in use record: one handle, one descriptor and one mapping each, and a window
if it is open. -/
def Ctx.recorded (c : Ctx) : Multiset Resource :=
  ∑ i, if (c.fastSlots i).fbId = 0 then 0
    else {.handle (c.fastSlots i).gemHandle} + ({.fd (c.fastSlots i).primeFd} +
      ({.mapping} + windowOf (c.fastSlots i).syncStarted (c.fastSlots i).primeFd))

/-- The fast path holds what its slots record, and no two of them record one framebuffer. -/
structure Machine.CacheOwns (m : Machine) (rest held : Multiset Resource) : Prop where
  held : held = m.ctx.recorded + (m.sockets + rest)
  fbIds : ∀ i j, i ≠ j → (m.ctx.fastSlots i).fbId ≠ 0 →
    (m.ctx.fastSlots i).fbId ≠ (m.ctx.fastSlots j).fbId

section Runs
variable {egl : Prop} {g : WindowRule} {m : Machine} {rest held : Multiset Resource}

theorem FastSlot.Cached.owned_eq {slot : FastSlot} (h : slot.Cached m) : slot.owned =
    {.handle slot.gemHandle} + ({.fd slot.primeFd} +
      ({.mapping} + windowOf slot.syncStarted slot.primeFd)) := by
  obtain ⟨b, hb, -⟩ := h.mapped
  rw [FastSlot.owned, handleOf, if_neg h.handle, fdOf, if_pos h.fd, mappingOf, hb]
  rfl

theorem Machine.Fast.owned_eq (hf : m.Fast) : m.ctx.owned = m.ctx.recorded := by
  refine Finset.sum_congr rfl fun i _ => ?_
  rcases hf.slots i with he | hc
  · rw [he, FastSlot.owned_empty]
    rfl
  · rw [hc.owned_eq, if_neg hc.fbId]

theorem Machine.Fast.cacheOwns (hf : m.Fast) (hh : held = m.ctx.owned + (m.sockets + rest)) :
    m.CacheOwns rest held :=
  ⟨hf.owned_eq ▸ hh, fun i j hij => (hf.apart i j hij).fbId⟩

/-- A context whose slots are empty. -/
theorem Machine.Ready.fast (hm : m.Ready) (he : ∀ i, m.ctx.fastSlots i = .empty) : m.Fast where
  ready := hm
  slots i := .inl (he i)
  apart i j _ := by
    rw [he i]
    exact .empty _
  idle _ := he

/-- One call keeps the invariant. -/
theorem FastCall.run_lib (hf : m.Fast) (hg : g.Allows rest) (call : FastCall)
    (hh : held = m.ctx.owned + (m.sockets + rest)) :
    Cmd.wp (libEnv egl g) call.run
      (fun _ m' held' => m'.Fast ∧ held' = m'.ctx.owned + (m'.sockets + rest)) m held := by
  have hin : WindowsIn rest (m.sockets + rest) :=
    (WindowsIn.of_windowless (windowless_fdOf _)).add (.self rest)
  cases call with
  | grab frame =>
    unfold FastCall.run
    rw [Cmd.wp_bind]
    refine Cmd.wp_mono (drmtapGrabMappedFast_lib hf hg hin hh) ?_
    rintro r m' held' hd
    refine ⟨hd.fast, ?_⟩
    rw [hd.held, Machine.sockets, Machine.sockets, hd.helperFd]
  | cleanup =>
    refine Cmd.wp_mono (drmtapFastCleanup_lib hf hg hin hh) ?_
    rintro _ m' _ ⟨hf', hctx, rfl⟩
    have hempty : m'.ctx.owned = 0 := by
      rw [hctx]
      exact Ctx.owned_eq_zero fun _ => rfl
    refine ⟨hf', ?_⟩
    rw [hempty, zero_add, Machine.sockets, Machine.sockets, hctx]
    rfl

theorem runFast_lib (hg : g.Allows rest) (calls : List FastCall) (hf : m.Fast)
    (hh : held = m.ctx.owned + (m.sockets + rest)) :
    Cmd.wp (libEnv egl g) (runFast calls)
      (fun _ m' held' => m'.Fast ∧ held' = m'.ctx.owned + (m'.sockets + rest)) m held := by
  induction calls generalizing m held with
  | nil => exact ⟨hf, hh⟩
  | cons call calls ih =>
    rw [runFast, Cmd.wp_bind]
    refine Cmd.wp_mono (call.run_lib hf hg hh) ?_
    rintro _ m₁ held₁ ⟨hf₁, hh₁⟩
    exact ih hf₁ hh₁

theorem runFast_close_lib {drmFd : ℤ} (hg : g.Allows rest) (calls : List FastCall) (hf : m.Fast)
    (hh : held = m.ctx.owned + (m.sockets + (fdOf drmFd + rest))) :
    Cmd.wp (libEnv egl g) (runFast calls >>= fun _ => drmtapClose drmFd)
      (fun _ _ held' => held' = rest) m held := by
  rw [Cmd.wp_bind]
  refine Cmd.wp_mono (runFast_lib (hg.add_fd drmFd) calls hf hh) ?_
  rintro _ m₁ held₁ ⟨hf₁, hh₁⟩
  exact Cmd.wp_mono (drmtapClose_lib hf₁ hg hh₁) fun _ _ _ h => h.2.2

end Runs

/-- After every call of a run the fast path holds what its slots in use record, and a close gives
all of it back, with the descriptor of the device. Nothing is given back that is not held. -/
theorem fast_cache_owns {egl : Prop} {m : Machine} (hm : m.Ready)
    (he : ∀ i, m.ctx.fastSlots i = .empty) (drmFd : ℤ) (rest : Multiset Resource)
    (calls : List FastCall) :
    Cmd.wp (libEnv egl .free) (runFast calls) (fun _ m' held' => m'.CacheOwns rest held')
        m (m.sockets + rest) ∧
      Cmd.wp (libEnv egl .free) (runFast calls >>= fun _ => drmtapClose drmFd)
        (fun _ _ held' => held' = rest) m (m.sockets + (fdOf drmFd + rest)) := by
  have hf := hm.fast he
  have hh (R : Multiset Resource) : m.sockets + R = m.ctx.owned + (m.sockets + R) := by
    rw [Ctx.owned_eq_zero he, zero_add]
  refine ⟨Cmd.wp_mono (runFast_lib (WindowRule.free_allows rest) calls hf (hh _)) ?_,
    runFast_close_lib (WindowRule.free_allows rest) calls hf (hh _)⟩
  rintro _ m' held' ⟨hf', hh'⟩
  exact hf'.cacheOwns hh'

theorem fast_cache_owns_opened :
    Cmd.wp (libEnv True .free)
      (runFast [.grab .cleared, .grab .cleared] >>= fun _ => drmtapClose 100)
      (fun _ _ held' => held' = 0) (.opened "i915")
      ((Machine.opened "i915").sockets + (fdOf 100 + 0)) :=
  (fast_cache_owns (Machine.opened_ready _) (fun _ => rfl) 100 0 [.grab .cleared, .grab .cleared]).2

/-- Every run keeps the windows paired: access is begun when no window is open, ended on the
descriptor whose window is open, and no descriptor is closed under its window. Between the calls
one slot at most has its window open, and a close leaves none. -/
theorem fast_windows_paired {egl : Prop} {m : Machine} (hm : m.Ready)
    (he : ∀ i, m.ctx.fastSlots i = .empty) (drmFd : ℤ) (rest : Multiset Resource)
    (calls : List FastCall) :
    Cmd.wp (libEnv egl (.paired rest)) (runFast calls)
        (fun _ m' held' => held' = m'.ctx.recorded + (m'.sockets + rest) ∧
          ∀ i j, (m'.ctx.fastSlots i).syncStarted = true →
            (m'.ctx.fastSlots j).syncStarted = true → i = j)
        m (m.sockets + rest) ∧
      Cmd.wp (libEnv egl (.paired rest)) (runFast calls >>= fun _ => drmtapClose drmFd)
        (fun _ _ held' => held' = rest) m (m.sockets + (fdOf drmFd + rest)) := by
  have hf := hm.fast he
  have hh (R : Multiset Resource) : m.sockets + R = m.ctx.owned + (m.sockets + R) := by
    rw [Ctx.owned_eq_zero he, zero_add]
  refine ⟨Cmd.wp_mono (runFast_lib (WindowRule.paired_allows rest) calls hf (hh _)) ?_,
    runFast_close_lib (WindowRule.paired_allows rest) calls hf (hh _)⟩
  rintro _ m' held' ⟨hf', hh'⟩
  refine ⟨hf'.owned_eq ▸ hh', fun i j hi hj => ?_⟩
  by_contra hij
  rw [(hf'.apart i j hij).window hi] at hj
  cases hj

theorem fast_windows_paired_opened :
    Cmd.wp (libEnv False (.paired 0))
      (runFast [.grab .cleared, .cleanup] >>= fun _ => drmtapClose 100)
      (fun _ _ held' => held' = 0) (.opened "i915")
      ((Machine.opened "i915").sockets + (fdOf 100 + 0)) :=
  (fast_windows_paired (Machine.opened_ready _) (fun _ => rfl) 100 0 [.grab .cleared, .cleanup]).2

end Drmtap
