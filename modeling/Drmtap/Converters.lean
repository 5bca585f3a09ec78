import Drmtap.AutoProcess

/-! The converters write into their destination only, and nothing when they refuse. -/
namespace Drmtap

open Memory

/-- What a converter does to memory. -/
def Quits (out : Slice) (f : Heap → Option (ℤ × Heap)) : Prop :=
  ∀ h r h', f h = some (r, h') → Writes out h h' ∧ (r ≠ 0 → h' = h)

section Converters
variable {out src : Slice} {h h' : Heap} {r : ℤ}

theorem quits_refused {e : ℤ} (he : some (e, h) = some (r, h')) :
    Writes out h h' ∧ (r ≠ 0 → h' = h) := by
  obtain ⟨-, rfl⟩ := Prod.mk.inj (Option.some.inj he)
  exact ⟨refl_of (Writes out) _, fun _ => rfl⟩

theorem quits_done {g : Option Heap} (he : g.map ((0 : ℤ), ·) = some (r, h'))
    (hw : g = some h' → Writes out h h') : Writes out h h' ∧ (r ≠ 0 → h' = h) := by
  obtain ⟨h₁, hg, he⟩ := Option.map_eq_some_iff.mp he
  obtain ⟨rfl, rfl⟩ := Prod.mk.inj he
  exact ⟨hw hg, fun h0 => absurd rfl h0⟩

theorem convertRows_writes {unit width height : ℕ} {pixel : List UInt8 → UInt32}
    {srcRow dstRow : ℕ → ℕ}
    (he : convertRows unit pixel srcRow dstRow src out width height h = some h') :
    Writes out h h' := by
  refine .forUpTo (fun y h h' => .forUpTo fun x h h' he => ?_) he
  obtain ⟨px, -, hs⟩ := Option.bind_eq_some_iff.mp he
  exact .store hs

theorem deswizzleTiles_writes {u32 : ℕ → ℕ} {off : ℕ → ℕ → ℕ} {width height stride size : ℕ}
    (he : deswizzleTiles u32 off src out width height stride size h = some h') :
    Writes out h h' := by
  refine .forUpTo (fun y h h' => .forUpTo fun x h h' he => ?_) he
  split at he
  · exact .memcpy he
  · exact .memset he

theorem deswizzleLinear_writes {u32 : ℕ → ℕ} {width height stride stride' size : ℕ}
    (he : deswizzleLinear u32 src out width height stride stride' size h = some h') :
    Writes out h h' := by
  refine .forUpTo (fun y h h' he => ?_) he
  split at he
  · exact .memset he
  · exact .memcpy he

theorem drmtapTonemapHdr10_quits (width height stride stride' : ℕ) (fmt maxNits : UInt32) :
    Quits out
      (drmtapTonemapHdr10 (some src) (some out) width height stride stride' fmt maxNits) := by
  intro h r h' he
  unfold drmtapTonemapHdr10 at he
  simp only at he
  split_ifs at he
  all_goals first | exact quits_refused he | exact quits_done he convertRows_writes

theorem convertWide_quits (pixel : List UInt8 → UInt32) (width height stride stride' : ℕ) :
    Quits out (convertWide pixel (some src) (some out) width height stride stride') := by
  intro h r h' he
  unfold convertWide at he
  simp only at he
  split_ifs at he
  all_goals first | exact quits_refused he | exact quits_done he convertRows_writes

theorem drmtapConvertFormat_quits (u32 : ℕ → ℕ) (width height stride stride' : ℕ)
    (fmt fmt' : UInt32) : Quits out
      (drmtapConvertFormat u32 (some src) (some out) width height stride stride' fmt fmt') := by
  intro h r h' he
  unfold drmtapConvertFormat at he
  simp only at he
  split_ifs at he
  · exact quits_refused he
  · exact quits_refused he
  · exact quits_done he fun he => .forUpTo (fun y h h' he => .memcpy he) he
  · exact quits_done he convertRows_writes
  · exact quits_done he convertRows_writes
  · exact quits_refused he

theorem reducePixels_quits (u32 : ℕ → ℕ) (ctx : Ctx) (frame : FrameInfo) (dstStride : UInt32) :
    Quits out (reducePixels u32 ctx src out frame dstStride) := by
  unfold reducePixels
  simp only
  split_ifs
  · exact drmtapTonemapHdr10_quits _ _ _ _ _ _
  · exact drmtapConvertFormat_quits _ _ _ _ _ _ _
  · exact convertWide_quits _ _ _ _ _
  · exact convertWide_quits _ _ _ _ _

theorem drmtapDeswizzle_quits (u32 : ℕ → ℕ) (width height stride stride' size : ℕ)
    (modifier : UInt64) : Quits out (drmtapDeswizzle u32 (some src) (some out) width height stride
      stride' modifier size) := by
  intro h r h' he
  unfold drmtapDeswizzle at he
  simp only at he
  split_ifs at he
  all_goals first
    | exact quits_refused he
    | exact quits_done he deswizzleLinear_writes
    | exact quits_done he deswizzleTiles_writes

theorem reduceInPlace_quits (u32 : ℕ → ℕ) (ctx : Ctx) (frame : FrameInfo) :
    Quits out (reduceInPlace u32 ctx out frame) := by
  unfold reduceInPlace
  split_ifs
  · exact drmtapTonemapHdr10_quits _ _ _ _ _ _
  · exact drmtapConvertFormat_quits _ _ _ _ _ _ _

theorem repackLinear_writes {height pitch outStride : ℕ}
    (he : repackLinear src out height pitch outStride h = some h') : Writes out h h' := by
  unfold repackLinear at he
  split at he
  · exact .memcpy he
  · exact .forUpTo (fun y h h' he => .memcpy he) he

end Converters

end Drmtap
