import Drmtap.SkipUnchanged

/-! The image cache: which images and textures are alive, what each was imported from, and that
the slots hold exactly these. -/
namespace Drmtap

open Effect

/-- What a convert is after: a geometry, and the buffer of its file descriptor. `inode` is what it
knows of that buffer, 0 for nothing. -/
structure ImageRequest where
  geometry : Geometry
  fd : ℤ
  buffer : ℤ → UInt64
  inode : UInt64

namespace ImageRequest

def target (r : ImageRequest) : UInt64 := r.buffer r.fd

/-- An image imported for `r` may be drawn for `now`. -/
def MayServe (r now : ImageRequest) : Prop :=
  r.geometry = now.geometry ∧ (r.inode ≠ 0 → now.inode ≠ 0 → r.target = now.target)

end ImageRequest

/-- What is alive: each image with the request that it was imported for, and each texture with the
image that it shows. -/
structure GlWorld where
  request : ImageRequest
  images : ℕ → Option ImageRequest
  textures : ℕ → Option (Option ℕ)

namespace GlWorld

def setImage (w : GlWorld) (image : ℕ) (r : Option ImageRequest) : GlWorld :=
  { w with images := Function.update w.images image r }

def setTexture (w : GlWorld) (texture : ℕ) (shows : Option (Option ℕ)) : GlWorld :=
  { w with textures := Function.update w.textures texture shows }

def knows (w : GlWorld) (inode : UInt64) : GlWorld :=
  { w with request := { w.request with inode := inode } }

/-- A new request, over whatever buffers there are now. -/
def ask (w : GlWorld) (geometry : Geometry) (fd : ℤ) (buffer : ℤ → UInt64) : GlWorld :=
  { w with request := ⟨geometry, fd, buffer, 0⟩ }

/-- Nothing is alive. -/
def Dead (w : GlWorld) : Prop :=
  (∀ image, w.images image = none) ∧ ∀ texture, w.textures texture = none

/-- The texture shows a living image, one that may serve the request. -/
def Shows (w : GlWorld) (texture : ℕ) : Prop :=
  ∃ image r, w.textures texture = some (some image) ∧ w.images image = some r ∧
    r.MayServe w.request

def legal (w : GlWorld) : Op ⊕ GlOp → Prop
  | .inr (.createImage attribs) => attribs ∈ w.request.geometry.attempts w.request.fd
  | .inr (.destroyImage image) => w.images image ≠ none
  | .inr (.deleteTexture texture) => w.textures texture ≠ none
  | .inr (.bindTexture texture) => w.textures texture ≠ none
  | .inr (.imageTargetTexture texture image) =>
    w.textures texture ≠ none ∧ w.images image ≠ none
  | .inr (.draw texture drawn) => drawn.geometry = w.request.geometry ∧ w.Shows texture
  | _ => True

/-- New names are of nothing alive. A dma-buf has the inode of its buffer. -/
def step (w : GlWorld) : (o : Op ⊕ GlOp) → EglAns o → GlWorld → Prop
  | .inr (.fstatInode fd), inode, w' =>
    (inode = none ∨ inode = some (w.request.buffer fd)) ∧ w' = w.knows (inode.getD 0)
  | .inr (.createImage _), none, w' => w' = w
  | .inr (.createImage _), some image, w' =>
    w.images image = none ∧ w' = w.setImage image (some w.request)
  | .inr (.destroyImage image), _, w' => w' = w.setImage image none
  | .inr .genTexture, (texture : ℕ), w' =>
    texture ≠ 0 ∧ w.textures texture = none ∧ w' = w.setTexture texture (some none)
  | .inr (.deleteTexture texture), _, w' => w' = w.setTexture texture none
  | .inr (.imageTargetTexture texture image), _, w' =>
    w' = w.setTexture texture (some (some image))
  | _, _, w' => w' = w

end GlWorld

/-- EGL and GL, where only what is alive may be used. -/
abbrev glEnv : Effect.Env (Op ⊕ GlOp) EglAns := ⟨GlWorld, GlWorld.legal, GlWorld.step⟩

/-- The calls that no image or texture is made, used or destroyed by. -/
def Untracked : Op ⊕ GlOp → Prop
  | .inr (.fstatInode _) | .inr (.createImage _) | .inr (.destroyImage _) | .inr .genTexture
  | .inr (.deleteTexture _) | .inr (.bindTexture _) | .inr (.imageTargetTexture _ _)
  | .inr (.draw _ _) => False
  | _ => True

theorem glEnv_quiet : glEnv.Quiet Untracked fun _ _ => True := by
  rintro (o | o) ho w
  · exact ⟨trivial, fun _ _ h => ⟨trivial, h⟩⟩
  · cases o
    all_goals
      first
      | exact ho.elim
      | exact ⟨trivial, fun _ _ h => ⟨trivial, h⟩⟩

/-! What the slots hold -/

section Slots
variable {K : Type}

/-- The slot is of a living image, which its texture shows and which was imported for what the
slot says. -/
def ImageSlot.Holds (slot : ImageSlot K) (w : GlWorld) : Prop :=
  ∃ image r, slot.image = some image ∧ w.images image = some r ∧
    w.textures slot.texture = some (some image) ∧ slot.texture ≠ 0 ∧
    slot.geometry = r.geometry ∧ slot.bufInode = r.inode ∧ (r.inode ≠ 0 → r.inode = r.target)

namespace EglState

def setSlot (st : EglState K) (i : ImageSlotId) (slot : ImageSlot K) : EglState K :=
  { st with imageSlots := Function.update st.imageSlots i slot }

/-- The slots hold the living images and textures, each of them once, and there is at most one
slot for a framebuffer of a context. -/
structure Caches (st : EglState K) (w : GlWorld) : Prop where
  unused : ∀ i, (st.imageSlots i).fbId = 0 → st.imageSlots i = .empty
  used : ∀ i, (st.imageSlots i).fbId ≠ 0 → (st.imageSlots i).Holds w
  unique : ∀ i j, (st.imageSlots i).fbId ≠ 0 → (st.imageSlots i).fbId = (st.imageSlots j).fbId →
    (st.imageSlots i).owner = (st.imageSlots j).owner → i = j
  apart : ∀ i j image, (st.imageSlots i).image = some image →
    (st.imageSlots j).image = some image → i = j
  image : ∀ image, w.images image ≠ none → ∃ i, (st.imageSlots i).image = some image
  texture : ∀ texture, w.textures texture ≠ none →
    ∃ i, (st.imageSlots i).fbId ≠ 0 ∧ (st.imageSlots i).texture = texture
  down : st.initialized = false → ∀ i, (st.imageSlots i).fbId = 0

end EglState

/-- The world without an image and a texture, which are 0 where there is none. -/
def GlWorld.drop (w : GlWorld) (image : Option ℕ) (texture : ℕ) : GlWorld where
  request := w.request
  images i := if image = some i then none else w.images i
  textures x := if x = texture ∧ texture ≠ 0 then none else w.textures x

namespace GlWorld
variable {w : GlWorld} {image : Option ℕ} {texture : ℕ}

theorem drop_none : w.drop none 0 = w := by
  simp [drop]

theorem drop_comm (image' : Option ℕ) (texture' : ℕ) :
    (w.drop image texture).drop image' texture' = (w.drop image' texture').drop image texture := by
  unfold drop
  congr 1
  · funext i
    by_cases hi : image = some i <;> simp [hi]
  · funext x
    by_cases hx : x = texture ∧ texture ≠ 0 <;> simp [hx]

theorem drop_images_ne {i : ℕ} (h : image ≠ some i) :
    (w.drop image texture).images i = w.images i := if_neg h

theorem drop_textures_ne {x : ℕ} (h : ¬ (x = texture ∧ texture ≠ 0)) :
    (w.drop image texture).textures x = w.textures x := if_neg h

theorem drop_images {i : ℕ} {r : ImageRequest} (h : (w.drop image texture).images i = some r) :
    image ≠ some i ∧ w.images i = some r := by
  by_cases hi : image = some i
  · exact absurd (h.symm.trans (if_pos hi)) (by simp)
  · exact ⟨hi, (drop_images_ne hi).symm.trans h⟩

theorem drop_textures {x : ℕ} {shows : Option ℕ}
    (h : (w.drop image texture).textures x = some shows) :
    ¬ (x = texture ∧ texture ≠ 0) ∧ w.textures x = some shows := by
  by_cases hx : x = texture ∧ texture ≠ 0
  · exact absurd (h.symm.trans (if_pos hx)) (by simp)
  · exact ⟨hx, (drop_textures_ne hx).symm.trans h⟩

theorem setTexture_setImage {image : ℕ} (h : texture ≠ 0) :
    (w.setTexture texture none).setImage image none = w.drop (some image) texture := by
  unfold setTexture setImage drop
  congr 1
  · funext i
    simp [Function.update_apply, eq_comm]
  · funext x
    simp [Function.update_apply, h]

/-- What a call added and dropped again. -/
theorem drop_added {image : ℕ} {r : Option ImageRequest} {shows : Option (Option ℕ)}
    (himage : w.images image = none) (htexture : w.textures texture = none) (h : texture ≠ 0) :
    ((w.setImage image r).setTexture texture shows).drop (some image) texture = w := by
  rw [← setTexture_setImage h]
  unfold setTexture setImage
  congr 1
  · rw [Function.update_idem, ← himage, Function.update_eq_self]
  · rw [Function.update_idem, ← htexture, Function.update_eq_self]

end GlWorld

variable {st : EglState K} {w : GlWorld} {i j : ImageSlotId}

theorem ImageSlot.Holds.of_drop {slot : ImageSlot K} {image : Option ℕ} {texture : ℕ}
    (h : slot.Holds (w.drop image texture)) : slot.Holds w := by
  obtain ⟨own, r, hi, hr, ht, hrest⟩ := h
  exact ⟨own, r, hi, (GlWorld.drop_images hr).2, (GlWorld.drop_textures ht).2, hrest⟩

namespace EglState.Caches

/-- The texture of one slot is not that of another. -/
theorem texture_ne (h : st.Caches w) (hi : (st.imageSlots i).fbId ≠ 0)
    (hj : (st.imageSlots j).fbId ≠ 0) (hne : i ≠ j) :
    (st.imageSlots i).texture ≠ (st.imageSlots j).texture := by
  obtain ⟨image, r, hii, -, hti, -⟩ := h.used i hi
  obtain ⟨image', r', hjj, -, htj, -⟩ := h.used j hj
  intro heq
  rw [heq, htj] at hti
  obtain rfl : image' = image := by simpa using hti
  exact hne (h.apart i j image' hii hjj)

/-- A slot that is released takes its image and texture with it. -/
theorem release (h : st.Caches w) (i : ImageSlotId) : (st.setSlot i .empty).Caches
    (w.drop (st.imageSlots i).image (st.imageSlots i).texture) := by
  have hslot (j : ImageSlotId) : (st.setSlot i .empty).imageSlots j =
      if j = i then .empty else st.imageSlots j := Function.update_apply _ _ _ _
  constructor
  · intro j hj
    rw [hslot] at hj ⊢
    split_ifs at hj ⊢ with hji
    · rfl
    · exact h.unused j hj
  · intro j hj
    rw [hslot] at hj ⊢
    split_ifs at hj ⊢ with hji
    · exact absurd rfl hj
    · obtain ⟨image, r, him, hr, ht, hrest⟩ := h.used j hj
      refine ⟨image, r, him, ?_, ?_, hrest⟩
      · rw [GlWorld.drop_images_ne fun hi => hji (h.apart j i image him hi)]
        exact hr
      · rw [GlWorld.drop_textures_ne ?_]
        · exact ht
        · rintro ⟨heq, hne⟩
          refine h.texture_ne hj (fun hi => hne ?_) hji heq
          rw [h.unused i hi]
          rfl
  · intro j j' hj hf ho
    by_cases hji : j = i
    · rw [hslot, if_pos hji] at hj
      exact absurd rfl hj
    · by_cases hji' : j' = i
      · rw [hslot, if_neg hji] at hj
        rw [hslot, hslot, if_neg hji, if_pos hji'] at hf
        exact absurd hf hj
      · simp only [hslot, if_neg hji, if_neg hji'] at hj hf ho
        exact h.unique j j' hj hf ho
  · intro j j' image hj hj'
    rw [hslot] at hj hj'
    split_ifs at hj hj'
    · cases hj
    · cases hj
    · cases hj'
    · exact h.apart j j' image hj hj'
  · intro image hl
    obtain ⟨r, hr⟩ := Option.ne_none_iff_exists'.mp hl
    obtain ⟨hne, hr⟩ := GlWorld.drop_images hr
    obtain ⟨j, hj⟩ := h.image image (by simp [hr])
    refine ⟨j, ?_⟩
    rw [hslot, if_neg ?_]
    · exact hj
    · rintro rfl
      exact hne hj
  · intro x hl
    obtain ⟨shows, hx⟩ := Option.ne_none_iff_exists'.mp hl
    obtain ⟨hne, hx⟩ := GlWorld.drop_textures hx
    obtain ⟨j, hused, rfl⟩ := h.texture x (by simp [hx])
    refine ⟨j, ?_⟩
    rw [hslot, if_neg ?_]
    · exact ⟨hused, rfl⟩
    · rintro rfl
      obtain ⟨-, -, -, -, -, hnz, -⟩ := h.used j hused
      exact hne ⟨rfl, hnz⟩
  · intro hd j
    rw [hslot]
    split_ifs
    · rfl
    · exact h.down hd j

/-- A slot that is free takes up a new image. -/
theorem adopt {image texture : ℕ} {slot : ImageSlot K}
    (h : st.Caches (w.drop (some image) texture)) (hfree : (st.imageSlots i).fbId = 0)
    (hup : st.initialized = true) (hnew : slot.Holds w) (himage : slot.image = some image)
    (htexture : slot.texture = texture) (hid : slot.fbId ≠ 0)
    (hother : ∀ j, (st.imageSlots j).fbId = slot.fbId → (st.imageSlots j).owner ≠ slot.owner) :
    (st.setSlot i slot).Caches w := by
  have hslot (j : ImageSlotId) : (st.setSlot i slot).imageSlots j =
      if j = i then slot else st.imageSlots j := Function.update_apply _ _ _ _
  have hnot (j : ImageSlotId) : (st.imageSlots j).image ≠ some image := by
    intro hj
    have hused : (st.imageSlots j).fbId ≠ 0 := by
      intro hz
      rw [h.unused j hz] at hj
      cases hj
    obtain ⟨image', r, hi, hr, -⟩ := h.used j hused
    exact (GlWorld.drop_images hr).1 (hj.symm.trans hi)
  constructor
  · intro j hj
    rw [hslot] at hj ⊢
    split_ifs at hj ⊢
    · exact absurd hj hid
    · exact h.unused j hj
  · intro j hj
    rw [hslot] at hj ⊢
    split_ifs at hj ⊢
    · exact hnew
    · exact (h.used j hj).of_drop
  · intro j j' hj hf ho
    by_cases hji : j = i <;> by_cases hji' : j' = i
    · exact hji.trans hji'.symm
    · simp only [hslot, if_pos hji, if_neg hji'] at hf ho
      exact absurd ho.symm (hother j' hf.symm)
    · simp only [hslot, if_neg hji, if_pos hji'] at hf ho
      exact absurd ho (hother j hf)
    · simp only [hslot, if_neg hji, if_neg hji'] at hj hf ho
      exact h.unique j j' hj hf ho
  · intro j j' image' hj hj'
    rw [hslot] at hj hj'
    split_ifs at hj hj' with hji hji' hji'
    · exact hji.trans hji'.symm
    · rw [himage] at hj
      exact absurd (hj'.trans hj.symm) (hnot j')
    · rw [himage] at hj'
      exact absurd (hj.trans hj'.symm) (hnot j)
    · exact h.apart j j' image' hj hj'
  · intro image' hl
    by_cases heq : image' = image
    · refine ⟨i, ?_⟩
      rw [hslot, if_pos rfl, himage, heq]
    · have hl' : (w.drop (some image) texture).images image' ≠ none := by
        rw [GlWorld.drop_images_ne fun h => heq (Option.some.inj h).symm]
        exact hl
      obtain ⟨j, hj⟩ := h.image image' hl'
      refine ⟨j, ?_⟩
      rw [hslot, if_neg ?_]
      · exact hj
      · rintro rfl
        rw [h.unused j hfree] at hj
        cases hj
  · intro x hl
    by_cases heq : x = texture
    · refine ⟨i, ?_⟩
      rw [hslot, if_pos rfl, htexture]
      exact ⟨hid, heq.symm⟩
    · have hl' : (w.drop (some image) texture).textures x ≠ none := by
        rw [GlWorld.drop_textures_ne fun h => heq h.1]
        exact hl
      obtain ⟨j, hused, hj⟩ := h.texture x hl'
      refine ⟨j, ?_⟩
      rw [hslot, if_neg ?_]
      · exact ⟨hused, hj⟩
      · rintro rfl
        exact hused hfree
  · intro hd
    exact absurd (hup.symm.trans hd) (by simp)

/-- What the slots hold does not depend on what a convert is after. -/
theorem ask (h : st.Caches w) (r : ImageRequest) : st.Caches { w with request := r } :=
  ⟨h.unused, h.used, h.unique, h.apart, h.image, h.texture, h.down⟩

theorem congr {st' : EglState K} (h : st.Caches w) (hs : st'.imageSlots = st.imageSlots)
    (hup : st.initialized = true → st'.initialized = true) : st'.Caches w := by
  rcases h with ⟨hunused, hused, hunique, hapart, himage, htexture, hdown⟩
  rw [← hs] at hunused hused hunique hapart himage htexture hdown
  refine ⟨hunused, hused, hunique, hapart, himage, htexture, fun hd => hdown ?_⟩
  by_contra hi
  rw [hup (by simpa using hi)] at hd
  cases hd

theorem slot_empty_or_holds (h : st.Caches w) (i : ImageSlotId) :
    st.imageSlots i = .empty ∨ (st.imageSlots i).Holds w := by
  by_cases hi : (st.imageSlots i).fbId = 0
  · exact .inl (h.unused i hi)
  · exact .inr (h.used i hi)

/-- Where no slot is used, nothing is alive. -/
theorem dead (h : st.Caches w) (hall : ∀ i, (st.imageSlots i).fbId = 0) : w.Dead := by
  constructor
  · intro image
    by_contra hl
    obtain ⟨i, hi⟩ := h.image image hl
    rw [h.unused i (hall i)] at hi
    cases hi
  · intro texture
    by_contra hl
    obtain ⟨i, hi, -⟩ := h.texture texture hl
    exact hi (hall i)

end EglState.Caches

theorem EglState.caches_zero {w : GlWorld} (hw : w.Dead) : (EglState.zero : EglState K).Caches w where
  unused _ _ := rfl
  used _ h := absurd rfl h
  unique _ _ h := absurd rfl h
  apart _ _ _ h := by cases h
  image image h := absurd (hw.1 image) h
  texture texture h := absurd (hw.2 texture) h
  down _ _ := rfl

end Slots

/-! The images of a convert -/

section Specs
variable {K : Type} {t : EglThread K} {w : GlWorld}

theorem wlp_untracked {o : GlOp} {Q : GlAns o → EglThread K → GlWorld → Prop}
    (hQ : ∀ r, Q r t w) (ho : Untracked (.inr o) := by trivial) : Cmd.wlp glEnv (gl o) Q t w := by
  rw [wlp_gl]
  refine ⟨(glEnv_quiet _ ho w).1, fun r w' hs => ?_⟩
  obtain rfl := ((glEnv_quiet _ ho w).2 r w' hs).2
  exact hQ r

theorem eglImageSlotRelease_spec {i : ImageSlotId}
    (h : t.egl.imageSlots i = .empty ∨ (t.egl.imageSlots i).Holds w) :
    Cmd.wlp glEnv (eglImageSlotRelease i) (fun _ t' w' =>
      t' = { t with egl := t.egl.setSlot i .empty } ∧
        w' = w.drop (t.egl.imageSlots i).image (t.egl.imageSlots i).texture) t w := by
  unfold eglImageSlotRelease deleteTexture destroyImage
  simp only [Cmd.wlp_bind, wlp_getImageSlot, Cmd.wlp_ite, Cmd.wlp_pure, wlp_setImageSlot]
  rcases h with h | ⟨image, r, hi, hr, ht, hnz, -⟩
  · rw [h]
    exact ⟨fun _ => ⟨rfl, GlWorld.drop_none.symm⟩, fun hne => absurd rfl hne⟩
  · rw [hi]
    refine ⟨fun hz => absurd hz hnz, fun _ => ⟨by simp [GlWorld.legal, ht], ?_⟩⟩
    rintro _ _ rfl
    refine ⟨by simp [GlWorld.legal, GlWorld.setTexture, hr], ?_⟩
    rintro _ _ rfl
    exact ⟨rfl, GlWorld.setTexture_setImage hnz⟩

/-- Slots may have been released, and nothing else. -/
structure EglThread.Drops (t t' : EglThread K) : Prop where
  slots : ∀ i, t'.egl.imageSlots i = t.egl.imageSlots i ∨ t'.egl.imageSlots i = .empty
  initialized : t'.egl.initialized = t.egl.initialized
  ctxs : t'.ctxs = t.ctxs

instance : IsPreorder (EglThread K) EglThread.Drops where
  refl _ := ⟨fun _ => .inl rfl, rfl, rfl⟩
  trans t t' t'' h h' := by
    refine ⟨fun i => ?_, h'.initialized.trans h.initialized, h'.ctxs.trans h.ctxs⟩
    rcases h'.slots i with hi | hi
    · exact (h.slots i).imp hi.trans hi.trans
    · exact .inr hi

theorem EglThread.drops_release (t : EglThread K) (i : ImageSlotId) :
    t.Drops { t with egl := t.egl.setSlot i .empty } := by
  refine ⟨fun j => ?_, rfl, rfl⟩
  by_cases hj : j = i
  · subst hj
    exact .inr (Function.update_self ..)
  · exact .inl (Function.update_of_ne hj ..)

theorem EglThread.Drops.unused {t' : EglThread K} (h : t.Drops t') {i : ImageSlotId}
    (hi : (t.egl.imageSlots i).fbId = 0) : (t'.egl.imageSlots i).fbId = 0 := by
  rcases h.slots i with heq | heq
  · rw [heq]
    exact hi
  · rw [heq]
    rfl

theorem releaseSlots_spec (is : List ImageSlotId) (h : t.egl.Caches w) :
    Cmd.wlp glEnv (releaseSlots is) (fun _ t' w' => t'.egl.Caches w' ∧ t.Drops t' ∧
      w'.request = w.request ∧ ∀ i ∈ is, (t'.egl.imageSlots i).fbId = 0) t w := by
  induction is generalizing t w with
  | nil => exact ⟨h, refl_of EglThread.Drops t, rfl, by simp⟩
  | cons i is ih =>
    unfold releaseSlots
    rw [Cmd.wlp_bind]
    refine Cmd.wlp_mono (eglImageSlotRelease_spec (h.slot_empty_or_holds i)) ?_
    rintro _ _ _ ⟨rfl, rfl⟩
    refine Cmd.wlp_mono (ih (h.release i)) ?_
    intro _ t' w' ⟨hc, hdrop, hr, hall⟩
    refine ⟨hc, trans_of EglThread.Drops (t.drops_release i) hdrop, hr, ?_⟩
    intro j hj
    rcases List.mem_cons.mp hj with rfl | hj
    · refine hdrop.unused ?_
      simp [EglState.setSlot, ImageSlot.empty]
    · exact hall j hj

theorem eglCleanup_spec (h : t.egl.Caches w) :
    Cmd.wlp glEnv eglCleanup (fun _ t' w' => t'.egl.Caches w' ∧ w'.request = w.request ∧
      ∀ i, (t'.egl.imageSlots i).fbId = 0) t w := by
  unfold eglCleanup
  simp only [Cmd.wlp_bind, Cmd.wlp_ite, Cmd.wlp_pure, wlp_getEgl, wlp_modifyEgl]
  refine ⟨fun _ => wlp_untracked fun _ => ?_, fun hdown => ⟨h, trivial, ?_⟩⟩
  · refine Cmd.wlp_mono (releaseSlots_spec _ h) ?_
    rintro _ t₁ w₁ ⟨hc, -, hr, hall⟩
    refine wlp_untracked fun _ => wlp_untracked fun _ => ?_
    have hall (i : ImageSlotId) : (t₁.egl.imageSlots i).fbId = 0 := hall i (List.mem_finRange i)
    exact ⟨⟨hc.unused, hc.used, hc.unique, hc.apart, hc.image, hc.texture, fun _ => hall⟩, hr,
      hall⟩
  · exact h.down (by simpa using hdown)

/-- The slots are as before, and what was set up is. -/
structure EglThread.SameImages (t t' : EglThread K) : Prop where
  slots : t'.egl.imageSlots = t.egl.imageSlots
  initialized : t.egl.initialized = true → t'.egl.initialized = true

instance : IsPreorder (EglThread K) EglThread.SameImages where
  refl _ := ⟨rfl, id⟩
  trans _ _ _ h h' := ⟨h'.slots.trans h.slots, fun hi => h'.initialized (h.initialized hi)⟩

theorem EglState.Caches.same {t' : EglThread K} (h : t.egl.Caches w) (hs : t.SameImages t') :
    t'.egl.Caches w :=
  h.congr hs.slots hs.initialized

/-- Programs that no image or texture is used by. -/
abbrev EglMoves {α : Type} (m : EglM K α) : Prop := Cmd.Moves Untracked EglThread.SameImages m

theorem gl_moves (o : GlOp) (ho : Untracked (.inr o) := by trivial) :
    EglMoves (gl o : EglM K (GlAns o)) :=
  .call ho

theorem modifyHash_moves (f : EglHash K → EglHash K) : EglMoves (modifyHash f) :=
  .modify fun _ => ⟨rfl, id⟩

theorem getHash_moves : EglMoves (getHash : EglM K (EglHash K)) :=
  .bind (.bind .get fun _ => .pure _) fun _ => .pure _

theorem EglMoves.spec {α : Type} {m : EglM K α} (hm : EglMoves m) :
    Cmd.wlp glEnv m (fun _ t' w' => t.SameImages t' ∧ w' = w) t w :=
  hm.wlp glEnv_quiet t w

/-- A display that was set up says so. -/
theorem initOnDisplay_spec :
    Cmd.wlp glEnv initOnDisplay (fun ret t' w' => t.SameImages t' ∧ w' = w ∧
      (0 ≤ ret → t'.egl.initialized = true)) t w := by
  have hes3 : EglMoves (createContextEs3 : EglM K Bool) := by
    apply Cmd.Moves.bind (gl_moves _)
    intro wanted
    refine .ite (.bind (gl_moves _) fun es3 => .bind ?_ fun _ => .pure _) (.pure _)
    exact .modify fun _ => ⟨rfl, id⟩
  have hsetup (es3 : Bool) : EglMoves (hashSetup es3 : EglM K Unit) :=
    .ite (.bind (gl_moves _) fun _ => .ite (modifyHash_moves _) (.pure _)) (.pure _)
  have hcontext (es3 : Bool) : EglMoves (createContext es3 : EglM K Bool) :=
    .ite (.pure _) (gl_moves _)
  have herror : ¬ (0 : ℤ) ≤ - EIO := by decide
  have hsame := refl_of EglThread.SameImages t
  unfold initOnDisplay
  simp only [Cmd.wlp_bind, Cmd.wlp_ite, Cmd.wlp_pure, wlp_modifyEgl]
  refine wlp_untracked fun _ => ⟨fun _ => ⟨hsame, rfl, fun h => absurd h herror⟩, fun _ => ?_⟩
  refine wlp_untracked fun _ => ⟨fun _ => ⟨hsame, rfl, fun h => absurd h herror⟩, fun _ => ?_⟩
  refine Cmd.wlp_mono hes3.spec ?_
  rintro es3 t₁ _ ⟨h₁, rfl⟩
  refine Cmd.wlp_mono (hcontext es3).spec ?_
  rintro made t₂ _ ⟨h₂, rfl⟩
  have h₂ := trans_of EglThread.SameImages h₁ h₂
  refine ⟨fun _ => ⟨h₂, rfl, fun h => absurd h herror⟩, fun _ => ?_⟩
  refine wlp_untracked fun _ => wlp_untracked fun _ => ⟨fun _ => ?_, fun _ => ?_⟩
  · exact wlp_untracked fun _ => ⟨h₂, rfl, fun h => absurd h herror⟩
  · refine Cmd.wlp_mono (hsetup es3).spec ?_
    rintro _ t₃ _ ⟨h₃, rfl⟩
    have h₃ := trans_of EglThread.SameImages h₂ h₃
    exact wlp_untracked fun _ => ⟨⟨h₃.slots, fun _ => rfl⟩, rfl, fun _ => rfl⟩

theorem ensureInit_spec (k : K) :
    Cmd.wlp glEnv (ensureInit k) (fun ret t' w' => t.SameImages t' ∧ w' = w ∧
      (0 ≤ ret → t'.egl.initialized = true)) t w := by
  have hsame := refl_of EglThread.SameImages t
  unfold ensureInit eglInit
  simp only [Cmd.wlp_bind, Cmd.wlp_ite, Cmd.wlp_pure, Cmd.wlp_get, wlp_getEgl, wlp_modifyEgl]
  refine ⟨fun hup => ⟨hsame, trivial, fun _ => hup⟩, fun _ => wlp_untracked fun _ => ⟨fun _ => ?_,
    fun _ => wlp_untracked fun _ => ⟨fun _ => ?_, fun _ => ?_⟩⟩⟩
  · exact ⟨hsame, rfl, fun h => absurd h (by decide)⟩
  · exact ⟨hsame, rfl, fun h => absurd h (by decide)⟩
  · refine Cmd.wlp_mono initOnDisplay_spec ?_
    rintro ret t' _ ⟨h, rfl, hup⟩
    exact ⟨⟨h.slots, h.initialized⟩, rfl, hup⟩

theorem leaveDevice_spec (k : K) (h : t.egl.Caches w) :
    Cmd.wlp glEnv (leaveDevice k) (fun _ t' w' => t'.egl.Caches w' ∧ w'.request = w.request)
      t w := by
  unfold leaveDevice
  simp only [Cmd.wlp_bind, Cmd.wlp_ite, Cmd.wlp_pure, Cmd.wlp_get]
  refine ⟨fun _ => Cmd.wlp_mono (eglCleanup_spec h) ?_, fun _ => ⟨h, trivial⟩⟩
  rintro _ _ _ ⟨hc, hr, -⟩
  exact ⟨hc, hr⟩

/-- The inode that a convert goes by is that of its buffer. -/
theorem currentInode_spec (h0 : w.request.inode = 0) :
    Cmd.wlp glEnv (currentInode w.request.fd) (fun inode t' w' => t' = t ∧ w' = w.knows inode ∧
      (inode ≠ 0 → inode = w.request.target)) t w := by
  unfold currentInode
  simp only [Cmd.wlp_bind, Cmd.wlp_ite, Cmd.wlp_pure]
  refine ⟨fun _ => ⟨trivial, ?_⟩, fun _ => ⟨trivial, ?_, by simp⟩⟩
  · rintro inode _ ⟨rfl | rfl, rfl⟩
    · exact ⟨rfl, rfl, by simp⟩
    · exact ⟨rfl, rfl, fun _ => rfl⟩
  · unfold GlWorld.knows
    rw [← h0]

theorem tryImport_spec {attempts : List ImageAttribs}
    (hall : ∀ attribs ∈ attempts, attribs ∈ w.request.geometry.attempts w.request.fd) :
    Cmd.wlp glEnv (tryImport attempts) (fun r t' w' => t' = t ∧ (r = none → w' = w) ∧
      ∀ image, r = some image → w.images image = none ∧ w' = w.setImage image (some w.request))
      t w := by
  induction attempts with
  | nil => exact ⟨rfl, fun _ => rfl, by simp⟩
  | cons attribs rest ih =>
    unfold tryImport
    rw [Cmd.wlp_bind]
    refine ⟨hall attribs List.mem_cons_self, ?_⟩
    rintro (_ | image) w' hs
    · obtain rfl : w' = w := hs
      exact ih fun a ha => hall a (List.mem_cons_of_mem _ ha)
    · obtain ⟨hnew, rfl⟩ : w.images image = none ∧ w' = w.setImage image (some w.request) := hs
      refine ⟨rfl, by simp, ?_⟩
      rintro _ ⟨⟩
      exact ⟨hnew, rfl⟩

theorem eglImportDmabuf_spec :
    Cmd.wlp glEnv (eglImportDmabuf w.request.geometry w.request.fd) (fun r t' w' => t' = t ∧
      (r = none → w' = w) ∧ ∀ image, r = some image → w.images image = none ∧
        w' = w.setImage image (some w.request)) t w := by
  unfold eglImportDmabuf
  rw [Cmd.wlp_ite]
  exact ⟨fun _ => ⟨rfl, fun _ => rfl, by simp⟩, fun _ => tryImport_spec fun _ h => h⟩

/-- A texture that shows the image, or none. -/
theorem eglMakeExternalTexture_spec {image : ℕ} (himage : w.images image ≠ none) :
    Cmd.wlp glEnv (eglMakeExternalTexture image) (fun r t' w' => t' = t ∧ (r = none → w' = w) ∧
      ∀ texture, r = some texture → texture ≠ 0 ∧ w.textures texture = none ∧
        w' = w.setTexture texture (some (some image))) t w := by
  unfold eglMakeExternalTexture
  simp only [Cmd.wlp_bind, Cmd.wlp_ite, Cmd.wlp_pure]
  rw [wlp_gl]
  refine ⟨trivial, ?_⟩
  rintro (texture : ℕ) w₁ ⟨hnz, hnew, hw₁⟩
  obtain rfl : w₁ = w.setTexture texture (some none) := hw₁
  have halive : (w.setTexture texture (some none)).textures texture ≠ none := by
    simp [GlWorld.setTexture]
  rw [wlp_gl]
  refine ⟨halive, ?_⟩
  rintro _ _ rfl
  rw [wlp_gl]
  refine ⟨⟨halive, himage⟩, ?_⟩
  rintro _ _ rfl
  refine wlp_untracked fun _ => ⟨fun _ => ?_, fun _ => ⟨rfl, by simp, ?_⟩⟩
  · rw [wlp_gl]
    refine ⟨by simp [GlWorld.legal, GlWorld.setTexture], ?_⟩
    rintro _ _ rfl
    refine ⟨rfl, fun _ => ?_, by simp⟩
    simp only [GlWorld.setTexture, Function.update_idem]
    rw [← hnew, Function.update_eq_self]
  · rintro _ ⟨⟩
    refine ⟨hnz, hnew, ?_⟩
    simp only [GlWorld.setTexture, Function.update_idem]

/-- The slot is of this framebuffer. -/
def ImageSlot.IsOf (slot : ImageSlot K) (k : K) (fbId : UInt32) : Prop :=
  slot.fbId = fbId ∧ slot.owner = some k

/-- What the lookup finds: the slot that serves, or none that is of the framebuffer; and no more
than the slots looked at is said of the one that is free. -/
structure Looked (k : K) (fbId : UInt32) (geometry : Geometry) (inode : UInt64)
    (is : List ImageSlotId) (found : Option ImageSlotId × Option ImageSlotId)
    (slots : ImageSlotId → ImageSlot K) : Prop where
  hit : ∀ i, found.1 = some i → (slots i).IsOf k fbId ∧ (slots i).serves geometry inode
  miss : found.1 = none → ∀ i ∈ is, ¬ (slots i).IsOf k fbId
  free : ∀ i, found.2 = some i → (slots i).fbId = 0

theorem EglThread.Drops.isOf {t' : EglThread K} (h : t.Drops t') {k : K} {fbId : UInt32}
    (hid : fbId ≠ 0) {i : ImageSlotId} (hi : ¬ (t.egl.imageSlots i).IsOf k fbId) :
    ¬ (t'.egl.imageSlots i).IsOf k fbId := by
  rcases h.slots i with heq | heq
  · rw [heq]
    exact hi
  · rw [heq]
    exact fun hempty => hid hempty.1.symm

theorem findImage_spec [DecidableEq K] {k : K} {fbId : UInt32} {geometry : Geometry}
    {inode : UInt64} {is : List ImageSlotId} {free : Option ImageSlotId} (hid : fbId ≠ 0)
    (h : t.egl.Caches w) (hfree : ∀ i, free = some i → (t.egl.imageSlots i).fbId = 0) :
    Cmd.wlp glEnv (findImage k fbId geometry inode is free) (fun found t' w' =>
      t'.egl.Caches w' ∧ t.Drops t' ∧ w'.request = w.request ∧
        Looked k fbId geometry inode is found t'.egl.imageSlots) t w := by
  induction is generalizing free t w with
  | nil => exact ⟨h, refl_of EglThread.Drops t, rfl, by simp, by simp, hfree⟩
  | cons i is ih =>
    have hor {t' : EglThread K} (hi : (t'.egl.imageSlots i).fbId = 0)
        (hf : ∀ j, free = some j → (t'.egl.imageSlots j).fbId = 0) :
        ∀ j, free.or (some i) = some j → (t'.egl.imageSlots j).fbId = 0 := by
      intro j hj
      cases free with
      | none =>
        obtain rfl : i = j := by simpa using hj
        exact hi
      | some _ => exact hf j (by simpa using hj)
    -- a slot that is not of the framebuffer leaves the question to the others
    have hskip {t₁ : EglThread K} {w₁ : GlWorld} {free : Option ImageSlotId}
        (hdrop : t.Drops t₁) (hr : w₁.request = w.request) (hc : t₁.egl.Caches w₁)
        (hf : ∀ j, free = some j → (t₁.egl.imageSlots j).fbId = 0)
        (hi : ¬ (t₁.egl.imageSlots i).IsOf k fbId) :
        Cmd.wlp glEnv (findImage k fbId geometry inode is free) (fun found t' w' =>
          t'.egl.Caches w' ∧ t.Drops t' ∧ w'.request = w.request ∧
            Looked k fbId geometry inode (i :: is) found t'.egl.imageSlots) t₁ w₁ := by
      refine Cmd.wlp_mono (ih hc hf) ?_
      rintro found t' w' ⟨hc', hdrop', hr', hlook⟩
      refine ⟨hc', trans_of EglThread.Drops hdrop hdrop', hr'.trans hr, hlook.hit, ?_, hlook.free⟩
      intro hnone j hj
      rcases List.mem_cons.mp hj with rfl | hj
      · exact hdrop'.isOf hid hi
      · exact hlook.miss hnone j hj
    have hrefl := refl_of EglThread.Drops t
    unfold findImage
    simp only [Cmd.wlp_bind, Cmd.wlp_ite, Cmd.wlp_pure, wlp_getImageSlot]
    refine ⟨fun hz => ?_, fun _ => ⟨fun hother => ?_, fun hof => ⟨fun hserves => ?_, fun _ => ?_⟩⟩⟩
    · exact hskip hrefl rfl h (hor hz hfree) fun hi => hid (hi.1.symm.trans hz)
    · refine hskip hrefl rfl h hfree fun hi => ?_
      exact hother.elim (fun hne => hne hi.1) fun hne => hne hi.2
    · obtain ⟨hf, ho⟩ := not_or.mp hof
      refine ⟨h, hrefl, trivial, ?_, by simp, hfree⟩
      rintro _ ⟨⟩
      exact ⟨⟨not_not.mp hf, not_not.mp ho⟩, hserves⟩
    · refine Cmd.wlp_mono (eglImageSlotRelease_spec (h.slot_empty_or_holds i)) ?_
      rintro _ _ _ ⟨rfl, rfl⟩
      have hdrop := t.drops_release i
      have hempty : (t.egl.setSlot i .empty).imageSlots i = .empty := Function.update_self ..
      refine hskip hdrop rfl (h.release i) (hor ?_ fun j hj => hdrop.unused (hfree j hj)) ?_
      · exact congrArg ImageSlot.fbId hempty
      · rw [hempty]
        exact fun hi => hid hi.1.symm

/-- A texture that shows a living image, which may serve the request. -/
def Acquired.Serves (a : Acquired) (w : GlWorld) : Prop :=
  ∃ image r, a.image = some image ∧ a.texture ≠ 0 ∧ w.textures a.texture = some (some image) ∧
    w.images image = some r ∧ r.MayServe w.request

/-- A slot for an image that no slot has yet. -/
theorem slotFor_spec {image texture : ℕ} {free : Option ImageSlotId}
    (h : t.egl.Caches (w.drop (some image) texture))
    (hfree : ∀ i, free = some i → (t.egl.imageSlots i).fbId = 0) :
    Cmd.wlp glEnv (slotFor free) (fun i t' w' => t'.egl.Caches (w'.drop (some image) texture) ∧
      t.Drops t' ∧ (t'.egl.imageSlots i).fbId = 0 ∧ w'.request = w.request ∧
        w'.images image = w.images image ∧ w'.textures texture = w.textures texture) t w := by
  unfold slotFor
  cases free with
  | some i => exact ⟨h, refl_of EglThread.Drops t, hfree i rfl, rfl, rfl, rfl⟩
  | none =>
    simp only [Cmd.wlp_bind, Cmd.wlp_pure, wlp_getEgl, wlp_modifyEgl]
    generalize (⟨t.egl.nextEvict.toNat % drmtapEglImageSlots, _⟩ : ImageSlotId) = i
    let t₁ : EglThread K := { t with egl := { t.egl with nextEvict := t.egl.nextEvict + 1 } }
    have h₁ : t₁.egl.Caches (w.drop (some image) texture) := h.congr rfl id
    have hslot := h₁.slot_empty_or_holds i
    refine Cmd.wlp_mono (eglImageSlotRelease_spec (t := t₁)
      (hslot.imp id ImageSlot.Holds.of_drop)) ?_
    rintro _ _ _ ⟨rfl, rfl⟩
    have hempty : (t₁.egl.setSlot i .empty).imageSlots i = .empty := Function.update_self ..
    refine ⟨?_, ⟨(t₁.drops_release i).slots, rfl, rfl⟩, congrArg ImageSlot.fbId hempty, rfl, ?_, ?_⟩
    · rw [GlWorld.drop_comm]
      exact h₁.release i
    · apply GlWorld.drop_images_ne
      intro hi
      rcases hslot with hempty | ⟨image', r, him, hr, -⟩
      · rw [hempty] at hi
        cases hi
      · exact (GlWorld.drop_images hr).1 (hi.symm.trans him)
    · apply GlWorld.drop_textures_ne
      rintro ⟨hx, hnz⟩
      rcases hslot with hempty | ⟨image', r, -, -, ht, hnz', -⟩
      · rw [hempty] at hnz
        exact hnz rfl
      · exact (GlWorld.drop_textures ht).1 ⟨hx.symm, hx ▸ hnz⟩

theorem adopt_spec {image texture : ℕ} {useCache : Bool} {free : Option ImageSlotId}
    {slot : ImageSlot K} (h : t.egl.Caches (w.drop (some image) texture))
    (hup : t.egl.initialized = true) (hnew : slot.Holds w) (himage : slot.image = some image)
    (htexture : slot.texture = texture)
    (hcache : useCache = true → slot.fbId ≠ 0 ∧
      (∀ i, free = some i → (t.egl.imageSlots i).fbId = 0) ∧
      ∀ i, (t.egl.imageSlots i).fbId = slot.fbId → (t.egl.imageSlots i).owner ≠ slot.owner) :
    Cmd.wlp glEnv (adopt useCache free slot) (fun _ t' w' => w'.request = w.request ∧
      w'.images image = w.images image ∧ w'.textures texture = w.textures texture ∧
        t'.egl.Caches (if useCache then w' else w'.drop (some image) texture)) t w := by
  unfold adopt
  simp only [Cmd.wlp_bind, Cmd.wlp_ite, Cmd.wlp_pure, wlp_setImageSlot]
  refine ⟨fun hc => ?_, fun hc => ⟨trivial, trivial, trivial, ?_⟩⟩
  · obtain ⟨hid, hfree, hother⟩ := hcache hc
    refine Cmd.wlp_mono (slotFor_spec h hfree) ?_
    rintro i t₁ w₁ ⟨h₁, hdrop, hi, hr, himg, htex⟩
    refine ⟨hr, himg, htex, ?_⟩
    rw [if_pos hc]
    refine h₁.adopt hi (hdrop.initialized.trans hup) ?_ himage htexture hid ?_
    · obtain ⟨own, r, ho, hlive, hshown, hrest⟩ := hnew
      obtain rfl : image = own := Option.some.inj (himage.symm.trans ho)
      refine ⟨image, r, ho, himg.trans hlive, ?_, hrest⟩
      rw [htexture] at hshown ⊢
      exact htex.trans hshown
    · intro j hj
      rcases hdrop.slots j with heq | heq
      · rw [heq] at hj ⊢
        exact hother j hj
      · rw [heq] at hj
        exact absurd hj.symm hid
  · rw [if_neg hc]
    exact h

/-- An image that may be drawn for the request, held by a slot or by nothing but the call. -/
structure Acquires (w : GlWorld) (r : Except ℤ Acquired) (t' : EglThread K) (w' : GlWorld) :
    Prop where
  request : w'.request = w.request
  error : ∀ e, r = .error e → t'.egl.Caches w'
  ok : ∀ a, r = .ok a → a.Serves w' ∧
    t'.egl.Caches (if a.cached then w' else w'.drop a.image a.texture)

variable {k : K} {call : EglCall} {inode : UInt64}

theorem importImage_spec {useCache : Bool} {free : Option ImageSlotId} (h : t.egl.Caches w)
    (hup : t.egl.initialized = true) (hfd : w.request.fd = call.dmaBufFd)
    (hinode : inode = w.request.inode) (hknown : inode ≠ 0 → inode = w.request.target)
    (hcache : useCache = true → call.fbId ≠ 0 ∧
      (∀ i, free = some i → (t.egl.imageSlots i).fbId = 0) ∧
      ∀ i, ¬ (t.egl.imageSlots i).IsOf k call.fbId) :
    Cmd.wlp glEnv (importImage k call w.request.geometry inode useCache free)
      (fun r t' w' => Acquires w r t' w') t w := by
  unfold importImage
  simp only [Cmd.wlp_bind, Cmd.wlp_ite, Cmd.wlp_pure]
  refine ⟨fun _ => ⟨rfl, fun _ _ => h, by simp⟩, fun _ => ?_⟩
  rw [← hfd]
  refine Cmd.wlp_mono eglImportDmabuf_spec ?_
  rintro (_ | image) _ w₁ ⟨rfl, hnone, hsome⟩
  · obtain rfl := hnone rfl
    exact ⟨rfl, fun _ _ => h, by simp⟩
  obtain ⟨hdead, rfl⟩ := hsome image rfl
  simp only [Cmd.wlp_bind]
  have himage : (w.setImage image (some w.request)).images image = some w.request :=
    Function.update_self ..
  refine Cmd.wlp_mono (eglMakeExternalTexture_spec (by simp [himage])) ?_
  rintro (_ | texture) _ w₂ ⟨rfl, hnone, hsome⟩
  · obtain rfl := hnone rfl
    simp only [Cmd.wlp_bind, Cmd.wlp_pure]
    rw [wlp_gl]
    refine ⟨by simp [GlWorld.legal, himage], ?_⟩
    rintro _ _ rfl
    refine ⟨rfl, fun _ _ => ?_, by simp⟩
    simp only [GlWorld.setImage, Function.update_idem]
    rw [← hdead, Function.update_eq_self]
    exact h
  obtain ⟨hnz, hdead', rfl⟩ := hsome texture rfl
  simp only [Cmd.wlp_bind, Cmd.wlp_pure]
  set w₂ := (w.setImage image (some w.request)).setTexture texture (some (some image)) with hw₂
  have hshown : w₂.textures texture = some (some image) := Function.update_self ..
  have hback : w₂.drop (some image) texture = w := GlWorld.drop_added hdead hdead' hnz
  refine Cmd.wlp_mono (adopt_spec (hback.symm ▸ h) hup ?_ rfl rfl ?_) ?_
  · exact ⟨image, w.request, rfl, himage, hshown, hnz, rfl, hinode, hinode ▸ hknown⟩
  · intro hc
    obtain ⟨hid, hfree, hmiss⟩ := hcache hc
    exact ⟨hid, hfree, fun i hi ho => hmiss i ⟨hi, ho⟩⟩
  · rintro _ t₃ w₃ ⟨hr, himg, htex, hc⟩
    refine ⟨hr, by simp, ?_⟩
    rintro _ ⟨⟩
    refine ⟨⟨image, w.request, rfl, hnz, htex.trans hshown, himg.trans himage, ?_⟩, hc⟩
    rw [hr]
    exact ⟨rfl, fun _ _ => rfl⟩

theorem releaseUncached_spec {a : Acquired} (ha : a.Serves w) :
    Cmd.wlp glEnv (releaseUncached a) (fun _ t' w' => t' = t ∧
      w' = if a.cached then w else w.drop a.image a.texture) t w := by
  obtain ⟨image, r, himage, hnz, hshown, hlive, -⟩ := ha
  unfold releaseUncached
  simp only [Cmd.wlp_bind, Cmd.wlp_ite, Cmd.wlp_pure]
  refine ⟨fun hc => ⟨trivial, (if_pos hc).symm⟩, fun hc => ?_⟩
  rw [wlp_gl]
  refine ⟨by simp [GlWorld.legal, hshown], ?_⟩
  rintro _ _ rfl
  rw [himage, if_neg hc]
  refine ⟨by simp [GlWorld.legal, GlWorld.setTexture, hlive], ?_⟩
  rintro _ _ rfl
  exact ⟨rfl, GlWorld.setTexture_setImage hnz⟩

theorem hashFail_moves : EglMoves (hashFail : EglM K Bool) :=
  .bind (modifyHash_moves _) fun _ => .pure _

theorem noteGen_moves : EglMoves (noteGen k) :=
  .bind (.bind .get fun _ => .pure _) fun _ => modifyHash_moves _

variable [DecidableEq K] {address : ℕ → ℕ}

/-- A hit is served from an image that was imported for the same, as far as is known; a miss
imports one. -/
theorem acquireImage_spec (h : t.egl.Caches w) (hup : t.egl.initialized = true)
    (hfd : w.request.fd = call.dmaBufFd) (hinode : inode = w.request.inode)
    (hknown : inode ≠ 0 → inode = w.request.target) :
    Cmd.wlp glEnv (acquireImage k call w.request.geometry inode)
      (fun r t' w' => Acquires w r t' w') t w := by
  unfold acquireImage lookUpImage
  simp only [Cmd.wlp_bind, Cmd.wlp_ite, Cmd.wlp_pure, wlp_getEgl]
  refine ⟨fun hcache => ?_, fun hcache => ?_⟩
  · simp only [decide_eq_true_eq] at hcache
    refine Cmd.wlp_mono (findImage_spec hcache.1 h (by simp)) ?_
    rintro ⟨hit, free⟩ t₁ w₁ ⟨h₁, hdrop, hr, hlook⟩
    cases hit with
    | none =>
      rw [← hr] at hfd hinode hknown ⊢
      refine Cmd.wlp_mono (importImage_spec h₁ (hdrop.initialized.trans hup) hfd hinode hknown ?_) ?_
      · exact fun _ => ⟨hcache.1, hlook.free, fun i => hlook.miss rfl i (List.mem_finRange i)⟩
      · rintro r t₂ w₂ ⟨hr₂, herror, hok⟩
        exact ⟨hr₂.trans hr, herror, hok⟩
    | some i =>
      obtain ⟨hof, hgeometry, hident⟩ := hlook.hit i rfl
      have hused : (t₁.egl.imageSlots i).fbId ≠ 0 := hof.1 ▸ hcache.1
      obtain ⟨image, r, him, hlive, hshown, hnz, hg, hi, hk⟩ := h₁.used i hused
      simp only [Cmd.wlp_bind, Cmd.wlp_pure, wlp_getImageSlot]
      rw [wlp_gl]
      refine ⟨by simp [GlWorld.legal, hshown], ?_⟩
      rintro _ _ rfl
      refine ⟨hr, by simp, ?_⟩
      rintro _ ⟨⟩
      refine ⟨⟨image, r, him, hnz, hshown, hlive, ?_⟩, h₁⟩
      rw [hr]
      refine ⟨hg.symm.trans hgeometry, fun hr₀ hw₀ => ?_⟩
      rw [← hinode] at hw₀
      rw [hi] at hident
      rw [← hk hr₀, (hident.resolve_left hw₀).resolve_left hr₀, hknown hw₀]
  · refine importImage_spec h hup hfd hinode hknown fun hc => ?_
    exact absurd hc hcache

theorem onCtx_moves {α : Type} (m : M α) : EglMoves (onCtx k m) :=
  .zoom (fun _ => trivial) fun _ _ => ⟨rfl, id⟩

theorem hashCheck_moves (wasValid : Bool) (out : Memory.Slice) :
    EglMoves (hashCheck address k wasValid call out) := by
  have hgrow (bytes : ℕ) : EglMoves (growGrids bytes : EglM K Bool) := by
    refine .bind getHash_moves fun _ => .ite (.bind (gl_moves _) fun _ => .bind (gl_moves _) ?_)
      (.pure _)
    exact fun _ => .ite (.bind (modifyHash_moves _) fun _ => hashFail_moves)
      (.bind (modifyHash_moves _) fun _ => .pure _)
  have hsize (gw gh : UInt32) : EglMoves (sizeTarget gw gh : EglM K Bool) := by
    refine .bind getHash_moves fun _ => .ite (.bind (gl_moves _) fun _ => .ite ?_ hashFail_moves)
      (.pure _)
    exact .bind (modifyHash_moves _) fun _ => .pure _
  have hread : EglMoves (readGrid call.width call.height : EglM K Bool) := by
    refine .bind (gl_moves _) fun _ => .bind (modifyHash_moves _) fun _ => .bind (gl_moves _) ?_
    exact fun _ => .ite hashFail_moves (.bind (modifyHash_moves _) fun _ => .pure _)
  have hcompare : EglMoves (compareGrids address k wasValid call out) := by
    refine .bind getHash_moves fun _ => .ite (.bind (modifyHash_moves _) fun _ => ?_) (.pure _)
    exact .bind (.modify fun _ => ⟨rfl, id⟩) fun _ => .pure _
  refine .bind (modifyHash_moves _) fun _ => .bind getHash_moves fun _ => .ite (.pure _) ?_
  refine .ite (.pure _) (.bind (hgrow _) fun _ => .ite (.pure _) ?_)
  exact .bind (hsize _ _) fun _ => .ite (.pure _) (.bind hread fun _ => .ite (.pure _) hcompare)

theorem resolveOut_moves (hashing wasValid : Bool) :
    EglMoves (resolveOut address k call hashing wasValid) := by
  have hcommit (out : Memory.Slice) : EglMoves (hashCommit address k call out) :=
    .bind (modifyHash_moves _) fun _ => .bind getHash_moves fun _ => .modify fun _ => ⟨rfl, id⟩
  have hread (dst : Memory.Slice) : EglMoves (readBack address k call hashing dst) := by
    refine .bind (gl_moves _) fun _ => .bind (onCtx_moves _) fun _ => .bind (gl_moves _) fun _ => ?_
    refine .ite (.pure _) (.bind getHash_moves fun _ => .ite ?_ (.pure _))
    exact .bind (hcommit dst) fun _ => .bind noteGen_moves fun _ => .pure _
  have hensure : EglMoves (ensureOut k (call.width.toNat * call.height.toNat * 4)) :=
    .bind (onCtx_moves _) fun _ => .bind (.modify fun _ => ⟨rfl, id⟩) fun _ => .pure _
  apply Cmd.Moves.bind hensure
  rintro (e | dst)
  · exact .pure _
  · refine .bind (.ite (hashCheck_moves wasValid dst) (.pure _)) fun _ => .ite ?_ (hread dst)
    exact .bind noteGen_moves fun _ => .pure _

theorem drawAndRead_images {drawn : DrawnFrom} {texture : ℕ} {wasValid : Bool}
    (hdrawn : drawn.geometry = w.request.geometry) (hshows : w.Shows texture) :
    Cmd.wlp glEnv (drawAndRead address k call drawn texture wasValid)
      (fun _ t' w' => t.SameImages t' ∧ w' = w) t w := by
  unfold drawAndRead
  rw [Cmd.wlp_bind, wlp_gl]
  refine ⟨⟨hdrawn, hshows⟩, ?_⟩
  rintro _ _ rfl
  apply EglMoves.spec
  refine .bind (.bind .get fun _ => .pure _) fun _ => .bind getHash_moves fun _ => ?_
  refine .bind (.ite (gl_moves _) (.pure _)) fun _ => .ite (.pure _) (resolveOut_moves _ _)

/-- A convert draws what it asked for, and leaves what the slots hold. -/
theorem convertCurrent_images {wasValid : Bool} (h : t.egl.Caches w)
    (hup : t.egl.initialized = true)
    (hask : w.request.geometry = call.geometry (t.ctxs k)) (hfd : w.request.fd = call.dmaBufFd)
    (h0 : w.request.inode = 0) :
    Cmd.wlp glEnv (convertCurrent address k call wasValid) (fun _ t' w' => t'.egl.Caches w')
      t w := by
  unfold convertCurrent
  simp only [Cmd.wlp_bind, wlp_ctxOf]
  rw [← hfd]
  refine Cmd.wlp_mono (currentInode_spec h0) ?_
  rintro inode _ _ ⟨rfl, rfl, hknown⟩
  rw [← hask]
  refine Cmd.wlp_mono (acquireImage_spec (w := w.knows inode) (h.ask _) hup hfd rfl hknown) ?_
  rintro (e | a) t₁ w₁ ⟨hr, herror, hok⟩
  · exact herror e rfl
  · obtain ⟨hserves, hc⟩ := hok a rfl
    simp only [Cmd.wlp_bind, Cmd.wlp_pure]
    obtain ⟨image, r, -, -, hshown, hlive, hmay⟩ := id hserves
    refine Cmd.wlp_mono (drawAndRead_images ?_ ⟨image, r, hshown, hlive, hmay⟩) ?_
    · rw [hr]
      rfl
    · rintro _ t₂ _ ⟨hsame, rfl⟩
      refine Cmd.wlp_mono (releaseUncached_spec hserves) ?_
      rintro _ _ _ ⟨rfl, rfl⟩
      exact hc.same hsame

theorem drmtapGpuEglConvertOn_images (h : t.egl.Caches w)
    (hask : w.request.geometry = call.geometry (t.ctxs k)) (hfd : w.request.fd = call.dmaBufFd)
    (h0 : w.request.inode = 0) :
    Cmd.wlp glEnv (drmtapGpuEglConvertOn address k call) (fun _ t' w' => t'.egl.Caches w')
      t w := by
  have h₀ : EglState.Caches { t.egl with
      hash := { t.egl.hash with valid := false, fresh := false } } w := h.congr rfl id
  unfold drmtapGpuEglConvertOn eglConvertImpl
  simp only [Cmd.wlp_bind, Cmd.wlp_ite, Cmd.wlp_pure, wlp_getHash, wlp_modifyHash, wlp_debugLog]
  refine ⟨fun _ => h₀, fun _ => ?_⟩
  refine Cmd.wlp_mono (Cmd.Steps.wlp_and (leaveDevice_keeps k) (leaveDevice_spec k h₀)) ?_
  rintro _ t₁ w₁ ⟨hk₁, h₁, hr₁⟩
  refine Cmd.wlp_mono (Cmd.Steps.wlp_and (ensureInit_keeps k) (ensureInit_spec k)) ?_
  rintro ret t₂ _ ⟨hk₂, hsame, rfl, hup⟩
  have h₂ := h₁.same hsame
  have hctxs : t₂.ctxs = t.ctxs := hk₂.ctxs.trans hk₁.ctxs
  refine ⟨fun _ => h₂, fun hret => wlp_untracked fun _ => wlp_untracked fun _ =>
    ⟨fun _ => ?_, fun _ => h₂⟩⟩
  rw [← hr₁] at hask hfd h0
  rw [← hctxs] at hask
  exact convertCurrent_images h₂ (hup (not_lt.mp hret)) hask hfd h0

end Specs

/-! Runs -/

section Runs
variable {K : Type} [DecidableEq K] {address : ℕ → ℕ} {s s' : EglThread K × GlWorld}

/-- One step of a thread: a convert, whatever buffers there are by then, a cleanup, or other code,
which may do what it likes to the contexts. -/
inductive ImageStep (address : ℕ → ℕ) : EglThread K × GlWorld → EglThread K × GlWorld → Prop where
  | convert {t t' : EglThread K} {w w' : GlWorld} (k : K) (call : EglCall) (buffer : ℤ → UInt64)
      (r : Except ℤ (Memory.Slice × ℕ))
      (h : Cmd.Runs glEnv (drmtapGpuEglConvertOn address k call) t
        (w.ask (call.geometry (t.ctxs k)) call.dmaBufFd buffer) r t' w') :
      ImageStep address (t, w) (t', w')
  | cleanup {t t' : EglThread K} {w w' : GlWorld}
      (h : Cmd.Runs glEnv drmtapGpuEglThreadCleanup t w () t' w') :
      ImageStep address (t, w) (t', w')
  | elsewhere {t t' : EglThread K} {w : GlWorld} (h : t'.egl = t.egl) :
      ImageStep address (t, w) (t', w)

theorem EglState.Caches.convert {t : EglThread K} {w : GlWorld} (h : t.egl.Caches w) (k : K)
    (call : EglCall) (buffer : ℤ → UInt64) :
    Cmd.wlp glEnv (drmtapGpuEglConvertOn address k call) (fun _ t' w' => t'.egl.Caches w') t
      (w.ask (call.geometry (t.ctxs k)) call.dmaBufFd buffer) :=
  drmtapGpuEglConvertOn_images (h.ask _) rfl rfl rfl

theorem ImageStep.caches (h : s.1.egl.Caches s.2) (hstep : ImageStep address s s') :
    s'.1.egl.Caches s'.2 := by
  cases hstep with
  | convert k call buffer r hrun => exact Cmd.wlp_runs (h.convert k call buffer) hrun
  | cleanup hrun => exact (Cmd.wlp_runs (eglCleanup_spec h) hrun).1
  | elsewhere hsame => exact hsame ▸ h

/-- In every run of a thread, the slots hold exactly the living images and textures, each once, and
at most one slot is of a framebuffer. From every state, a convert uses and destroys what is alive
only, and draws from an image that was imported for the same geometry and, where both inodes are
known, from the same buffer; and a cleanup leaves nothing alive. -/
theorem image_cache_integrity (h0 : s.1.egl = .zero) (hw : s.2.Dead)
    (hrun : Relation.ReflTransGen (ImageStep address) s s') :
    s'.1.egl.Caches s'.2 ∧
      (∀ (k : K) (call : EglCall) (buffer : ℤ → UInt64),
        Cmd.wlp glEnv (drmtapGpuEglConvertOn address k call) (fun _ t' w' => t'.egl.Caches w') s'.1
          (s'.2.ask (call.geometry (s'.1.ctxs k)) call.dmaBufFd buffer)) ∧
      Cmd.wlp glEnv drmtapGpuEglThreadCleanup (fun _ _ w' => w'.Dead) s'.1 s'.2 := by
  have hc : s'.1.egl.Caches s'.2 := by
    induction hrun with
    | refl => exact h0 ▸ EglState.caches_zero hw
    | tail _ hstep ih => exact hstep.caches ih
  refine ⟨hc, hc.convert, Cmd.wlp_mono (eglCleanup_spec hc) ?_⟩
  rintro _ t' w' ⟨hc', -, hall⟩
  exact hc'.dead hall

end Runs

/-- A device on which everything works, but for the memory of the output. -/
def glDevice (w : GlWorld) : (o : Op ⊕ GlOp) → Option (EglAns o × GlWorld)
  | .inl (.malloc _) => some (none, w)
  | .inr (.createImage _) =>
    if (w.images 1).isNone then some (some 1, w.setImage 1 (some w.request)) else none
  | .inr .genTexture =>
    if (w.textures 2).isNone then some ((2 : ℕ), w.setTexture 2 (some none)) else none
  | .inr (.imageTargetTexture texture image) =>
    some ((), w.setTexture texture (some (some image)))
  | .inr (.fstatInode fd) => some (some (w.request.buffer fd), w.knows (w.request.buffer fd))
  | .inr .getenvSkipUnchanged | .inr .getenvNoImageCache | .inr .getError => some (false, w)
  | .inr (.bindTexture _) | .inr (.draw _ _) => some ((), w)
  | .inr .loadEglProcs | .inr (.display _) | .inr .eglInitialize | .inr .chooseConfig
  | .inr (.createContext _) | .inr (.makeCurrent _) | .inr .createProgram => some (true, w)
  | _ => none

theorem glDevice_step (w : GlWorld) (o : Op ⊕ GlOp) (r : EglAns o) (w' : GlWorld)
    (h : glDevice w o = some (r, w')) : glEnv.step w o r w' := by
  unfold glDevice at h
  split at h
  case h_2 =>
    split at h
    · next hnew =>
      cases h
      exact ⟨Option.isNone_iff_eq_none.mp hnew, rfl⟩
    · cases h
  case h_3 =>
    split at h
    · next hnew =>
      cases h
      exact ⟨two_ne_zero, Option.isNone_iff_eq_none.mp hnew, rfl⟩
    · cases h
  case h_5 =>
    cases h
    exact ⟨.inr rfl, rfl⟩
  all_goals
    cases h
    try rfl

def emptyWorld : GlWorld := ⟨⟨⟨0, 0, 0, 0, 0, 0, fun _ => 0, fun _ => 0⟩, -1, fun _ => 9, 0⟩,
  fun _ => none, fun _ => none⟩

def cachedCall : EglCall := ⟨5, 16, 16, 64, fmtXR24, 0, 7⟩

theorem image_cache_integrity_imported :
    ∃ s : EglThread Unit × GlWorld, (s.1.egl.imageSlots 0).fbId = 7 ∧ s.1.egl.Caches s.2 := by
  have hexec : (Cmd.exec 0 glDevice (drmtapGpuEglConvertOn id () cachedCall) newThread
      (emptyWorld.ask (cachedCall.geometry (newThread.ctxs ())) 5 fun _ => 9)).map
        (fun x => (x.1.2.egl.imageSlots 0).fbId) = some 7 := rfl
  obtain ⟨x, hx, hid⟩ := Option.map_eq_some_iff.mp hexec
  have hstep : ImageStep id (newThread, emptyWorld) (x.1.2, x.2) :=
    .convert () cachedCall (fun _ => 9) x.1.1 (Cmd.exec_runs glDevice_step hx)
  exact ⟨(x.1.2, x.2), hid,
    (image_cache_integrity rfl ⟨fun _ => rfl, fun _ => rfl⟩ (.single hstep)).1⟩

end Drmtap
