import Mathlib

/-! The choice of a render node: `drmtap_open_render` of drmtap.c, which ranks the nodes by the
displays of their cards, and what becomes of the ranking when the best node cannot be opened. -/
namespace Drmtap

/-- A file name or a path, byte by byte. -/
abbrev SysName := List Char

/-- An entry of /sys/class/drm: a card, a connector or a render node. -/
structure SysEntry where
  name : SysName
  /-- the names in its device/drm, in the order of `readdir` -/
  deviceDrm : Option (List SysName)
  status : Option (List Char)
  enabled : Option (List Char)

/-- What the process sees: the directory, empty where it cannot be opened, and the paths that it
may open. -/
structure RenderHost where
  sysClassDrm : List SysEntry
  opens : SysName → Bool
  distinct : (sysClassDrm.map SysEntry.name).Nodup

/-- The C string that a line of a file reads as. -/
def firstLine (content : List Char) : List Char := content.takeWhile fun c => c ≠ '\n' ∧ c ≠ '\x00'

/-- `read_sysfs_line` into a buffer of `len` bytes. -/
def readSysfsLine (content : Option (List Char)) (len : ℕ) : Option (List Char) :=
  match content with
  | none => none
  | some bytes =>
    let buf := bytes.take (len - 1)
    if buf = [] then none else some (firstLine buf)

/-- The name of a primary node: "card" and more, and no connector's suffix. -/
def isCardName (name : SysName) : Bool :=
  "card".toList.isPrefixOf name && 4 < name.length && !name.contains '-'

def cardForRenderNode (ent : SysEntry) (outLen : ℕ) : Option SysName :=
  match ent.deviceDrm with
  | none => none
  | some names => names.find? fun name => isCardName name && name.length < outLen

/-- A connector of a card: "<card>-<CONNECTOR>". -/
def isConnectorOf (card name : SysName) : Bool :=
  card.isPrefixOf name && name[card.length]? = some '-'

/-- The loop of `card_output_rank`. -/
def outputRank (card : SysName) : List SysEntry → ℕ → ℕ
  | [], rank => rank
  | ent :: rest, rank =>
    if ¬ isConnectorOf card ent.name then outputRank card rest rank
    else if readSysfsLine ent.status 32 ≠ some "connected".toList then outputRank card rest rank
    else
      let rank := if rank < 1 then 1 else rank
      if readSysfsLine ent.enabled 32 = some "enabled".toList then 2 else outputRank card rest rank

def cardOutputRank (host : RenderHost) (card : SysName) : ℕ := outputRank card host.sysClassDrm 0

def isRenderName (name : SysName) : Bool := "renderD".toList.isPrefixOf name

/-- The loop of `pick_scanout_render_node`, with the best rank and name so far. -/
def pickLoop (host : RenderHost) : List SysEntry → ℕ → SysName → ℕ × SysName
  | [], bestRank, best => (bestRank, best)
  | ent :: rest, bestRank, best =>
    if ¬ isRenderName ent.name then pickLoop host rest bestRank best
    else
      match cardForRenderNode ent 64 with
      | none => pickLoop host rest bestRank best
      | some card =>
        if 64 ≤ ent.name.length then pickLoop host rest bestRank best
        else
          let rank := cardOutputRank host card
          if bestRank < rank then
            if 2 ≤ rank then (rank, ent.name) else pickLoop host rest rank ent.name
          else pickLoop host rest bestRank best

def pickScanoutRenderNode (host : RenderHost) : Option SysName :=
  let (bestRank, best) := pickLoop host host.sysClassDrm 0 []
  if bestRank = 0 then none else some best

/-- The path of a node. -/
def devDri (name : SysName) : SysName := "/dev/dri/".toList ++ name

def renderName (minor : ℕ) : SysName := "renderD".toList ++ (toString minor).toList

/-- The render minors. -/
def renderNames : List SysName := (List.range' 128 64).map renderName

/-- The path that is opened, `none` for NULL; the context is allocated. -/
def drmtapOpenRender (host : RenderHost) (renderNode : Option SysName) : Option SysName :=
  let path := renderNode.getD []
  if path ≠ [] then if host.opens path then some path else none
  else
    let preferred := (pickScanoutRenderNode host).bind fun best =>
      if host.opens (devDri best) then some (devDri best) else none
    match preferred with
    | some path => some path
    | none => (renderNames.find? fun name => host.opens (devDri name)).map devDri

/-! What the ranks say -/

namespace SysEntry

/-- The connector has a monitor. -/
def Connected (e : SysEntry) : Prop := e.status.map firstLine = some "connected".toList

def Enabled (e : SysEntry) : Prop := e.enabled.map firstLine = some "enabled".toList

instance (e : SysEntry) : Decidable e.Connected := inferInstanceAs (Decidable (_ = _))

instance (e : SysEntry) : Decidable e.Enabled := inferInstanceAs (Decidable (_ = _))

end SysEntry

namespace RenderHost
variable (host : RenderHost)

/-- 2 for a card with a connector that is connected and enabled, 1 for one that has a connected
one, 0 for another. -/
def cardRank (card : SysName) : ℕ :=
  if ∃ e ∈ host.sysClassDrm, isConnectorOf card e.name ∧ e.Connected ∧ e.Enabled then 2
  else if ∃ e ∈ host.sysClassDrm, isConnectorOf card e.name ∧ e.Connected then 1
  else 0

/-- The rank of the card of an entry, 0 when that is unknown. -/
def entryRank (e : SysEntry) : ℕ := (cardForRenderNode e 64).elim 0 host.cardRank

/-- The rank of a render node, by its name. -/
def rank (name : SysName) : ℕ :=
  (host.sysClassDrm.find? fun e => e.name = name).elim 0 host.entryRank

/-- A render node that can be opened. -/
def Usable (name : SysName) : Prop := name ∈ renderNames ∧ host.opens (devDri name)

/-- The entry can be picked. -/
def Candidate (e : SysEntry) : Prop := isRenderName e.name ∧ e.name.length < 64

/-- The first listed node of the highest rank, where some node has a rank. -/
def FirstBest (name : SysName) : Prop :=
  ∃ before e after, host.sysClassDrm = before ++ e :: after ∧ e.name = name ∧ Candidate e ∧
    0 < host.entryRank e ∧ (∀ e' ∈ before, Candidate e' → host.entryRank e' < host.entryRank e) ∧
    ∀ e' ∈ after, Candidate e' → host.entryRank e' ≤ host.entryRank e

/-- The lowest-numbered node that can be opened. -/
def FirstUsable (name : SysName) : Prop :=
  ∃ before after, renderNames = before ++ name :: after ∧ host.opens (devDri name) ∧
    ∀ n ∈ before, ¬ host.opens (devDri n)

/-- What auto-selection is to do: open a usable node of the highest rank, and fail only when there
is none. -/
def Best : Option SysName → Prop
  | none => ∀ m, ¬ host.Usable m
  | some path => ∃ n, path = devDri n ∧ host.opens path ∧ ∀ m, host.Usable m → host.rank m ≤ host.rank n

end RenderHost

/-! The code's ranks -/

theorem firstLine_take (n : ℕ) (l : List Char) : firstLine (l.take n) = (firstLine l).take n :=
  List.take_takeWhile.symm

/-- A short word is read as a line exactly where the file's first line is that word. -/
theorem readSysfsLine_eq_iff {content : Option (List Char)} {word : List Char} (hne : word ≠ [])
    (hlen : word.length < 31) :
    readSysfsLine content 32 = some word ↔ content.map firstLine = some word := by
  cases content with
  | none => simp [readSysfsLine]
  | some bytes =>
    have hbuf : bytes.take 31 = [] ↔ bytes = [] := by simp
    simp only [readSysfsLine, Nat.reduceSub, hbuf, Option.map_some, Option.some.injEq]
    by_cases hb : bytes = []
    · simp only [hb, if_true, firstLine, List.takeWhile_nil]
      exact iff_of_false (by simp) (fun h => hne h.symm)
    · rw [if_neg hb, Option.some.injEq, firstLine_take]
      constructor
      · intro h
        have hl := congrArg List.length h
        rw [List.length_take] at hl
        rwa [List.take_of_length_le (by omega)] at h
      · intro h
        rw [h, List.take_of_length_le (by omega)]

theorem connected_iff (e : SysEntry) :
    readSysfsLine e.status 32 = some "connected".toList ↔ e.Connected :=
  readSysfsLine_eq_iff (by decide) (by decide)

theorem enabled_iff (e : SysEntry) :
    readSysfsLine e.enabled 32 = some "enabled".toList ↔ e.Enabled :=
  readSysfsLine_eq_iff (by decide) (by decide)

theorem outputRank_eq (card : SysName) (entries : List SysEntry) {r : ℕ} (hr : r ≤ 1) :
    outputRank card entries r =
      if ∃ e ∈ entries, isConnectorOf card e.name ∧ e.Connected ∧ e.Enabled then 2
      else if ∃ e ∈ entries, isConnectorOf card e.name ∧ e.Connected then 1
      else r := by
  induction entries generalizing r with
  | nil => simp [outputRank]
  | cons e entries ih =>
    simp only [outputRank, ne_eq, connected_iff, enabled_iff, List.exists_mem_cons_iff]
    by_cases hconn : isConnectorOf card e.name
    · by_cases hstatus : e.Connected
      · by_cases henabled : e.Enabled
        · simp [hconn, hstatus, henabled]
        · have hone : (if r = 0 then 1 else r) = 1 := by
            split <;> omega
          simp [hconn, hstatus, henabled, hone, ih le_rfl]
      · simp [hconn, hstatus, ih hr]
    · simp [hconn, ih hr]

theorem cardOutputRank_eq (host : RenderHost) (card : SysName) :
    cardOutputRank host card = host.cardRank card := outputRank_eq card _ (Nat.zero_le 1)

namespace RenderHost
variable {host : RenderHost}

theorem entryRank_le (e : SysEntry) : host.entryRank e ≤ 2 := by
  unfold entryRank
  cases cardForRenderNode e 64 with
  | none => exact Nat.zero_le _
  | some card =>
    show host.cardRank card ≤ 2
    unfold cardRank
    split_ifs <;> omega

/-! The scan keeps the first of the best. -/

/-- The first best of some entries, with its rank. -/
def BestOf (host : RenderHost) (entries : List SysEntry) (r : ℕ) (name : SysName) : Prop :=
  ∃ before e after, entries = before ++ e :: after ∧ e.name = name ∧ Candidate e ∧
    host.entryRank e = r ∧ 0 < r ∧ (∀ e' ∈ before, Candidate e' → host.entryRank e' < r) ∧
    ∀ e' ∈ after, Candidate e' → host.entryRank e' ≤ r

/-- The state of the scan after some entries. -/
def Seen (host : RenderHost) (entries : List SysEntry) (r : ℕ) (name : SysName) : Prop :=
  r = 0 ∧ (∀ e ∈ entries, Candidate e → host.entryRank e = 0) ∨ host.BestOf entries r name

theorem forall_mem_concat {α : Type} {P : α → Prop} {l : List α} {a : α} (h : ∀ x ∈ l, P x)
    (ha : P a) : ∀ x ∈ l ++ [a], P x := by
  intro x hx
  rcases List.mem_append.mp hx with hx | hx
  · exact h x hx
  · exact List.mem_singleton.mp hx ▸ ha

theorem Seen.le {entries : List SysEntry} {r : ℕ} {name : SysName} (h : host.Seen entries r name) :
    ∀ e ∈ entries, Candidate e → host.entryRank e ≤ r := by
  intro e he hc
  rcases h with ⟨rfl, hall⟩ | ⟨before, b, after, rfl, -, -, hr, -, hbefore, hafter⟩
  · exact (hall e he hc).le
  · rcases List.mem_append.mp he with he | he
    · exact (hbefore e he hc).le
    · rcases List.mem_cons.mp he with rfl | he
      · exact hr.le
      · exact hafter e he hc

/-- An entry that is no better. -/
theorem Seen.skip {entries : List SysEntry} {r : ℕ} {name : SysName} {e : SysEntry}
    (h : host.Seen entries r name) (he : Candidate e → host.entryRank e ≤ r) :
    host.Seen (entries ++ [e]) r name := by
  rcases h with ⟨rfl, hall⟩ | ⟨before, b, after, rfl, hrest, hc, hr, hpos, hbefore, hafter⟩
  · exact .inl ⟨rfl, forall_mem_concat hall fun hc => Nat.le_zero.mp (he hc)⟩
  · exact .inr ⟨before, b, after ++ [e], by simp, hrest, hc, hr, hpos, hbefore,
      forall_mem_concat hafter he⟩

/-- A better one. -/
theorem Seen.take {entries : List SysEntry} {r : ℕ} {name : SysName} {e : SysEntry}
    (h : host.Seen entries r name) (hc : Candidate e) (hr : r < host.entryRank e) :
    host.BestOf (entries ++ [e]) (host.entryRank e) e.name :=
  ⟨entries, e, [], rfl, rfl, hc, rfl, by omega, fun e' he' hc' => (h.le e' he' hc').trans_lt hr,
    fun e' he' => absurd he' List.not_mem_nil⟩

/-- Nothing outranks a display that is on. -/
theorem BestOf.stop {entries : List SysEntry} {r : ℕ} {name : SysName}
    (h : host.BestOf entries r name) (hr : 2 ≤ r) (rest : List SysEntry) :
    host.BestOf (entries ++ rest) r name := by
  obtain ⟨before, b, after, rfl, hrest, hc, hb, hpos, hbefore, hafter⟩ := h
  refine ⟨before, b, after ++ rest, by simp, hrest, hc, hb, hpos, hbefore, fun e he hce => ?_⟩
  exact (entryRank_le e).trans hr

theorem pickLoop_seen (rest entries : List SysEntry) (r : ℕ) (name : SysName)
    (h : host.Seen entries r name) :
    host.Seen (entries ++ rest) (pickLoop host rest r name).1 (pickLoop host rest r name).2 := by
  induction rest generalizing entries r name with
  | nil => rwa [List.append_nil]
  | cons e rest ih =>
    have happ : entries ++ e :: rest = entries ++ [e] ++ rest := by simp
    rw [happ]
    unfold pickLoop
    split
    next hname => exact ih _ _ _ (h.skip fun hc => absurd hc.1 hname)
    next hname =>
      split
      next hcard =>
        have hzero : host.entryRank e = 0 := by rw [entryRank, hcard, Option.elim_none]
        exact ih _ _ _ (h.skip fun _ => by omega)
      next card hcard =>
        split
        next hlong => exact ih _ _ _ (h.skip fun hc => absurd hc.2 (not_lt.mpr hlong))
        next hshort =>
          have hc : Candidate e := ⟨not_not.mp hname, not_le.mp hshort⟩
          have hrank : cardOutputRank host card = host.entryRank e := by
            rw [cardOutputRank_eq, entryRank, hcard, Option.elim_some]
          rw [hrank]
          dsimp only
          split
          next hr =>
            split
            next htop => exact .inr ((h.take hc hr).stop htop rest)
            next => exact ih _ _ _ (.inr (h.take hc hr))
          next hr => exact ih _ _ _ (h.skip fun _ => not_lt.mp hr)

theorem BestOf.firstBest {r : ℕ} {name : SysName} (h : host.BestOf host.sysClassDrm r name) :
    host.FirstBest name := by
  obtain ⟨before, e, after, he, hn, hc, rfl, hpos, hbefore, hafter⟩ := h
  exact ⟨before, e, after, he, hn, hc, hpos, hbefore, hafter⟩

/-- What is picked is the first best, and nothing is picked where no node has a rank. -/
theorem pick_spec (host : RenderHost) :
    (pickScanoutRenderNode host = none ∧ ∀ e ∈ host.sysClassDrm, Candidate e → host.entryRank e = 0) ∨
      ∃ name, pickScanoutRenderNode host = some name ∧ host.FirstBest name := by
  have hnone : host.Seen [] 0 [] := .inl ⟨rfl, fun e he => absurd he List.not_mem_nil⟩
  have h := pickLoop_seen host.sysClassDrm [] 0 [] hnone
  rw [List.nil_append] at h
  unfold pickScanoutRenderNode
  dsimp only
  rcases h with ⟨hzero, hall⟩ | hbest
  · exact .inl ⟨if_pos hzero, hall⟩
  · obtain ⟨-, -, -, -, -, -, -, hpos, -⟩ := id hbest
    exact .inr ⟨_, if_neg hpos.ne', hbest.firstBest⟩

/-- There is one first best. -/
theorem FirstBest.unique {a b : SysName} (ha : host.FirstBest a) (hb : host.FirstBest b) : a = b := by
  obtain ⟨p, e, s, he, rfl, hc, -, hbefore, hafter⟩ := ha
  obtain ⟨p', e', s', he', rfl, hc', -, hbefore', hafter'⟩ := hb
  rw [he] at he'
  rcases List.append_eq_append_iff.mp he' with ⟨m, rfl, hm⟩ | ⟨m, rfl, hm⟩
  · cases m with
    | nil => exact congrArg SysEntry.name (List.cons.inj hm).1
    | cons x m =>
      obtain ⟨rfl, rfl⟩ := List.cons.inj hm
      have h1 := hbefore' e (by simp) hc
      have h2 := hafter e' (by simp) hc'
      omega
  · cases m with
    | nil => exact congrArg SysEntry.name (List.cons.inj hm).1.symm
    | cons x m =>
      obtain ⟨rfl, rfl⟩ := List.cons.inj hm
      have h1 := hbefore e' (by simp) hc'
      have h2 := hafter' e (by simp) hc
      omega

/-! The names of render nodes -/

theorem renderNames_candidate {name : SysName} (h : name ∈ renderNames) :
    isRenderName name ∧ name.length < 64 := by
  have hall : ∀ name ∈ renderNames, isRenderName name ∧ name.length < 64 := by decide +kernel
  exact hall name h

theorem devDri_injective : Function.Injective devDri := fun _ _ h => List.append_cancel_left h

/-- A node with a rank is listed. -/
theorem rank_pos {name : SysName} (h : 0 < host.rank name) :
    ∃ e ∈ host.sysClassDrm, e.name = name ∧ host.rank name = host.entryRank e := by
  unfold rank at h ⊢
  cases hfind : host.sysClassDrm.find? fun e => e.name = name with
  | none => simp [hfind] at h
  | some e =>
    exact ⟨e, List.mem_of_find?_eq_some hfind, by simpa using List.find?_some hfind, rfl⟩

/-- The rank of a listed node is that of its entry. -/
theorem rank_of_mem {e : SysEntry} (he : e ∈ host.sysClassDrm) :
    host.rank e.name = host.entryRank e := by
  have hnodup := host.distinct
  unfold rank
  cases hfind : host.sysClassDrm.find? fun e' => e'.name = e.name with
  | none => exact absurd (List.find?_eq_none.mp hfind e he) (by simp)
  | some e' =>
    have hname : e'.name = e.name := by simpa using List.find?_some hfind
    have hmem := List.mem_of_find?_eq_some hfind
    rw [List.inj_on_of_nodup_map hnodup hmem he hname]
    rfl

/-- A ranked render node is a candidate. -/
theorem rank_le {m : SysName} {r : ℕ} (hm : m ∈ renderNames)
    (hall : ∀ e ∈ host.sysClassDrm, Candidate e → host.entryRank e ≤ r) : host.rank m ≤ r := by
  by_cases hpos : 0 < host.rank m
  · obtain ⟨e, he, rfl, hr⟩ := rank_pos hpos
    rw [hr]
    exact hall e he (renderNames_candidate hm)
  · omega

/-- The first best node outranks every render node. -/
theorem FirstBest.rank_le {b m : SysName} (hb : host.FirstBest b) (hm : m ∈ renderNames) :
    host.rank m ≤ host.rank b := by
  obtain ⟨before, e, after, he, rfl, hc, -, hbefore, hafter⟩ := hb
  have hmem : e ∈ host.sysClassDrm := by
    rw [he]
    simp
  rw [rank_of_mem hmem]
  refine RenderHost.rank_le hm fun e' he' hc' => ?_
  rw [he] at he'
  rcases List.mem_append.mp he' with he' | he'
  · exact (hbefore e' he' hc').le
  · rcases List.mem_cons.mp he' with rfl | he'
    · exact le_rfl
    · exact hafter e' he' hc'

/-! The fallback -/

/-- The scan of the render minors. -/
def fallback (host : RenderHost) : Option SysName :=
  renderNames.find? fun name => host.opens (devDri name)

theorem fallback_none (h : host.fallback = none) (m : SysName) : ¬ host.Usable m := by
  rintro ⟨hm, hopens⟩
  exact List.find?_eq_none.mp h m hm hopens

theorem fallback_some {f : SysName} (h : host.fallback = some f) : host.FirstUsable f := by
  obtain ⟨hopens, before, after, hlist, hbefore⟩ := List.find?_eq_some_iff_append.mp h
  exact ⟨before, after, hlist, hopens, fun n hn => by simpa using hbefore n hn⟩

theorem FirstUsable.fallback {f : SysName} (h : host.FirstUsable f) : host.fallback = some f := by
  obtain ⟨before, after, hlist, hopens, hbefore⟩ := h
  exact List.find?_eq_some_iff_append.mpr
    ⟨hopens, before, after, hlist, fun n hn => by simpa using hbefore n hn⟩

theorem FirstUsable.usable {f : SysName} (h : host.FirstUsable f) : host.Usable f := by
  obtain ⟨before, after, hlist, hopens, -⟩ := h
  refine ⟨?_, hopens⟩
  rw [hlist]
  simp

/-- The fallback opens the best node where the first usable one is it. -/
theorem best_fallback_iff : host.Best (host.fallback.map devDri) ↔
    ∀ f m, host.FirstUsable f → host.Usable m → host.rank m ≤ host.rank f := by
  cases hf : host.fallback with
  | none =>
    refine iff_of_true (fallback_none hf) fun f m hfirst => ?_
    rw [hfirst.fallback] at hf
    cases hf
  | some f =>
    have hfirst := fallback_some hf
    constructor
    · rintro ⟨n, hn, -, hbest⟩ f' m hfirst' hm
      obtain rfl : f = f' := Option.some.inj (hf.symm.trans hfirst'.fallback)
      rw [devDri_injective hn]
      exact hbest m hm
    · intro hall
      exact ⟨f, rfl, hfirst.usable.2, fun m hm => hall f m hfirst hm⟩

end RenderHost

/-- Auto-selection opens a usable node of the highest rank, or fails where no node is usable,
exactly where the first of the best-ranked nodes can be opened, or the first of the usable nodes has
the highest rank of these. -/
theorem open_render_best_iff (host : RenderHost) :
    host.Best (drmtapOpenRender host none) ↔
      (∀ b, host.FirstBest b → host.opens (devDri b)) ∨
        ∀ f m, host.FirstUsable f → host.Usable m → host.rank m ≤ host.rank f := by
  have hauto : drmtapOpenRender host none =
      match (pickScanoutRenderNode host).bind fun best =>
        if host.opens (devDri best) then some (devDri best) else none with
      | some path => some path
      | none => host.fallback.map devDri := rfl
  rw [hauto]
  rcases RenderHost.pick_spec host with ⟨hpick, hzero⟩ | ⟨b, hpick, hb⟩
  · -- Nothing has a rank, and so every usable node is as good as the first.
    rw [hpick, Option.bind_none]
    refine iff_of_true (RenderHost.best_fallback_iff.mpr fun f m _ hm => ?_) (.inr fun f m _ hm => ?_)
    · exact (RenderHost.rank_le hm.1 fun e he hc => (hzero e he hc).le).trans (Nat.zero_le _)
    · exact (RenderHost.rank_le hm.1 fun e he hc => (hzero e he hc).le).trans (Nat.zero_le _)
  · rw [hpick, Option.bind_some]
    by_cases hopens : host.opens (devDri b)
    · rw [if_pos hopens]
      refine iff_of_true ⟨b, rfl, hopens, fun m hm => hb.rank_le hm.1⟩ (.inl fun b' hb' => ?_)
      rw [← hb.unique hb']
      exact hopens
    · rw [if_neg hopens]
      refine RenderHost.best_fallback_iff.trans ⟨.inr, fun h => ?_⟩
      rcases h with hall | hall
      · exact absurd (hall b hb) hopens
      · exact hall

/-- Three GPUs: the first has no output, the other two drive displays, and the second may not be
opened. -/
def threeGpus : RenderHost where
  sysClassDrm :=
    [⟨renderName 128, some ["card0".toList], none, none⟩,
      ⟨renderName 129, some ["card1".toList], none, none⟩,
      ⟨renderName 130, some ["card2".toList], none, none⟩,
      ⟨"card1-DP-1".toList, none, some "connected\n".toList, some "enabled\n".toList⟩,
      ⟨"card2-DP-2".toList, none, some "connected\n".toList, some "enabled\n".toList⟩]
  opens path := path ≠ devDri (renderName 129)
  distinct := by decide +kernel

theorem open_render_misses_best : ¬ ∀ host : RenderHost, host.Best (drmtapOpenRender host none) := by
  intro hall
  have hopened : drmtapOpenRender threeGpus none = some (devDri (renderName 128)) := by decide +kernel
  have hranks : threeGpus.rank (renderName 128) < threeGpus.rank (renderName 130) := by
    decide +kernel
  obtain ⟨n, hn, -, hbest⟩ := hopened ▸ hall threeGpus
  rw [← RenderHost.devDri_injective hn] at hbest
  have h130 : threeGpus.Usable (renderName 130) := by
    constructor <;> decide +kernel
  exact absurd (hbest _ h130) (not_le.mpr hranks)

end Drmtap
