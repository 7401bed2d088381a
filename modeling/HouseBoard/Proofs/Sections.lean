/-
HouseBoard.Proofs.Sections — what a section of a YAML text makes of a value.

A section has knobs, each with a name and a place in the value that the section stands for.
Section 1 lists the nodes that are given for a name, and says when a value is the overlay of a
standing one: a knob that is not given is as it was, one that is given once is as it was given,
and none is given twice.  Section 2 follows the entries one after another and finds that what is
read is the overlay, whatever the order of the entries and whatever else stands between them.
Section 3 goes one level deeper: the knobs of a section may be sections.
-/
import Mathlib.Data.List.Nodup
import HouseBoard.Yaml.Value

namespace HouseBoard.Yaml

/-! ## Section 1 — knobs -/

/-- The nodes that are given for a name. -/
def named (d : Document) (name : String) (entries : List (Node × Node)) : List Node :=
  entries.filterMap fun e => if Reader.text d e.1 = some name then some e.2 else none

/-- The entries of a section: those of a mapping, and none where nothing is written. -/
def Document.entries? (d : Document) (n : Node) : Option (List (Node × Node)) :=
  match d.resolve n with
  | .mapping entries => some entries
  | n => if n.isEmpty then some [] else none

/-- All keys are text. -/
def KeysAreText (d : Document) (entries : List (Node × Node)) : Prop :=
  ∀ e ∈ entries, ∃ name, Reader.text d e.1 = some name

/-- A knob of a section: its name, how it is read, and where it is kept. -/
structure Knob (σ : Type) where
  Value : Type
  name : String
  reader : Reader Value
  get : σ → Value
  put : Value → σ → σ

namespace Knob

variable {σ : Type}

/-- The entry of a knob. -/
def entry (k : Knob σ) : Entry σ := .of k.name k.reader k.put

/-- What nodes make of a knob. -/
inductive Overlaid (k : Knob σ) (d : Document) (standing s : σ) : List Node → Prop
  /-- A knob that is not given stands. -/
  | kept (h : k.get s = k.get standing) : Overlaid k d standing s []
  /-- One that is given once is where it was put. -/
  | given {n : Node} (h : k.reader d n = some (k.get s)) : Overlaid k d standing s [n]

theorem Overlaid.congr {k : Knob σ} {d : Document} {standing standing' s : σ}
    {nodes : List Node} (h : k.Overlaid d standing s nodes)
    (heq : k.get standing = k.get standing') : k.Overlaid d standing' s nodes := by
  cases h with
  | kept hkept => exact .kept (hkept.trans heq)
  | given hgiven => exact .given hgiven

end Knob

/-- Knobs that make up a value and do not touch each other. -/
structure Lawful {σ : Type} (knobs : List (Knob σ)) : Prop where
  names : (knobs.map Knob.name).Nodup
  get_put : ∀ k ∈ knobs, ∀ a s, k.get (k.put a s) = a
  get_put_other : ∀ k ∈ knobs, ∀ l ∈ knobs, k.name ≠ l.name → ∀ a s, l.get (k.put a s) = l.get s
  ext : ∀ s s', (∀ k ∈ knobs, k.get s = k.get s') → s = s'

/-- A value is what the entries of a section make of a standing one. -/
structure Overlay {σ : Type} (knobs : List (Knob σ)) (d : Document)
    (entries : List (Node × Node)) (standing s : σ) : Prop where
  keys : KeysAreText d entries
  each : ∀ k ∈ knobs, k.Overlaid d standing s (named d k.name entries)

/-! ## Section 2 — sections -/

section

variable {σ : Type} {d : Document} {name : String} {key value : Node}
  {rest : List (Node × Node)}

theorem named_cons_self (h : Reader.text d key = some name) :
    named d name ((key, value) :: rest) = value :: named d name rest :=
  List.filterMap_cons_some (if_pos h)

theorem named_cons_other {other : String} (h : Reader.text d key = some other)
    (hne : other ≠ name) : named d name ((key, value) :: rest) = named d name rest := by
  refine List.filterMap_cons_none (if_neg ?_)
  rw [h]
  exact fun heq => hne (Option.some.inj heq)

theorem keysAreText_cons : KeysAreText d ((key, value) :: rest) ↔
    (∃ name, Reader.text d key = some name) ∧ KeysAreText d rest := List.forall_mem_cons

/-- Knobs of one name are the same. -/
theorem Lawful.eq_of_name {knobs : List (Knob σ)} (h : Lawful knobs) {k l : Knob σ}
    (hk : k ∈ knobs) (hl : l ∈ knobs) (hname : k.name = l.name) : k = l :=
  List.inj_on_of_nodup_map h.names hk hl hname

/-- What has been taken is an overlay of what is still to come: knobs that were taken are
not given again. -/
structure OverlayFrom (knobs : List (Knob σ)) (d : Document) (entries : List (Node × Node))
    (taken : List String) (standing s : σ) : Prop where
  keys : KeysAreText d entries
  each : ∀ k ∈ knobs, k.Overlaid d standing s (named d k.name entries)
  once : ∀ k ∈ knobs, k.name ∈ taken → named d k.name entries = []

variable {knobs : List (Knob σ)} {taken : List String} {standing s : σ}

/-- At the beginning nothing has been taken. -/
theorem overlayFrom_iff {entries : List (Node × Node)} :
    OverlayFrom knobs d entries [] standing s ↔ Overlay knobs d entries standing s :=
  ⟨fun h => ⟨h.keys, h.each⟩, fun h => ⟨h.keys, h.each, fun _ _ htaken => nomatch htaken⟩⟩

/-- Without entries everything stands. -/
theorem overlayFrom_nil (hlawful : Lawful knobs) :
    OverlayFrom knobs d [] taken standing s ↔ standing = s := by
  constructor
  · intro h
    refine hlawful.ext _ _ fun k hk => ?_
    cases h.each k hk with
    | kept hkept => exact hkept.symm
  · rintro rfl
    exact ⟨List.forall_mem_nil _, fun k _ => .kept rfl, fun k _ _ => rfl⟩

/-- An entry of another name is passed over. -/
theorem overlayFrom_cons_unknown (hkey : Reader.text d key = some name)
    (hunknown : ∀ k ∈ knobs, k.name ≠ name) :
    OverlayFrom knobs d ((key, value) :: rest) taken standing s ↔
    OverlayFrom knobs d rest taken standing s := by
  have hrest : ∀ k ∈ knobs, named d k.name ((key, value) :: rest) = named d k.name rest :=
    fun k hk => named_cons_other hkey (hunknown k hk).symm
  constructor
  · rintro ⟨hkeys, heach, honce⟩
    exact ⟨(keysAreText_cons.mp hkeys).2, fun k hk => hrest k hk ▸ heach k hk,
      fun k hk => hrest k hk ▸ honce k hk⟩
  · rintro ⟨hkeys, heach, honce⟩
    exact ⟨keysAreText_cons.mpr ⟨⟨name, hkey⟩, hkeys⟩,
      fun k hk => (hrest k hk).symm ▸ heach k hk, fun k hk => (hrest k hk).symm ▸ honce k hk⟩

/-- The entry of a knob puts it where it was given, and no later one does. -/
theorem overlayFrom_cons_known (hlawful : Lawful knobs) {k : Knob σ} (hk : k ∈ knobs)
    (hkey : Reader.text d key = some k.name) :
    OverlayFrom knobs d ((key, value) :: rest) taken standing s ↔
      k.name ∉ taken ∧ ∃ a, k.reader d value = some a ∧
        OverlayFrom knobs d rest (k.name :: taken) (k.put a standing) s := by
  have hself : named d k.name ((key, value) :: rest) = value :: named d k.name rest :=
    named_cons_self hkey
  have hother {l : Knob σ} (hne : k.name ≠ l.name) :
      named d l.name ((key, value) :: rest) = named d l.name rest :=
    named_cons_other hkey hne
  constructor
  · rintro ⟨hkeys, heach, honce⟩
    have hfresh : k.name ∉ taken := by
      intro htaken
      have hnone := honce k hk htaken
      rw [hself] at hnone
      cases hnone
    have hgiven := heach k hk
    rw [hself] at hgiven
    generalize hnodes : named d k.name rest = nodes at hgiven
    cases hgiven with
    | given hread =>
      refine ⟨hfresh, k.get s, hread, (keysAreText_cons.mp hkeys).2, fun l hl => ?_,
        fun l hl htaken => ?_⟩
      · by_cases hname : k.name = l.name
        · obtain rfl := hlawful.eq_of_name hk hl hname
          rw [hnodes]
          exact .kept (hlawful.get_put k hk _ _).symm
        · rw [← hother hname]
          exact (heach l hl).congr (hlawful.get_put_other k hk l hl hname _ _).symm
      · by_cases hname : k.name = l.name
        · rw [← hname, hnodes]
        · rw [← hother hname]
          exact honce l hl ((List.mem_cons.mp htaken).resolve_left (Ne.symm hname))
  · rintro ⟨hfresh, a, hread, hkeys, heach, honce⟩
    have hnone := honce k hk List.mem_cons_self
    refine ⟨keysAreText_cons.mpr ⟨⟨_, hkey⟩, hkeys⟩, fun l hl => ?_, fun l hl htaken => ?_⟩
    · by_cases hname : k.name = l.name
      · obtain rfl := hlawful.eq_of_name hk hl hname
        have hkept := heach k hk
        rw [hnone] at hkept
        rw [hself, hnone]
        cases hkept with
        | kept hvalue =>
          rw [hlawful.get_put k hk] at hvalue
          exact .given (by rw [hread, hvalue])
      · rw [hother hname]
        exact (heach l hl).congr (hlawful.get_put_other k hk l hl hname _ _)
    · have hname : k.name ≠ l.name := fun heq => hfresh (heq ▸ htaken)
      rw [hother hname]
      exact honce l hl (List.mem_cons_of_mem _ htaken)

/-- Taking the entries one after another makes the overlay, and nothing if there is none. -/
theorem takeEntries_eq_some_iff (hlawful : Lawful knobs) (entries : List (Node × Node)) :
    Reader.takeEntries (knobs.map Knob.entry) d entries taken standing = some s ↔
      OverlayFrom knobs d entries taken standing s := by
  induction entries generalizing taken standing with
  | nil =>
    rw [overlayFrom_nil hlawful, Reader.takeEntries]
    exact Option.some_inj
  | cons e rest ih =>
    obtain ⟨key, value⟩ := e
    rw [Reader.takeEntries]
    cases hkey : Reader.text d key with
    | none =>
      refine iff_of_false (by simp) fun h => ?_
      obtain ⟨name, hname⟩ := (keysAreText_cons.mp h.keys).1
      rw [hkey] at hname
      cases hname
    | some name =>
      rw [Option.bind_eq_bind, Option.bind_some]
      cases hfind : (knobs.map Knob.entry).find? (·.name = name) with
      | none =>
        have hunknown : ∀ k ∈ knobs, k.name ≠ name := by
          intro k hk hname
          have h := List.find?_eq_none.mp hfind k.entry (List.mem_map_of_mem hk)
          exact h (decide_eq_true hname)
        rw [overlayFrom_cons_unknown hkey hunknown]
        exact ih
      | some entry =>
        obtain ⟨k, hk, rfl⟩ := List.mem_map.mp (List.mem_of_find?_eq_some hfind)
        have hname : k.name = name := by
          have hfound := List.find?_some hfind
          exact of_decide_eq_true hfound
        rw [← hname] at hkey ⊢
        rw [overlayFrom_cons_known hlawful hk hkey]
        dsimp only
        split
        · rename_i htaken
          exact iff_of_false (by simp) fun h => h.1 (List.contains_iff_mem.mp htaken)
        · rename_i hfresh
          have hentry : k.entry.read d value standing =
            (k.reader d value).map (k.put · standing) := rfl
          rw [hentry, and_iff_right (fun h => hfresh (List.contains_iff_mem.mpr h))]
          cases k.reader d value with
          | none => exact iff_of_false (by simp) fun ⟨_, h, _⟩ => nomatch h
          | some a =>
            constructor
            · exact fun h => ⟨a, rfl, ih.mp h⟩
            · rintro ⟨a', ha, h⟩
              cases ha
              exact ih.mpr h

theorem ofEntries_eq (known : List (Entry σ)) (absent : σ) (d : Document) (n : Node) :
    Reader.ofEntries known absent d n =
      (d.entries? n).bind fun entries => Reader.takeEntries known d entries [] absent := by
  unfold Reader.ofEntries Document.entries?
  cases d.resolve n with
  | mapping entries => rfl
  | _ =>
    dsimp only
    split
    · rfl
    · rfl

/-- Reading a section makes the overlay of its entries. -/
theorem ofEntries_eq_some_iff (hlawful : Lawful knobs) (n : Node) :
    Reader.ofEntries (knobs.map Knob.entry) standing d n = some s ↔
      ∃ entries, d.entries? n = some entries ∧ Overlay knobs d entries standing s := by
  rw [ofEntries_eq, Option.bind_eq_some_iff]
  exact exists_congr fun entries => and_congr_right fun _ =>
    (takeEntries_eq_some_iff hlawful entries).trans overlayFrom_iff

/-- What is given once at most is given alike in any order. -/
theorem Knob.Overlaid.perm {k : Knob σ} {nodes nodes' : List Node}
    (h : k.Overlaid d standing s nodes) (hperm : nodes.Perm nodes') :
    k.Overlaid d standing s nodes' := by
  cases h with
  | kept hkept =>
    obtain rfl := hperm.nil_eq
    exact .kept hkept
  | given hgiven =>
    obtain rfl := hperm.singleton_eq
    exact .given hgiven

theorem Overlay.perm {entries entries' : List (Node × Node)}
    (h : Overlay knobs d entries standing s) (hperm : entries.Perm entries') :
    Overlay knobs d entries' standing s where
  keys e he := h.keys e (hperm.mem_iff.mpr he)
  each k hk := (h.each k hk).perm (hperm.filterMap _)

theorem overlay_cons_unknown (hkey : Reader.text d key = some name)
    (hunknown : name ∉ knobs.map Knob.name) :
    Overlay knobs d ((key, value) :: rest) standing s ↔ Overlay knobs d rest standing s := by
  have hne : ∀ k ∈ knobs, k.name ≠ name :=
    fun k hk hname => hunknown (hname ▸ List.mem_map_of_mem hk)
  simp only [← overlayFrom_iff]
  exact overlayFrom_cons_unknown hkey hne

/-- A reader takes entries in any order, and passes over those that it does not know. -/
structure Unordered (r : Reader σ) (known : List String) : Prop where
  perm : ∀ d entries entries', List.Perm entries entries' →
    r d (.mapping entries) = r d (.mapping entries')
  unknown : ∀ d key value rest name, Reader.text d key = some name → name ∉ known →
    r d (.mapping ((key, value) :: rest)) = r d (.mapping rest)

theorem unordered_ofEntries (hlawful : Lawful knobs) (standing : σ) :
    Unordered (.ofEntries (knobs.map Knob.entry) standing) (knobs.map Knob.name) := by
  have hmapping {d : Document} {entries : List (Node × Node)} {s : σ} :
      Reader.ofEntries (knobs.map Knob.entry) standing d (.mapping entries) = some s ↔
        Overlay knobs d entries standing s := by
    rw [ofEntries_eq_some_iff hlawful]
    constructor
    · rintro ⟨entries', hentries, h⟩
      cases hentries
      exact h
    · exact fun h => ⟨entries, rfl, h⟩
  constructor
  · intro d entries entries' hperm
    refine Option.ext fun s => ?_
    rw [hmapping, hmapping]
    exact ⟨fun h => h.perm hperm, fun h => h.perm hperm.symm⟩
  · intro d key value rest name hkey hunknown
    refine Option.ext fun s => ?_
    rw [hmapping, hmapping, overlay_cons_unknown hkey hunknown]

end

/-! ## Section 3 — sections in sections -/

/-- A section that is a knob itself. -/
structure Section (σ : Type) where
  Value : Type
  name : String
  knobs : List (Knob Value)
  standing : Value
  get : σ → Value
  put : Value → σ → σ
  lawful : Lawful knobs

namespace Section

variable {σ : Type}

/-- The knob that a section is. -/
def knob (g : Section σ) : Knob σ where
  Value := g.Value
  name := g.name
  reader := .ofEntries (g.knobs.map Knob.entry) g.standing
  get := g.get
  put := g.put

/-- A knob of a section, seen from outside. -/
def inner (g : Section σ) (k : Knob g.Value) : Knob σ where
  Value := k.Value
  name := k.name
  reader := k.reader
  get s := k.get (g.get s)
  put a s := g.put (k.put a (g.get s)) s

/-- A section is given once at most, and is one. -/
structure Sound (g : Section σ) (d : Document) (entries : List (Node × Node)) : Prop where
  once : (named d g.name entries).length ≤ 1
  reads : ∀ n ∈ named d g.name entries, ∃ inside, d.entries? n = some inside ∧
    KeysAreText d inside

end Section

/-- The nodes that are given for a name in the sections of another. -/
def namedIn (d : Document) (group name : String) (entries : List (Node × Node)) : List Node :=
  (named d group entries).flatMap fun n => named d name ((d.entries? n).getD [])

/-- Sections are given once at most, and are sections; what else is given has a name. -/
structure Sectioned {σ : Type} (groups : List (Section σ)) (d : Document)
    (entries : List (Node × Node)) : Prop where
  keys : KeysAreText d entries
  sound : ∀ g ∈ groups, g.Sound d entries

section

variable {σ : Type} {d : Document} {entries : List (Node × Node)} {standing s : σ}

/-- A knob seen from outside is where it is inside. -/
theorem Section.overlaid_inner_iff {g : Section σ} (hstanding : g.get standing = g.standing)
    (k : Knob g.Value) (nodes : List Node) : (g.inner k).Overlaid d standing s nodes ↔
    k.Overlaid d g.standing (g.get s) nodes := by
  constructor
  · intro h
    cases h with
    | kept hkept => exact .kept (hkept.trans (congrArg k.get hstanding))
    | given hgiven => exact .given hgiven
  · intro h
    cases h with
    | kept hkept => exact .kept (hkept.trans (congrArg k.get hstanding.symm))
    | given hgiven => exact .given hgiven

/-- A section is put where its entries put its knobs. -/
theorem Section.overlaid_knob_iff {g : Section σ} (hstanding : g.get standing = g.standing) :
    g.knob.Overlaid d standing s (named d g.name entries) ↔
      g.Sound d entries ∧
        ∀ k ∈ g.knobs, (g.inner k).Overlaid d standing s (namedIn d g.name k.name entries) := by
  simp only [g.overlaid_inner_iff hstanding]
  have hreader {n : Node} : g.knob.reader d n = some (g.get s) ↔ _ :=
    ofEntries_eq_some_iff g.lawful n
  constructor
  · intro h
    generalize hnodes : named d g.name entries = nodes at h
    cases h with
    | kept hkept =>
      refine ⟨⟨by rw [hnodes]; exact Nat.zero_le 1,
        by rw [hnodes]; exact List.forall_mem_nil _⟩, fun k _ => ?_⟩
      rw [namedIn, hnodes]
      exact .kept (congrArg k.get (hkept.trans hstanding))
    | given hgiven =>
      obtain ⟨inside, hinside, hoverlay⟩ := hreader.mp hgiven
      refine ⟨⟨by rw [hnodes]; exact Nat.le_refl 1, ?_⟩, fun k hk => ?_⟩
      · rw [hnodes]
        exact List.forall_mem_singleton.mpr ⟨inside, hinside, hoverlay.keys⟩
      · rw [namedIn, hnodes, List.flatMap_singleton, hinside]
        exact hoverlay.each k hk
  · rintro ⟨⟨honce, hreads⟩, heach⟩
    unfold namedIn at heach
    generalize named d g.name entries = nodes at honce hreads heach
    match nodes with
    | [] =>
      refine .kept (g.lawful.ext _ _ fun k hk => ?_)
      cases heach k hk with
      | kept hkept => exact hkept.trans (congrArg k.get hstanding.symm)
    | [n] =>
      obtain ⟨inside, hinside, hkeys⟩ := hreads n List.mem_cons_self
      refine .given (hreader.mpr ⟨inside, hinside, hkeys, fun k hk => ?_⟩)
      have hk' := heach k hk
      rwa [List.flatMap_singleton, hinside] at hk'
    | _ :: _ :: _ => exact absurd honce (by simp)

/-- Reading sections in a section puts each knob of each of them where it was given, and leaves
it if it was not. -/
theorem sections_eq_some_iff {groups : List (Section σ)}
    (hlawful : Lawful (groups.map Section.knob))
    (hstanding : ∀ g ∈ groups, g.get standing = g.standing) (n : Node) :
    Reader.ofEntries ((groups.map Section.knob).map Knob.entry) standing d n = some s ↔
      ∃ entries, d.entries? n = some entries ∧ Sectioned groups d entries ∧
        ∀ g ∈ groups, ∀ k ∈ g.knobs, (g.inner k).Overlaid d standing s
          (namedIn d g.name k.name entries) := by
  rw [ofEntries_eq_some_iff hlawful]
  refine exists_congr fun entries => and_congr_right fun _ => ⟨fun h => ?_, fun h => ?_⟩
  · have hgroup {g : Section σ} (hg : g ∈ groups) :=
      (g.overlaid_knob_iff (hstanding g hg)).mp (h.each g.knob (List.mem_map_of_mem hg))
    exact ⟨⟨h.keys, fun g hg => (hgroup hg).1⟩, fun g hg => (hgroup hg).2⟩
  · obtain ⟨⟨hkeys, hsound⟩, heach⟩ := h
    refine ⟨hkeys, fun k hk => ?_⟩
    obtain ⟨g, hg, rfl⟩ := List.mem_map.mp hk
    exact (g.overlaid_knob_iff (hstanding g hg)).mpr ⟨hsound g hg, heach g hg⟩

end

end HouseBoard.Yaml
