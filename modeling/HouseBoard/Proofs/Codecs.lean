/-
HouseBoard.Proofs.Codecs — what a codec reads, it writes so that it is read again.

A value is kept by a codec if it is read back from the document that is written for it, and that
document can be written as a text: it has no unread part, its numbers fit, and it is not too
deep.  A codec is faithful if it keeps whatever it reads from a document that was read itself.
Faithfulness goes from the parts of a codec to the whole: Section 2 has the scalars, Section 3
options, lists and words, Section 4 records, in both of their forms, and Section 5 tagged
objects.
-/
import Mathlib.Data.List.Forall2
import HouseBoard.Proofs.Documents
import HouseBoard.Proofs.Records

namespace HouseBoard

/-! ## Section 1 — values that are kept -/

namespace Codec

variable {α : Type} {room : Nat}

/-- The value is read back from the document written for it, which has a text and at most
the given depth. -/
structure Keeps (c : Codec α) (room : Nat) (x : α) : Prop where
  read : c.read (c.write x) = .ok x
  legible : (c.write x).legible = true
  sound : (c.write x).Sound
  depth : (c.write x).depth ≤ room

/-- Every value that is read from a sound document is kept. -/
def Faithful (c : Codec α) (room : Nat) : Prop :=
  ∀ v x, v.Sound → c.read v = .ok x → c.Keeps room x

theorem readText_eq_ok_iff {c : Codec α} {text : String} {x : α} :
    c.readText text = .ok x ↔ c.read (Json.read text).root = .ok x ∧
    (Json.read text).closed = true := by
  unfold readText
  rw [bind_eq_ok_iff]
  constructor
  · rintro ⟨y, hy, hclosed⟩
    split at hclosed
    · cases hclosed
      exact ⟨hy, ‹_›⟩
    · cases hclosed
  · rintro ⟨hx, hclosed⟩
    exact ⟨x, hx, if_pos hclosed⟩

/-- A kept value is read back from the text of its document, if each of the floating point
values in it is. -/
theorem Keeps.text {c : Codec α} {x : α} (h : c.Keeps room x) (hroom : room ≤ Json.maxDepth)
    (hreals : ∀ r, .real r ∈ (c.write x).numbers → (Json.Number.real r).ReadsBack) :
    Json.read (c.write x).text = ⟨c.write x, true⟩ ∧ c.readText (c.write x).text = .ok x := by
  have hnumbers : ∀ n ∈ (c.write x).numbers, n.ReadsBack := by
    intro n hn
    cases n with
    | int i => exact Json.readsBack_int (h.sound (.int i) hn)
    | real r => exact hreals r hn
  have hread := Json.read_text h.legible hnumbers (Nat.le_trans h.depth hroom)
  refine ⟨hread, readText_eq_ok_iff.mpr ?_⟩
  rw [hread]
  exact ⟨h.read, rfl⟩

/-! ## Section 2 — scalars -/

/-- A value that is written without containers and numbers fits everywhere. -/
theorem keeps_of_numbers_nil {c : Codec α} {x : α} (hread : c.read (c.write x) = .ok x)
    (hlegible : (c.write x).legible = true) (hnumbers : (c.write x).numbers = [])
    (hdepth : (c.write x).depth = 0) : c.Keeps room x :=
  ⟨hread, hlegible, Json.sound_of_numbers_nil hnumbers, hdepth ▸ Nat.zero_le room⟩

theorem keeps_text (s : String) : text.Keeps room s := keeps_of_numbers_nil rfl rfl rfl rfl

theorem keeps_flag (b : Bool) : flag.Keeps room b := keeps_of_numbers_nil rfl rfl rfl rfl

theorem sound_int {i : Int} (h : Json.Fits64 i) : (Json.int i).Sound := by
  intro n hn
  obtain rfl := List.mem_singleton.mp hn
  exact h

theorem keeps_upTo {bound n : Nat} (hbound : bound < 2 ^ 64) (hn : n ≤ bound) :
    (upTo bound).Keeps room n := by
  refine ⟨?_, rfl, sound_int ⟨by omega, by omega⟩, Nat.zero_le room⟩
  have hrange : 0 ≤ (n : Int) ∧ (n : Int) ≤ bound := by omega
  exact (if_pos hrange).trans (congrArg Except.ok (Int.toNat_natCast n))

theorem keeps_between {lo hi i : Int} (hlo : -2 ^ 63 ≤ lo) (hhi : hi < 2 ^ 64)
    (hi' : lo ≤ i ∧ i ≤ hi) : (between lo hi).Keeps room i := by
  exact ⟨if_pos hi', rfl, sound_int ⟨by omega, by omega⟩, Nat.zero_le room⟩

theorem keeps_real {x : Binary64} (h : x.isFinite = true) : real.Keeps room x := by
  have hwrite : real.write x = .num (.real x) := if_pos h
  refine ⟨?_, ?_, ?_, ?_⟩
  · rw [hwrite]
    rfl
  · rw [hwrite]
    rfl
  · rw [hwrite]
    intro n hn
    obtain rfl := List.mem_singleton.mp hn
    exact h
  · rw [hwrite]
    exact Nat.zero_le room

/-- Nothing is read from what has another shape. -/
theorem refuse_ne_ok (v : Json) (x : α) : refuse v ≠ .ok x := by
  unfold refuse
  split
  · nofun
  · nofun
  · nofun

theorem faithful_text : text.Faithful room := fun _ x _ _ => keeps_text x

theorem faithful_flag : flag.Faithful room := fun _ x _ _ => keeps_flag x

theorem faithful_upTo {bound : Nat} (hbound : bound < 2 ^ 64) : (upTo bound).Faithful room := by
  intro v x _ hread
  unfold upTo at hread
  dsimp only at hread
  split at hread
  · split at hread
    · cases hread
      exact keeps_upTo hbound (by omega)
    · cases hread
  · exact absurd hread (refuse_ne_ok _ _)

theorem faithful_between {lo hi : Int} (hlo : -2 ^ 63 ≤ lo) (hhi : hi < 2 ^ 64) :
    (between lo hi).Faithful room := by
  intro v x _ hread
  unfold between at hread
  dsimp only at hread
  split at hread
  · split at hread
    · cases hread
      exact keeps_between hlo hhi ‹_›
    · cases hread
  · exact absurd hread (refuse_ne_ok _ _)

/-- An integer of 64 bits stands for a finite value. -/
theorem faithful_real : real.Faithful room := by
  intro v x hv hread
  unfold real at hread
  dsimp only at hread
  split at hread
  · rename_i i
    cases hread
    have hi : Json.Fits64 i := hv (.int i) List.mem_cons_self
    obtain ⟨hlow, hhigh⟩ := hi
    exact keeps_real (Json.isFinite_ofRatio_one (by omega))
  · rename_i x
    cases hread
    exact keeps_real (hv (.real x) List.mem_cons_self)
  · exact absurd hread (refuse_ne_ok _ _)

/-- A text form is faithful if it is read back whenever it stands for what was read. -/
theorem faithful_spelled {read? : String → Option α} {write : α → String}
    (h : ∀ s x, read? s = some x → read? (write x) = some x) :
    (spelled read? write).Faithful room := by
  intro v x _ hread
  unfold spelled at hread
  dsimp only at hread
  split at hread
  · split at hread
    · cases hread
      refine keeps_of_numbers_nil ?_ rfl rfl rfl
      unfold spelled
      dsimp only
      rw [h _ _ ‹_›]
    · cases hread
  · exact absurd hread (refuse_ne_ok _ _)

/-! ## Section 3 — options, lists and words -/

/-- An option is kept apart from null by what it holds. -/
theorem faithful_optional {c : Codec α} (hc : c.Faithful room)
    (hnull : ∀ x, c.read .null ≠ .ok x) : c.optional.Faithful room := by
  intro v x hv hread
  unfold optional at hread
  dsimp only at hread
  split at hread
  · cases hread
    exact keeps_of_numbers_nil rfl rfl rfl rfl
  · obtain ⟨y, hy, rfl⟩ := map_eq_ok_iff.mp hread
    obtain ⟨hback, hlegible, hsound, hdepth⟩ := hc v y hv hy
    refine ⟨?_, hlegible, hsound, hdepth⟩
    unfold optional Json.ofOption
    dsimp only
    split
    · rename_i hwrite
      rw [hwrite] at hback
      exact absurd hback (hnull y)
    · rw [hback]
      rfl

theorem mapM_eq_ok_iff {c : Codec α} {vs : List Json} {xs : List α} :
    vs.mapM c.read = .ok xs ↔ List.Forall₂ (fun v x => c.read v = .ok x) vs xs := by
  induction vs generalizing xs with
  | nil =>
    rw [List.mapM_nil, List.forall₂_nil_left_iff]
    exact ⟨fun h => (Except.ok.inj h).symm, fun h => congrArg Except.ok h.symm⟩
  | cons v vs ih =>
    rw [List.mapM_cons, bind_eq_ok_iff, List.forall₂_cons_left_iff]
    simp only [bind_eq_ok_iff, ih]
    constructor
    · rintro ⟨x, hx, ys, hys, hxs⟩
      exact ⟨x, ys, hx, hys, (Except.ok.inj hxs).symm⟩
    · rintro ⟨x, ys, hx, hys, rfl⟩
      exact ⟨x, hx, ys, hys, rfl⟩

theorem exists_of_mem_mapM {c : Codec α} {vs : List Json} {xs : List α}
    (h : vs.mapM c.read = .ok xs) {x : α} (hx : x ∈ xs) : ∃ v ∈ vs, c.read v = .ok x := by
  have hall := mapM_eq_ok_iff.mp h
  induction hall with
  | nil => cases hx
  | cons hread hrest ih =>
    rcases List.mem_cons.mp hx with rfl | hx
    · exact ⟨_, List.mem_cons_self, hread⟩
    · obtain ⟨v, hv, hx⟩ := ih (mapM_eq_ok_iff.mpr hrest) hx
      exact ⟨v, List.mem_cons_of_mem _ hv, hx⟩

theorem keeps_listOf {c : Codec α} {xs : List α} (h : ∀ x ∈ xs, c.Keeps room x) :
    c.listOf.Keeps (room + 1) xs := by
  refine ⟨?_, ?_, ?_, ?_⟩
  · refine mapM_eq_ok_iff.mpr
      (List.forall₂_map_left_iff.mpr (List.forall₂_same.mpr fun x hx => (h x hx).read))
  · refine Json.legibleItems_iff.mpr fun v hv => ?_
    obtain ⟨x, hx, rfl⟩ := List.mem_map.mp hv
    exact (h x hx).legible
  · refine Json.sound_arr_iff.mpr fun v hv => ?_
    obtain ⟨x, hx, rfl⟩ := List.mem_map.mp hv
    exact (h x hx).sound
  · refine Nat.succ_le_succ (Json.depthOfItems_le fun v hv => ?_)
    obtain ⟨x, hx, rfl⟩ := List.mem_map.mp hv
    exact (h x hx).depth

theorem faithful_listOf {c : Codec α} (hc : c.Faithful room) :
    c.listOf.Faithful (room + 1) := by
  intro v xs hv hread
  unfold listOf at hread
  dsimp only at hread
  split at hread
  · rename_i vs
    refine keeps_listOf fun x hx => ?_
    obtain ⟨w, hw, hx⟩ := exists_of_mem_mapM hread hx
    exact hc w x (Json.sound_arr_iff.mp hv w hw) hx
  · exact absurd hread (refuse_ne_ok _ _)

theorem mem_of_lookUp {words : List (String × α)} {s : String} {x : α}
    (h : lookUp words s = .ok x) : ∃ k, (k, x) ∈ words := by
  unfold lookUp at h
  split at h
  · cases h
    exact ⟨_, List.mem_of_find?_eq_some ‹_›⟩
  · cases h

/-- The word that is written for a value is one of its words. -/
def Spells (words : List (String × α)) (write : α → String) : Prop :=
  ∀ p ∈ words, lookUp words (write p.2) = .ok p.2

theorem faithful_word {words : List (String × α)} {write : α → String}
    (h : Spells words write) : (word words write).Faithful room := by
  intro v x _ hread
  have hmem : ∃ k, (k, x) ∈ words := by
    unfold word at hread
    dsimp only at hread
    split at hread
    · exact mem_of_lookUp hread
    · obtain ⟨y, hy, hread⟩ := bind_eq_ok_iff.mp hread
      split at hread
      · cases hread
        exact mem_of_lookUp hy
      · cases hread
      · exact absurd hread (refuse_ne_ok _ _)
    · cases hread
    · exact absurd hread (refuse_ne_ok _ _)
  obtain ⟨k, hk⟩ := hmem
  exact keeps_of_numbers_nil (h (k, x) hk) rfl rfl rfl

theorem faithful_taggedWord {words : List (String × α)} {write : α → String}
    (h : Spells words write) : (taggedWord words write).Faithful room := by
  intro v x _ hread
  have hmem : ∃ k, (k, x) ∈ words := by
    unfold taggedWord at hread
    dsimp only at hread
    split at hread
    · exact mem_of_lookUp hread
    · obtain ⟨y, hy, hread⟩ := bind_eq_ok_iff.mp hread
      split at hread
      · cases hread
        exact mem_of_lookUp hy
      · cases hread
        exact mem_of_lookUp hy
      · cases hread
    · cases hread
  obtain ⟨k, hk⟩ := hmem
  exact keeps_of_numbers_nil (h (k, x) hk) rfl rfl rfl

end Codec

/-! ## Section 4 — records -/

/-- What a field reads is kept, so is its default, and it hides nothing but its default. -/
structure Field.Faithful {β : Type} (f : Field β) (room : Nat) : Prop where
  codec : f.codec.Faithful room
  absent : ∀ b, f.absent = some b → f.codec.Keeps room b
  hidden : ∀ b, f.shown b = false → f.absent = some b

namespace Field

variable {β : Type} {name : String} {codec : Codec β} {room : Nat}

theorem faithful_required (h : codec.Faithful room) : (required name codec).Faithful room where
  codec := h
  absent := nofun
  hidden := nofun

theorem faithful_defaulted (h : codec.Faithful room) {value : β}
    (hvalue : codec.Keeps room value) :
    (defaulted name codec value).Faithful room where
  codec := h
  absent := by
    rintro b ⟨⟩
    exact hvalue
  hidden := nofun

theorem faithful_nullable (h : codec.Faithful room) (hnull : ∀ x, codec.read .null ≠ .ok x) :
    (nullable name codec).Faithful room where
  codec := Codec.faithful_optional h hnull
  absent := by
    rintro b ⟨⟩
    exact Codec.keeps_of_numbers_nil rfl rfl rfl rfl
  hidden := nofun

theorem faithful_omittable (h : codec.Faithful room) (hnull : ∀ x, codec.read .null ≠ .ok x) :
    (omittable name codec).Faithful room where
  codec := Codec.faithful_optional h hnull
  absent := by
    rintro b ⟨⟩
    exact Codec.keeps_of_numbers_nil rfl rfl rfl rfl
  hidden := by
    intro b hb
    cases b with
    | none => rfl
    | some b => cases hb

/-- Whatever the members give a field is kept. -/
theorem Gives.keeps {f : Field β} (hf : f.Faithful room) {ms : List (String × Json)}
    (hms : ∀ m ∈ ms, m.2.Sound) {b : β} (h : f.Gives ms b) : f.codec.Keeps room b := by
  rcases h with ⟨v, hcalled, hread⟩ | ⟨-, habsent⟩
  · exact hf.codec v b (hms _ (Json.mem_of_called_eq hcalled)) hread
  · exact hf.absent b habsent

end Field

namespace Fields

variable {βs : List Type} {room : Nat}

/-- All fields are faithful. -/
def Faithful : {βs : List Type} → Fields βs → Nat → Prop
  | _, .nil, _ => True
  | _, .cons f rest, room => f.Faithful room ∧ rest.Faithful room

/-- All values are kept by their fields. -/
def Keep : {βs : List Type} → Fields βs → Nat → Tuple βs → Prop
  | _, .nil, _, () => True
  | _, .cons f rest, room, (b, bs) => f.codec.Keeps room b ∧ rest.Keep room bs

theorem Give.keep {fields : Fields βs} (hfields : fields.Faithful room)
    {ms : List (String × Json)} (hms : ∀ m ∈ ms, m.2.Sound) {bs : Tuple βs}
    (h : fields.Give ms bs) : fields.Keep room bs := by
  induction fields with
  | nil => trivial
  | cons f rest ih =>
    obtain ⟨b, bs⟩ := bs
    exact ⟨h.1.keeps hfields.1 hms, ih hfields.2 h.2⟩

/-- The items of an array are read field by field; those that are missing take their
defaults. -/
theorem keep_of_readItems {fields : Fields βs} (hfields : fields.Faithful room) {vs : List Json}
    (hvs : ∀ v ∈ vs, v.Sound) {bs : Tuple βs} (h : fields.readItems vs = .ok bs) :
    fields.Keep room bs := by
  induction fields generalizing vs with
  | nil => trivial
  | cons f rest ih =>
    obtain ⟨b, bs⟩ := bs
    cases vs with
    | nil =>
      unfold readItems at h
      split at h
      · obtain ⟨cs, hcs, heq⟩ := map_eq_ok_iff.mp h
        cases heq
        exact ⟨hfields.1.absent b ‹_›, ih hfields.2 hvs hcs⟩
      · cases h
    | cons v vs =>
      unfold readItems at h
      obtain ⟨c, hc, h⟩ := bind_eq_ok_iff.mp h
      obtain ⟨cs, hcs, h⟩ := bind_eq_ok_iff.mp h
      cases h
      exact ⟨hfields.1.codec v b (hvs v List.mem_cons_self) hc,
        ih hfields.2 (fun w hw => hvs w (List.mem_cons_of_mem v hw)) hcs⟩

/-- Each member that is written has the name of a field, and can be written as a text. -/
theorem Keep.members {fields : Fields βs} {bs : Tuple βs} (h : fields.Keep room bs)
    {m : String × Json} (hm : m ∈ fields.members bs) :
    m.1 ∈ fields.names ∧ m.2.legible = true ∧ m.2.Sound ∧ m.2.depth ≤ room := by
  induction fields with
  | nil => cases hm
  | cons f rest ih =>
    obtain ⟨b, bs⟩ := bs
    have hwritten : m = (f.name, f.codec.write b) ∨ m ∈ rest.members bs := by
      unfold Fields.members at hm
      split at hm
      · exact List.mem_cons.mp hm
      · exact .inr hm
    rcases hwritten with rfl | hm
    · exact ⟨List.mem_cons_self, h.1.legible, h.1.sound, h.1.depth⟩
    · obtain ⟨hname, hrest⟩ := ih h.2 hm
      exact ⟨List.mem_cons_of_mem _ hname, hrest⟩

/-- The members that are written give each field its value again. -/
theorem Keep.give {fields : Fields βs} (hnames : fields.names.Nodup)
    (hfields : fields.Faithful room) {bs : Tuple βs} (h : fields.Keep room bs) :
    fields.Give (fields.members bs) bs := by
  induction fields with
  | nil => trivial
  | cons f rest ih =>
    obtain ⟨b, bs⟩ := bs
    obtain ⟨hfresh, hnames⟩ := List.nodup_cons.mp hnames
    have hother : Json.called f.name (rest.members bs) = [] := by
      refine List.filter_eq_nil_iff.mpr fun m hm hname => hfresh ?_
      rw [← of_decide_eq_true hname]
      exact (h.2.members hm).1
    have hrest := ih hnames hfields.2 h.2
    unfold Fields.members
    split
    · refine ⟨.inl ⟨f.codec.write b, ?_, h.1.read⟩, (give_congr fun name hname => ?_).mpr hrest⟩
      · rw [Json.called_cons_self, hother]
      · refine Json.called_cons_of_ne ?_
        rintro rfl
        exact hfresh hname
    · rename_i hshown
      exact ⟨.inr ⟨hother, hfields.1.hidden b (by simpa using hshown)⟩, hrest⟩

theorem Keep.readMembers {fields : Fields βs} (hnames : fields.names.Nodup)
    (hfields : fields.Faithful room) {bs : Tuple βs} (h : fields.Keep room bs) :
    fields.readMembers (fields.members bs) = .ok bs :=
  (readMembers_eq_ok_iff hnames).mpr
    ⟨h.give hnames hfields, fun _ hm hname => absurd (h.members hm).1 hname⟩

end Fields

/-- A value is kept that is written as an object of such members. -/
theorem Codec.keeps_of_members {α : Type} {c : Codec α} {room : Nat} {x : α}
    {ms : List (String × Json)} (hwrite : c.write x = .obj ms)
    (hread : c.read (.obj ms) = .ok x)
    (hms : ∀ m ∈ ms, m.2.legible = true ∧ m.2.Sound ∧ m.2.depth ≤ room) :
    c.Keeps (room + 1) x := by
  refine ⟨?_, ?_, ?_, ?_⟩
  · rw [hwrite, hread]
  · rw [hwrite]
    exact Json.legibleMembers_iff.mpr fun m hm => (hms m hm).1
  · rw [hwrite]
    exact Json.sound_obj_iff.mpr fun m hm => (hms m hm).2.1
  · rw [hwrite]
    exact Nat.succ_le_succ (Json.depthOfMembers_le fun m hm => (hms m hm).2.2)

/-- The names of the fields are different, and a record is taken apart as it was put
together. -/
structure Record.Lawful {σ : Type} (r : Record σ) : Prop where
  names : r.fields.names.Nodup
  split : ∀ bs, r.split (r.make bs) = bs

/-- A lawful record is faithful if its fields are. -/
theorem Record.Lawful.faithful {σ : Type} {r : Record σ} {room : Nat} (hr : r.Lawful)
    (hfields : r.fields.Faithful room) : r.codec.Faithful (room + 1) := by
  intro v x hv hread
  obtain ⟨bs, hbs, rfl⟩ := map_eq_ok_iff.mp hread
  have hkeep : r.fields.Keep room bs := by
    unfold Fields.read at hbs
    split at hbs
    · exact ((Fields.readMembers_eq_ok_iff hr.names).mp hbs).1.keep hfields
        (Json.sound_obj_iff.mp hv)
    · exact Fields.keep_of_readItems hfields (Json.sound_arr_iff.mp hv) hbs
    · exact absurd hbs (Codec.refuse_ne_ok _ _)
  have hwrite : r.codec.write (r.make bs) = .obj (r.fields.members bs) := by
    change Json.obj (r.fields.members (r.split (r.make bs))) = _
    rw [hr.split]
  exact Codec.keeps_of_members hwrite
    (map_eq_ok_iff.mpr ⟨bs, hkeep.readMembers hr.names hfields, rfl⟩)
    fun m hm => (hkeep.members hm).2

/-! ## Section 5 — tagged objects -/

namespace Variant

variable {σ : Type} {variants : List (Variant σ)} {write : σ → Json} {room : Nat}

/-- An alternative that is found under its tag, none of whose fields has the name of the tag,
and whose values are written with the tag in front of the fields. -/
inductive Lawful (variants : List (Variant σ)) (write : σ → Json) (room : Nat) :
    Variant σ → Prop where
  | ofFields {βs : List Type} {tag : String} {fields : Fields βs} {make : Tuple βs → σ}
      (names : (tagName :: fields.names).Nodup) (faithful : fields.Faithful room)
      (found : variants.find? (·.tag = tag) = some (.ofFields tag fields make))
      (written : ∀ bs, write (make bs) = .tagged tag (fields.members bs)) :
      Lawful variants write room (.ofFields tag fields make)

/-- A value made of kept fields is kept under its tag. -/
theorem keeps_ofFields {βs : List Type} {tag : String} {fields : Fields βs}
    {make : Tuple βs → σ} (hnames : (tagName :: fields.names).Nodup)
    (hfields : fields.Faithful room)
    (hfound : variants.find? (·.tag = tag) = some (.ofFields tag fields make))
    (hwritten : ∀ bs, write (make bs) = .tagged tag (fields.members bs)) {bs : Tuple βs}
    (h : fields.Keep room bs) :
    (⟨read variants, write⟩ : Codec σ).Keeps (room + 1) (make bs) := by
  obtain ⟨hfresh, hnames⟩ := List.nodup_cons.mp hnames
  have hother : ∀ m ∈ fields.members bs, m.1 ≠ tagName := by
    intro m hm heq
    exact hfresh (heq ▸ (h.members hm).1)
  have hcalled : Json.called tagName ((tagName, .str tag) :: fields.members bs) =
      [(tagName, .str tag)] := by
    rw [Json.called_cons_self]
    exact congrArg _ (List.filter_eq_nil_iff.mpr fun m hm hname =>
      hother m hm (of_decide_eq_true hname))
  have hbeside : Json.beside tagName ((tagName, .str tag) :: fields.members bs) =
      fields.members bs := by
    rw [Json.beside_cons_self]
    exact List.filter_eq_self.mpr fun m hm => decide_eq_true (hother m hm)
  refine Codec.keeps_of_members (hwritten bs) ?_
    (List.forall_mem_cons.mpr ⟨?_, fun m hm => (h.members hm).2⟩)
  · refine read_obj_eq_ok_iff.mpr
      ⟨.str tag, _, hcalled, named_eq_ok_iff.mpr ⟨tag, rfl, hfound⟩, ?_, ?_⟩
    · rw [hbeside]
      exact fun m hm => (h.members hm).2.1
    · rw [hbeside]
      exact shaped_eq_ok_iff.mpr ⟨bs, h.readMembers hnames hfields, rfl⟩
  · exact ⟨rfl, Json.sound_of_numbers_nil rfl, Nat.zero_le room⟩

/-- A sum of such alternatives is faithful. -/
theorem faithful (h : ∀ variant ∈ variants, Lawful variants write room variant) :
    (⟨read variants, write⟩ : Codec σ).Faithful (room + 1) := by
  intro v x hv hread
  change read variants v = .ok x at hread
  have hlawful {v : Json} {variant : Variant σ} (hnamed : named variants v = .ok variant) :
      Lawful variants write room variant := by
    obtain ⟨tag, -, hfound⟩ := named_eq_ok_iff.mp hnamed
    exact h variant (List.mem_of_find?_eq_some hfound)
  cases v with
  | obj ms =>
    obtain ⟨v, variant, -, hnamed, -, hread⟩ := read_obj_eq_ok_iff.mp hread
    have hms : ∀ m ∈ Json.beside tagName ms, m.2.Sound := fun m hm =>
      Json.sound_obj_iff.mp hv m (Json.mem_beside.mp hm).1
    obtain ⟨hnames, hfields, hfound, hwritten⟩ := hlawful hnamed
    obtain ⟨bs, hbs, rfl⟩ := shaped_eq_ok_iff.mp hread
    have hgive := ((Fields.readMembers_eq_ok_iff hnames.of_cons).mp hbs).1
    exact keeps_ofFields hnames hfields hfound hwritten (hgive.keep hfields hms)
  | arr vs =>
    cases vs with
    | nil => cases hread
    | cons tag items =>
      unfold read at hread
      obtain ⟨variant, hnamed, hread⟩ := bind_eq_ok_iff.mp hread
      split at hread
      · obtain ⟨hnames, hfields, hfound, hwritten⟩ := hlawful hnamed
        obtain ⟨bs, hbs, rfl⟩ := shaped_eq_ok_iff.mp hread
        have hitems := fun w hw => Json.sound_arr_iff.mp hv w (List.mem_cons_of_mem tag hw)
        exact keeps_ofFields hnames hfields hfound hwritten
          (Fields.keep_of_readItems hfields hitems hbs)
      · cases hread
  | _ => cases hread

end Variant

end HouseBoard
