/-
HouseBoard.Proofs.Compatibility — payloads bear other members, another order and missing
members with a default.

Section 1 is about the fields of a record by their positions.  Section 2 says when an object
that stands for a record, or for an alternative of a sum, is read: every field gets a value, and
what else there is has values.  Section 3 goes down into documents: what is read at a place of a
document decides what is read of the whole, and the rest of the value does not change.  Section
4 concludes for texts of payloads in which the members of an object are put in another order,
unknown ones are added, and one is taken away or repeated.
-/
import HouseBoard.Proofs.Payloads

namespace HouseBoard

/-! ## Section 1 — fields by position -/

/-- A position in a list of types, where the given type stands. -/
inductive Position : List Type → Type → Type 1 where
  | here {β : Type} {βs : List Type} : Position (β :: βs) β
  | there {β γ : Type} {βs : List Type} (i : Position βs γ) : Position (β :: βs) γ

namespace Tuple

/-- The value at a position. -/
def get : {βs : List Type} → {γ : Type} → Position βs γ → Tuple βs → γ
  | _, _, .here, (b, _) => b
  | _, _, .there i, (_, bs) => get i bs

/-- The values with another one at a position. -/
def set : {βs : List Type} → {γ : Type} → Position βs γ → γ → Tuple βs → Tuple βs
  | _, _, .here, c, (_, bs) => (c, bs)
  | _, _, .there i, c, (b, bs) => (b, set i c bs)

end Tuple

namespace Json

variable {name : String} {ms ns : List (String × Json)}

/-- The order of the members does not matter to which ones are the only ones of their name. -/
theorem called_eq_singleton_of_perm (h : ms.Perm ns) {m : String × Json}
    (hm : called name ms = [m]) : called name ns = [m] :=
  List.perm_singleton.mp (hm ▸ (h.filter _).symm)

theorem called_eq_nil_of_perm (h : ms.Perm ns) (hm : called name ms = []) :
    called name ns = [] :=
  List.perm_nil.mp (hm ▸ (h.filter _).symm)

end Json

theorem Field.Gives.perm {β : Type} {f : Field β} {ms ns : List (String × Json)} {b : β}
    (hb : f.Gives ms b) (h : ms.Perm ns) : f.Gives ns b := by
  rcases hb with ⟨v, hcalled, hread⟩ | ⟨hnone, habsent⟩
  · exact .inl ⟨v, Json.called_eq_singleton_of_perm h hcalled, hread⟩
  · exact .inr ⟨Json.called_eq_nil_of_perm h hnone, habsent⟩

namespace Fields

variable {βs : List Type} {γ : Type}

/-- The field at a position. -/
def field : {βs : List Type} → {γ : Type} → Fields βs → Position βs γ → Field γ
  | _, _, .cons f _, .here => f
  | _, _, .cons _ rest, .there i => rest.field i

theorem field_name_mem (fields : Fields βs) (i : Position βs γ) :
    (fields.field i).name ∈ fields.names := by
  induction i with
  | here =>
    cases fields with
    | cons f rest => exact List.mem_cons_self
  | there i ih =>
    cases fields with
    | cons f rest => exact List.mem_cons_of_mem _ (ih rest)

theorem exists_position {fields : Fields βs} {name : String} (h : name ∈ fields.names) :
    ∃ γ, ∃ i : Position βs γ, (fields.field i).name = name := by
  induction fields with
  | nil => cases h
  | cons f rest ih =>
    rcases List.mem_cons.mp h with rfl | h
    · exact ⟨_, .here, rfl⟩
    · obtain ⟨γ, i, hi⟩ := ih h
      exact ⟨γ, .there i, hi⟩

variable {fields : Fields βs} {ms ns : List (String × Json)} {bs : Tuple βs}

theorem Give.perm (h : fields.Give ms bs) (hperm : ms.Perm ns) : fields.Give ns bs := by
  induction fields with
  | nil => trivial
  | cons f rest ih => exact ⟨h.1.perm hperm, ih h.2⟩

/-- The members give the field at a position the value there. -/
theorem Give.get (h : fields.Give ms bs) (i : Position βs γ) :
    (fields.field i).Gives ms (Tuple.get i bs) := by
  induction i with
  | here =>
    cases fields with
    | cons f rest => exact h.1
  | there i ih =>
    cases fields with
    | cons f rest => exact ih h.2

/-- Members that differ in those of one field only give the others the values that they had. -/
theorem Give.set (hnames : fields.names.Nodup) (h : fields.Give ms bs)
    (i : Position βs γ) {c : γ} (hc : (fields.field i).Gives ns c)
    (hothers : ∀ name, name ≠ (fields.field i).name →
      Json.called name ns = Json.called name ms) :
    fields.Give ns (Tuple.set i c bs) := by
  induction i with
  | here =>
    cases fields with
    | cons f rest =>
      refine ⟨hc, (give_congr fun name hname => hothers name ?_).mpr h.2⟩
      rintro rfl
      exact (List.nodup_cons.mp hnames).1 hname
  | there i ih =>
    cases fields with
    | cons f rest =>
      obtain ⟨hfresh, hnames⟩ := List.nodup_cons.mp hnames
      refine ⟨(Field.gives_congr (hothers f.name ?_)).mpr h.1, ih hnames h.2 hc hothers⟩
      intro heq
      exact hfresh (heq ▸ rest.field_name_mem i)

end Fields

/-! ## Section 2 — objects -/

open Variant (tagName)

/-- The field of the tag, which takes one word. -/
def Variant.tagField (tag : String) : Field Unit :=
  .required tagName (.spelled (fun s => if s = tag then some () else none) fun _ => tag)

/-- What an object stands for, so that its members are those of fields: a record, or the
alternative of a sum that its tag names. -/
inductive Codec.Stands : {α : Type} → Codec α → List (String × Json) → {βs : List Type} →
    Fields βs → (Tuple βs → α) →
    Prop where
  | record {σ : Type} {r : Record σ} (lawful : r.Lawful) (ms : List (String × Json)) :
      Stands r.codec ms r.fields r.make
  | tagged {σ : Type} {variants : List (Variant σ)} {write : σ → Json} {βs : List Type}
      {tag : String} {fields : Fields βs} {make : Tuple βs → σ} {ms : List (String × Json)}
      (names : (tagName :: fields.names).Nodup)
      (found : variants.find? (·.tag = tag) = some (.ofFields tag fields make))
      (tagged : (tagName, .str tag) ∈ ms) :
      Stands ⟨Variant.read variants, write⟩ ms (.cons (Variant.tagField tag) fields)
        fun (_, bs) => make bs

theorem Variant.tagField_gives_iff {tag : String} {ms : List (String × Json)} :
    (tagField tag).Gives ms () ↔ Json.called tagName ms = [(tagName, .str tag)] := by
  constructor
  · rintro (⟨v, hcalled, hread⟩ | ⟨-, habsent⟩)
    · change Json.called tagName ms = [(tagName, v)] at hcalled
      unfold tagField Field.required Codec.spelled at hread
      dsimp only at hread
      split at hread
      · split at hread
        · rename_i heq
          obtain ⟨rfl, -⟩ := Option.ite_none_right_eq_some.mp heq
          exact hcalled
        · cases hread
      · exact absurd hread (Codec.refuse_ne_ok _ _)
    · cases habsent
  · intro hcalled
    refine .inl ⟨.str tag, hcalled, ?_⟩
    simp [tagField, Field.required, Codec.spelled]

/-- Every object that is read as a sum stands for one of its alternatives. -/
theorem Variant.exists_stands {σ : Type} {variants : List (Variant σ)}
    {write : σ → Json} {room : Nat}
    (h : ∀ variant ∈ variants, Lawful variants write room variant)
    {ms : List (String × Json)} {x : σ} (hread : read variants (.obj ms) = .ok x) :
    ∃ βs, ∃ fields : Fields βs, ∃ make,
    (⟨read variants, write⟩ : Codec σ).Stands ms fields make := by
  obtain ⟨v, variant, hcalled, hnamed, -, -⟩ := read_obj_eq_ok_iff.mp hread
  obtain ⟨tag, rfl, hfind⟩ := named_eq_ok_iff.mp hnamed
  cases h variant (List.mem_of_find?_eq_some hfind) with
  | @ofFields βs word fields make names faithful found written =>
    obtain rfl : word = tag :=
      of_decide_eq_true
        (List.find?_some (p := fun variant : Variant σ => variant.tag = tag) hfind)
    exact ⟨_, _, _, .tagged names found (Json.mem_of_called_eq hcalled)⟩

theorem MeasurementKind.exists_stands {ms : List (String × Json)} {kind : MeasurementKind}
    (hread : MeasurementKind.codec.read (.obj ms) = .ok kind) :
    ∃ βs, ∃ fields : Fields βs, ∃ make, MeasurementKind.codec.Stands ms fields make :=
  Variant.exists_stands (@MeasurementKind.lawful 0) hread

theorem Command.exists_stands {ms : List (String × Json)} {command : Command}
    (hread : Command.codec.read (.obj ms) = .ok command) :
    ∃ βs, ∃ fields : Fields βs, ∃ make, Command.codec.Stands ms fields make :=
  Variant.exists_stands (@Command.lawful 0) hread

namespace Codec.Stands

variable {α : Type} {c : Codec α} {βs : List Type} {fields : Fields βs} {make : Tuple βs → α}
  {ms ns : List (String × Json)} {x : α}

theorem names (h : c.Stands ms fields make) : fields.names.Nodup := by
  cases h with
  | record lawful ms => exact lawful.names
  | tagged names found tagged => exact names

/-- The members of an object that is read give the fields their values. -/
theorem give (h : c.Stands ms fields make) (hread : c.read (.obj ms) = .ok x) :
    ∃ bs, make bs = x ∧ fields.Give ms bs := by
  cases h with
  | record lawful ms =>
    obtain ⟨bs, hbs, rfl⟩ := map_eq_ok_iff.mp hread
    exact ⟨bs, rfl, ((Fields.readMembers_eq_ok_iff lawful.names).mp hbs).1⟩
  | @tagged variants write βs tag fields make _ names found tagged =>
    obtain ⟨hfresh, hnames⟩ := List.nodup_cons.mp names
    obtain ⟨v, variant, hcalled, hnamed, -, hread⟩ := Variant.read_obj_eq_ok_iff.mp hread
    have htag : (tagName, Json.str tag) ∈ [(tagName, v)] :=
      hcalled ▸ Json.mem_called.mpr tagged
    obtain ⟨-, rfl⟩ := Prod.mk.inj (List.mem_singleton.mp htag)
    obtain ⟨_, ⟨⟩, hfound⟩ := Variant.named_eq_ok_iff.mp hnamed
    obtain rfl := Option.some.inj (found.symm.trans hfound)
    obtain ⟨bs, hbs, rfl⟩ := Variant.shaped_eq_ok_iff.mp hread
    have hgive := ((Fields.readMembers_eq_ok_iff hnames).mp hbs).1
    exact ⟨((), bs), rfl, Variant.tagField_gives_iff.mpr hcalled,
      (Fields.give_beside hfresh).mp hgive⟩

/-- Members that give the fields values are read, if those that no field has are taken
over or have values. -/
theorem read_of_give (h : c.Stands ms fields make) (hread : c.read (.obj ms) = .ok x)
    {bs : Tuple βs} (hgive : fields.Give ns bs)
    (hns : ∀ m ∈ ns, m ∈ ms ∨ (m.1 ∉ fields.names ∧ m.2.legible = true)) :
    c.read (.obj ns) = .ok (make bs) := by
  cases h with
  | record lawful ms =>
    obtain ⟨_, hbs, -⟩ := map_eq_ok_iff.mp hread
    have hintact := ((Fields.readMembers_eq_ok_iff lawful.names).mp hbs).2
    refine map_eq_ok_iff.mpr
      ⟨bs, (Fields.readMembers_eq_ok_iff lawful.names).mpr ⟨hgive, fun m hm hname => ?_⟩, rfl⟩
    rcases hns m hm with hm | ⟨-, hlegible⟩
    · exact hintact m hm hname
    · exact Json.intact_of_legible hlegible
  | @tagged variants write βs tag fields make _ names found tagged =>
    obtain ⟨⟨⟩, bs⟩ := bs
    obtain ⟨htag, hgive⟩ := hgive
    obtain ⟨hfresh, hnames⟩ := List.nodup_cons.mp names
    obtain ⟨_, _, -, -, hlegible, -⟩ := Variant.read_obj_eq_ok_iff.mp hread
    have hbeside : ∀ m ∈ Json.beside tagName ns, m.2.legible = true := by
      intro m hm
      obtain ⟨hm, hname⟩ := Json.mem_beside.mp hm
      rcases hns m hm with hm | ⟨-, hlegible⟩
      · exact hlegible m (Json.mem_beside.mpr ⟨hm, hname⟩)
      · exact hlegible
    have hgive : fields.Give (Json.beside tagName ns) bs :=
      (Fields.give_beside hfresh).mpr hgive
    refine Variant.read_obj_eq_ok_iff.mpr ⟨.str tag, _, Variant.tagField_gives_iff.mp htag,
      Variant.named_eq_ok_iff.mpr ⟨tag, rfl, found⟩, hbeside,
      Variant.shaped_eq_ok_iff.mpr ⟨bs, ?_, rfl⟩⟩
    exact (Fields.readMembers_eq_ok_iff hnames).mpr
      ⟨hgive, fun m hm _ => Json.intact_of_legible (hbeside m hm)⟩

/-- Nothing is read where a field is left without a value: not exactly one member has its name,
and it has no default for the case that none has.  All other members are still there. -/
theorem refuses (h : c.Stands ms fields make) {γ : Type} (i : Position βs γ)
    (hothers : ∀ m ∈ ms, m.1 ≠ (fields.field i).name → m ∈ ns)
    (hcalled : ∀ v, Json.called (fields.field i).name ns ≠ [((fields.field i).name, v)])
    (hmissing : Json.called (fields.field i).name ns = [] → (fields.field i).absent = none)
    (x : α) : c.read (.obj ns) ≠ .ok x := by
  intro hread
  have hvalue {bs : Tuple βs} (hgive : fields.Give ns bs) : False := by
    rcases hgive.get i with ⟨v, hv, -⟩ | ⟨hnone, habsent⟩
    · exact hcalled v hv
    · rw [hmissing hnone] at habsent
      cases habsent
  cases h with
  | record lawful ms =>
    obtain ⟨_, -, hgive⟩ := (Stands.record lawful ns).give hread
    exact hvalue hgive
  | @tagged variants write βs tag fields make _ names found tagged =>
    cases i with
    | here =>
      obtain ⟨v, _, hv, -⟩ := Variant.read_obj_eq_ok_iff.mp hread
      exact hcalled v hv
    | there i =>
      have hname : tagName ≠ (fields.field i).name := by
        intro heq
        exact (List.nodup_cons.mp names).1 (heq ▸ fields.field_name_mem i)
      obtain ⟨_, -, hgive⟩ := (Stands.tagged names found (hothers _ tagged hname)).give hread
      exact hvalue hgive

end Codec.Stands

/-! ## Section 3 — places in documents -/

/-- The place of the field in an array of the fields in order. -/
def Position.index : {βs : List Type} → {γ : Type} → Position βs γ → Nat
  | _, _, .here => 0
  | _, _, .there i => i.index + 1

/-- A place in the documents of a codec where a document of another codec stands, with
everything that is beside it on the way down. -/
inductive Place : {α β : Type} → Codec α → Codec β → Type 1 where
  | here {α : Type} (c : Codec α) : Place c c
  /-- In a member of an object that holds a record. -/
  | member {σ γ β : Type} {r : Record σ} {d : Codec β} (lawful : r.Lawful)
      (i : Position r.kinds γ) (before after : List (String × Json))
      (rest : Place (r.fields.field i).codec d) : Place r.codec d
  /-- In an item of an array that holds a record. -/
  | slot {σ γ β : Type} {r : Record σ} {d : Codec β} (lawful : r.Lawful)
      (i : Position r.kinds γ) (before after : List Json) (length : before.length = i.index)
      (rest : Place (r.fields.field i).codec d) :
      Place r.codec d
  /-- In an item of a list. -/
  | item {α β : Type} {c : Codec α} {d : Codec β} (before after : List Json)
      (rest : Place c d) : Place c.listOf d
  /-- In what may be null. -/
  | present {α β : Type} {c : Codec α} {d : Codec β} (rest : Place c d) : Place c.optional d

namespace Place

/-- The whole document, with the given one at the place. -/
def fill : {α β : Type} → {c : Codec α} → {d : Codec β} → Place c d → Json → Json
  | _, _, _, _, .here _, v => v
  | _, _, _, _, .member (r := r) _ i before after rest, v =>
    .obj (before ++ ((r.fields.field i).name, rest.fill v) :: after)
  | _, _, _, _, .slot _ _ before after _ rest, v => .arr (before ++ rest.fill v :: after)
  | _, _, _, _, .item before after rest, v => .arr (before ++ rest.fill v :: after)
  | _, _, _, _, .present rest, v => rest.fill v

/-- The whole value, with the given one at the place. -/
def put : {α β : Type} → {c : Codec α} → {d : Codec β} → Place c d → α → β → α
  | _, _, _, _, .here _, _, y => y
  | _, _, _, _, .member (r := r) _ i _ _ rest, x, y =>
    r.make (Tuple.set i (rest.put (Tuple.get i (r.split x)) y) (r.split x))
  | _, _, _, _, .slot (r := r) _ i _ _ _ rest, x, y =>
    r.make (Tuple.set i (rest.put (Tuple.get i (r.split x)) y) (r.split x))
  | _, _, _, _, .item before _ rest, xs, y => xs.modify before.length (rest.put · y)
  | _, _, _, _, .present rest, x, y => x.map (rest.put · y)

end Place

namespace Fields

variable {βs : List Type} {γ : Type} {fields : Fields βs} {bs : Tuple βs}

/-- The member of a field decides the value of that field only. -/
theorem read_member (hnames : fields.names.Nodup) (i : Position βs γ)
    {before after : List (String × Json)} {v : Json}
    (h : fields.read (.obj (before ++ ((fields.field i).name, v) :: after)) = .ok bs) :
    (fields.field i).codec.read v = .ok (Tuple.get i bs) ∧ ∀ w c,
    (fields.field i).codec.read w = .ok c →
      fields.read (.obj (before ++ ((fields.field i).name, w) :: after)) =
        .ok (Tuple.set i c bs) := by
  obtain ⟨hgive, hintact⟩ := (readMembers_eq_ok_iff hnames).mp h
  -- the field is given a value, so no other member has its name
  obtain ⟨hbefore, hafter, hread⟩ : Json.called (fields.field i).name before = [] ∧
      Json.called (fields.field i).name after = [] ∧
      (fields.field i).codec.read v = .ok (Tuple.get i bs) := by
    rcases hgive.get i with ⟨w, hw, hread⟩ | ⟨hnone, -⟩
    · rw [Json.called_append, Json.called_cons_self] at hw
      obtain ⟨hbefore, hw⟩ | ⟨-, hnil⟩ := List.append_eq_singleton_iff.mp hw
      · obtain ⟨hvw, hafter⟩ := List.cons.inj hw
        obtain ⟨-, rfl⟩ := Prod.mk.inj hvw
        exact ⟨hbefore, hafter, hread⟩
      · cases hnil
    · rw [Json.called_append, Json.called_cons_self] at hnone
      cases (List.append_eq_nil_iff.mp hnone).2
  refine ⟨hread, fun w c hc => (readMembers_eq_ok_iff hnames).mpr ⟨?_, ?_⟩⟩
  · refine hgive.set hnames i (.inl ⟨w, ?_, hc⟩) fun name hname => ?_
    · rw [Json.called_append, Json.called_cons_self, hbefore, hafter, List.nil_append]
    · rw [Json.called_append, Json.called_append, Json.called_cons_of_ne (Ne.symm hname),
        Json.called_cons_of_ne (Ne.symm hname)]
  · intro m hm hname
    refine hintact m ?_ hname
    rcases List.mem_append.mp hm with hm | hm
    · exact List.mem_append_left _ hm
    · rcases List.mem_cons.mp hm with rfl | hm
      · exact absurd (fields.field_name_mem i) hname
      · exact List.mem_append_right _ (List.mem_cons_of_mem _ hm)

/-- The item at the place of a field decides the value of that field only. -/
theorem read_item (i : Position βs γ) {before after : List Json}
    (hlength : before.length = i.index) {v : Json}
    (h : fields.read (.arr (before ++ v :: after)) = .ok bs) :
    (fields.field i).codec.read v = .ok (Tuple.get i bs) ∧ ∀ w c,
    (fields.field i).codec.read w = .ok c →
      fields.read (.arr (before ++ w :: after)) = .ok (Tuple.set i c bs) := by
  induction i generalizing before with
  | here =>
    cases fields with
    | cons f rest =>
      obtain rfl := List.length_eq_zero_iff.mp hlength
      obtain ⟨b, hb, h⟩ := bind_eq_ok_iff.mp h
      obtain ⟨bs, hbs, h⟩ := bind_eq_ok_iff.mp h
      cases h
      exact ⟨hb, fun w c hc => bind_eq_ok_iff.mpr ⟨c, hc, bind_eq_ok_iff.mpr ⟨bs, hbs, rfl⟩⟩⟩
  | there i ih =>
    cases fields with
    | cons f rest =>
      cases before with
      | nil => cases hlength
      | cons u before =>
        obtain ⟨b, hb, h⟩ := bind_eq_ok_iff.mp h
        obtain ⟨bs, hbs, h⟩ := bind_eq_ok_iff.mp h
        cases h
        obtain ⟨hread, hset⟩ := ih (Nat.succ.inj hlength) hbs
        exact ⟨hread, fun w c hc => bind_eq_ok_iff.mpr
          ⟨b, hb, bind_eq_ok_iff.mpr ⟨_, hset w c hc, rfl⟩⟩⟩

end Fields

/-- Where a document decides the value of one field only, the record that is read with another
document there is the same but for that field. -/
theorem Record.Lawful.read_iff {σ γ : Type} {r : Record σ} (hr : r.Lawful)
    (i : Position r.kinds γ) {frame : Json → Json}
    (hframe : ∀ v bs, r.fields.read (frame v) = .ok bs →
      (r.fields.field i).codec.read v = .ok (Tuple.get i bs) ∧
      ∀ w c, (r.fields.field i).codec.read w = .ok c →
      r.fields.read (frame w) = .ok (Tuple.set i c bs))
    {v : Json} {x : σ} (h : r.codec.read (frame v) = .ok x) :
    (r.fields.field i).codec.read v = .ok (Tuple.get i (r.split x)) ∧ ∀ w x',
    r.codec.read (frame w) = .ok x' ↔
      ∃ c, (r.fields.field i).codec.read w = .ok c ∧
      r.make (Tuple.set i c (r.split x)) = x' := by
  obtain ⟨bs, hbs, rfl⟩ := map_eq_ok_iff.mp h
  obtain ⟨hread, hset⟩ := hframe v bs hbs
  rw [hr.split]
  refine ⟨hread, fun w x' => ⟨fun hx' => ?_, ?_⟩⟩
  · obtain ⟨cs, hcs, rfl⟩ := map_eq_ok_iff.mp hx'
    have hc := (hframe w cs hcs).1
    exact ⟨_, hc, congrArg r.make (Except.ok.inj ((hset w _ hc).symm.trans hcs))⟩
  · rintro ⟨c, hc, rfl⟩
    exact map_eq_ok_iff.mpr ⟨_, hset w c hc, rfl⟩

namespace Codec

variable {α : Type} {c : Codec α}

theorem mapM_append_cons_eq_ok_iff {before after : List Json} {v : Json} {xs : List α} :
    (before ++ v :: after).mapM c.read = .ok xs ↔ ∃ ys a zs, before.mapM c.read = .ok ys ∧
      c.read v = .ok a ∧
      after.mapM c.read = .ok zs ∧ ys ++ a :: zs = xs := by
  rw [List.mapM_append, List.mapM_cons]
  simp only [bind_eq_ok_iff]
  constructor
  · rintro ⟨ys, hys, _, ⟨a, ha, zs, hzs, ⟨⟩⟩, ⟨⟩⟩
    exact ⟨ys, a, zs, hys, ha, hzs, rfl⟩
  · rintro ⟨ys, a, zs, hys, ha, hzs, rfl⟩
    exact ⟨ys, hys, _, ⟨a, ha, zs, hzs, rfl⟩, rfl⟩

/-- An item of an array decides the item of the list at its place only. -/
theorem listOf_read_iff {before after : List Json} {v : Json} {xs : List α}
    (h : c.listOf.read (.arr (before ++ v :: after)) = .ok xs) :
    ∃ ys a zs, ys.length = before.length ∧ ys ++ a :: zs = xs ∧ c.read v = .ok a ∧
      ∀ w xs', c.listOf.read (.arr (before ++ w :: after)) = .ok xs' ↔
        ∃ b, c.read w = .ok b ∧ ys ++ b :: zs = xs' := by
  obtain ⟨ys, a, zs, hys, ha, hzs, hxs⟩ := mapM_append_cons_eq_ok_iff.mp h
  refine ⟨ys, a, zs, (mapM_eq_ok_iff.mp hys).length_eq.symm, hxs, ha, fun w xs' => ?_⟩
  refine mapM_append_cons_eq_ok_iff.trans ⟨?_, ?_⟩
  · rintro ⟨ys', b, zs', hys', hb, hzs', hxs'⟩
    obtain rfl := Except.ok.inj (hys.symm.trans hys')
    obtain rfl := Except.ok.inj (hzs.symm.trans hzs')
    exact ⟨b, hb, hxs'⟩
  · rintro ⟨b, hb, hxs'⟩
    exact ⟨ys, b, zs, hys, hb, hzs, hxs'⟩

theorem optional_read_iff {v : Json} (hv : v ≠ .null) {x : Option α} :
    c.optional.read v = .ok x ↔ ∃ a, c.read v = .ok a ∧ some a = x := by
  unfold optional
  dsimp only
  split
  · exact absurd rfl hv
  · exact map_eq_ok_iff

end Codec

namespace Place

variable {α β : Type} {c : Codec α} {d : Codec β}

/-- There is no null on the way to an object. -/
theorem fill_obj_ne_null (place : Place c d) (ms : List (String × Json)) :
    place.fill (.obj ms) ≠ .null := by
  induction place with
  | here => nofun
  | member => nofun
  | slot => nofun
  | item => nofun
  | present rest ih => exact ih

/-- Once a document has been read, what is read with another object at the place is decided by
that object: it is not read if the object is not, and otherwise the value differs at the place
only. -/
theorem read_fill_iff (place : Place c d) {ms : List (String × Json)} {x : α}
    (h : c.read (place.fill (.obj ms)) = .ok x) {ns : List (String × Json)} {x' : α} :
    c.read (place.fill (.obj ns)) = .ok x' ↔ ∃ y, d.read (.obj ns) = .ok y ∧
    place.put x y = x' := by
  induction place with
  | here c => exact ⟨fun hx' => ⟨x', hx', rfl⟩, fun ⟨_, hy, heq⟩ => heq ▸ hy⟩
  | member lawful i before after rest ih =>
    obtain ⟨hread, hiff⟩ := lawful.read_iff i (fun _ _ => Fields.read_member lawful.names i) h
    refine (hiff _ _).trans ?_
    simp only [ih hread]
    exact exists_exists_and_eq_and
  | slot lawful i before after length rest ih =>
    obtain ⟨hread, hiff⟩ := lawful.read_iff i (fun _ _ => Fields.read_item i length) h
    refine (hiff _ _).trans ?_
    simp only [ih hread]
    exact exists_exists_and_eq_and
  | item before after rest ih =>
    obtain ⟨ys, a, zs, hlength, rfl, hread, hiff⟩ := Codec.listOf_read_iff h
    have hput (y : _) : (item before after rest).put (ys ++ a :: zs) y =
        ys ++ rest.put a y :: zs := by
      change (ys ++ a :: zs).modify before.length (rest.put · y) = _
      rw [← hlength]
      simp [List.modify_eq_take_cons_drop]
    refine (hiff _ _).trans ?_
    simp only [ih hread, hput]
    exact exists_exists_and_eq_and
  | present rest ih =>
    obtain ⟨a, hread, rfl⟩ := (Codec.optional_read_iff (rest.fill_obj_ne_null _)).mp h
    refine (Codec.optional_read_iff (rest.fill_obj_ne_null _)).trans ?_
    simp only [ih hread]
    exact exists_exists_and_eq_and

end Place

/-! ## Section 4 — texts of payloads -/

/-- The members in any order, together with others that have values but names of no field. -/
def Fields.Rearranged {βs : List Type} (fields : Fields βs)
    (ms ns : List (String × Json)) : Prop :=
  ∃ extra, ns.Perm (extra ++ ms) ∧ ∀ m ∈ extra, m.1 ∉ fields.names ∧ m.2.legible = true

namespace Codec.Stands

variable {α : Type} {c : Codec α} {βs : List Type} {fields : Fields βs} {make : Tuple βs → α}
  {ms ns : List (String × Json)} {bs : Tuple βs} {γ : Type} {v : Json}

/-- Neither the order of the members nor unknown ones make a difference. -/
theorem read_rearranged (h : c.Stands ms fields make) (hread : c.read (.obj ms) = .ok (make bs))
    (hgive : fields.Give ms bs) (hns : fields.Rearranged ms ns) :
    c.read (.obj ns) = .ok (make bs) := by
  obtain ⟨extra, hperm, hextra⟩ := hns
  have hunknown : fields.Give (extra ++ ms) bs := by
    refine (Fields.give_congr fun name hname => ?_).mp hgive
    have hnone : Json.called name extra = [] :=
      List.filter_eq_nil_iff.mpr fun m hm heq => (hextra m hm).1 (of_decide_eq_true heq ▸ hname)
    rw [Json.called_append, hnone, List.nil_append]
  refine h.read_of_give hread (hunknown.perm hperm.symm) fun m hm => ?_
  rcases List.mem_append.mp (hperm.mem_iff.mp hm) with hm | hm
  · exact .inr (hextra m hm)
  · exact .inl hm

/-- Where one member of an object that is read is that of a field, no other member
has its name. -/
theorem called_eq_nil (hgive : fields.Give ms bs) (i : Position βs γ)
    (hperm : ms.Perm (((fields.field i).name, v) :: ns)) :
    Json.called (fields.field i).name ns = [] := by
  rcases (hgive.perm hperm).get i with ⟨w, hw, -⟩ | ⟨hnone, -⟩
  · rw [Json.called_cons_self] at hw
    exact (List.cons.inj hw).2
  · rw [Json.called_cons_self] at hnone
    cases hnone

/-- Without its member, a field takes its default and the others keep their values. -/
theorem read_without (h : c.Stands ms fields make) (hread : c.read (.obj ms) = .ok (make bs))
    (hgive : fields.Give ms bs) (i : Position βs γ)
    (hperm : ms.Perm (((fields.field i).name, v) :: ns)) {b : γ}
    (habsent : (fields.field i).absent = some b) :
    c.read (.obj ns) = .ok (make (Tuple.set i b bs)) := by
  refine h.read_of_give hread
    ((hgive.perm hperm).set h.names i (.inr ⟨called_eq_nil hgive i hperm, habsent⟩) ?_) ?_
  · exact fun name hname => (Json.called_cons_of_ne (Ne.symm hname)).symm
  · exact fun m hm => .inl (hperm.mem_iff.mpr (List.mem_cons_of_mem _ hm))

/-- Without its member, a field that has no default makes the object unreadable. -/
theorem not_read_without (h : c.Stands ms fields make) (hgive : fields.Give ms bs)
    (i : Position βs γ) (hperm : ms.Perm (((fields.field i).name, v) :: ns))
    (habsent : (fields.field i).absent = none) (x : α) : c.read (.obj ns) ≠ .ok x := by
  refine h.refuses i (fun m hm hname => ?_) (fun w hw => ?_) (fun _ => habsent) x
  · exact (List.mem_cons.mp (hperm.mem_iff.mp hm)).resolve_left fun heq =>
      hname (congrArg Prod.fst heq)
  · rw [called_eq_nil hgive i hperm] at hw
    cases hw

/-- Two members with the name of a field make the object unreadable, whatever they hold. -/
theorem not_read_repeated (h : c.Stands ms fields make) {name : String}
    (hname : name ∈ fields.names) (hns : ms ⊆ ns) (hrepeated : 1 < (Json.called name ns).length)
    (x : α) : c.read (.obj ns) ≠ .ok x := by
  obtain ⟨γ, i, rfl⟩ := Fields.exists_position hname
  refine h.refuses i (fun m hm _ => hns hm) (fun v hv => ?_) (fun hnone => ?_) x
  · rw [hv] at hrepeated
    exact absurd hrepeated (Nat.lt_irrefl 1)
  · rw [hnone] at hrepeated
    cases hrepeated

end Codec.Stands

namespace PayloadType

/-- At every object of a text that holds a record, or an alternative of a sum, anywhere in a
payload: the text holds the same payload with the members in another order and with unknown
ones; without the member of a field it holds the payload with the default of that field, if
there is one, and no payload otherwise; and with two members for one field it holds none. -/
theorem readText_altered (p : PayloadType) {text : String} {x : p.Carrier}
    (hread : p.codec.readText text = .ok x) {σ : Type} {inner : Codec σ}
    (place : Place p.codec inner) {ms : List (String × Json)}
    (hroot : (Json.read text).root = place.fill (.obj ms)) {βs : List Type} {fields : Fields βs}
    {make : Tuple βs → σ} (hms : inner.Stands ms fields make) :
    ∃ bs, inner.read (.obj ms) = .ok (make bs) ∧ place.put x (make bs) = x ∧
      ∀ altered ns, Json.read altered = ⟨place.fill (.obj ns), true⟩ →
        (fields.Rearranged ms ns → p.codec.readText altered = .ok x) ∧
        (∀ γ, ∀ i : Position βs γ, ∀ v, ms.Perm (((fields.field i).name, v) :: ns) →
          (∀ b, (fields.field i).absent = some b →
            p.codec.readText altered = .ok (place.put x (make (Tuple.set i b bs)))) ∧
          ((fields.field i).absent = none → ∀ y, p.codec.readText altered ≠ .ok y)) ∧
        (∀ name ∈ fields.names, ms ⊆ ns → 1 < (Json.called name ns).length →
          ∀ y, p.codec.readText altered ≠ .ok y) := by
  have hfill : p.codec.read (place.fill (.obj ms)) = .ok x :=
    hroot ▸ (Codec.readText_eq_ok_iff.mp hread).1
  obtain ⟨y, hinner, hput⟩ := (place.read_fill_iff hfill).mp hfill
  obtain ⟨bs, rfl, hgive⟩ := hms.give hinner
  refine ⟨bs, hinner, hput, fun altered ns haltered => ?_⟩
  have haltered {x' : p.Carrier} : p.codec.readText altered = .ok x' ↔
      ∃ y, inner.read (.obj ns) = .ok y ∧ place.put x y = x' := by
    rw [Codec.readText_eq_ok_iff, haltered, place.read_fill_iff hfill]
    exact and_iff_left rfl
  have hrefused (h : ∀ y, inner.read (.obj ns) ≠ .ok y) (x' : p.Carrier) :
      p.codec.readText altered ≠ .ok x' := by
    intro hx'
    obtain ⟨y, hy, -⟩ := haltered.mp hx'
    exact h y hy
  refine ⟨fun hns => ?_, fun γ i v hperm => ⟨fun b hb => ?_, fun hnone => ?_⟩,
    fun name hname hns htwice => ?_⟩
  · exact haltered.mpr ⟨_, hms.read_rearranged hinner hgive hns, hput⟩
  · exact haltered.mpr ⟨_, hms.read_without hinner hgive i hperm hb, rfl⟩
  · exact hrefused (hms.not_read_without hgive i hperm hnone)
  · exact hrefused (hms.not_read_repeated hname hns htwice)

/-- The alert of the device in the report of an alarm. -/
def ofDevice : Place alarmState.codec Alert.codec :=
  .member AlarmState.lawful .here [] [("enabled", .bool true)] <|
  .member DeviceState.lawful (.there (.there (.there (.there (.there .here)))))
    [("name", .str "garage")] [] <|
  .present (.here Alert.codec)

/-- The text of such a report with the given members in the alert. -/
def warning (ms : List (String × Json)) : String := (ofDevice.fill (.obj ms)).text

/-- The report with the given alert. -/
def warned (alert : Alert) : AlarmState where
  device := { name := "garage", alert := some alert }
  enabled := true

theorem readText_altered_alert :
    alarmState.codec.readText
      (warning [("kind", .str "ERROR"), ("message", .str "m"), ("description", .str "d")]) =
        .ok (warned ⟨.error, "m", some "d"⟩) ∧
      alarmState.codec.readText (warning
        [("since", .arr [.null]), ("description", .str "d"), ("message", .str "m"),
          ("kind", .str "ERROR")]) =
        .ok (warned ⟨.error, "m", some "d"⟩) ∧
      alarmState.codec.readText (warning [("kind", .str "ERROR"), ("message", .str "m")]) =
        .ok (warned ⟨.error, "m", none⟩) ∧
      (∀ y, alarmState.codec.readText
        (warning [("kind", .str "ERROR"), ("description", .str "d")]) ≠ .ok y) ∧
      (∀ y, alarmState.codec.readText (warning
        [("kind", .str "ERROR"), ("message", .str "m"), ("description", .str "d"),
          ("kind", .null)]) ≠ .ok y) := by
  have hdocument (ms : List (String × Json))
    (hlegible : (ofDevice.fill (.obj ms)).legible = true)
      (hnumbers : (ofDevice.fill (.obj ms)).numbers = [])
      (hdepth : (ofDevice.fill (.obj ms)).depth ≤ Json.maxDepth) :
      Json.read (warning ms) = ⟨ofDevice.fill (.obj ms), true⟩ :=
    Json.read_text hlegible (hnumbers ▸ nofun) hdepth
  have hread : alarmState.codec.readText
      (warning [("kind", .str "ERROR"), ("message", .str "m"), ("description", .str "d")]) =
        .ok (warned ⟨.error, "m", some "d"⟩) :=
    Codec.readText_eq_ok_iff.mpr
      (by rw [hdocument _ rfl rfl (by decide)]; exact ⟨by decide +kernel, rfl⟩)
  obtain ⟨bs, halert, -, haltered⟩ := readText_altered alarmState hread ofDevice
    (by rw [hdocument _ rfl rfl (by decide)]) (.record Alert.lawful _)
  obtain rfl : bs = (.error, "m", some "d", ()) := by
    rw [← Alert.lawful.split bs, ← Except.ok.inj halert]
    rfl
  refine ⟨hread, ?_, ?_, ?_, ?_⟩
  · exact (haltered _ _ (hdocument _ rfl rfl (by decide))).1
      ⟨[("since", .arr [.null])],
        .cons _ (List.reverse_perm
          [("kind", Json.str "ERROR"), ("message", .str "m"), ("description", .str "d")]),
        by decide⟩
  · exact ((haltered _ _ (hdocument _ rfl rfl (by decide))).2.1 _ (.there (.there .here))
      (.str "d") (List.perm_append_singleton _
        [("kind", Json.str "ERROR"), ("message", .str "m")])).1 none rfl
  · exact ((haltered _ _ (hdocument _ rfl rfl (by decide))).2.1 _ (.there .here) (.str "m")
      (.swap _ _ _)).2 rfl
  · exact (haltered _ _ (hdocument _ rfl rfl (by decide))).2.2 "kind" (by decide)
      (List.subset_append_left _ [_])
      (by decide)

end PayloadType

end HouseBoard
