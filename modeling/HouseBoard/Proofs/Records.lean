/-
HouseBoard.Proofs.Records — what is read from the members of an object does not
depend on their order.

A record is read in one pass over the members, with a slot for each field.  Section 1 separates
the slots: the pass fills the first one from the members of its name, and passes the others on.
Section 2 concludes which record is read: each field gets its value from the only member of its
name, or takes its default where there is no such member, and every other member is passed over.
Section 3 says the same of tagged objects, where the members beside the tag are collected first.
-/
import HouseBoard.Json.Tagged

namespace HouseBoard

/-! ## Section 1 — one slot after the other -/

theorem bind_eq_ok_iff {ε α β : Type} {x : Except ε α} {f : α → Except ε β} {b : β} :
    (x >>= f) = .ok b ↔ ∃ a, x = .ok a ∧ f a = .ok b := by
  cases x with
  | error e => simp [bind, Except.bind]
  | ok a => simp [bind, Except.bind]

theorem map_eq_ok_iff {ε α β : Type} {x : Except ε α} {f : α → β} {b : β} :
    x.map f = .ok b ↔ ∃ a, x = .ok a ∧ f a = b := by
  cases x with
  | error e => simp [Except.map]
  | ok a => simp [Except.map]

namespace Json

/-- The members of a name. -/
def called (name : String) (ms : List (String × Json)) : List (String × Json) :=
  ms.filter (·.1 = name)

/-- The members of other names. -/
def beside (name : String) (ms : List (String × Json)) : List (String × Json) :=
  ms.filter (·.1 ≠ name)

variable {name other : String} {m : String × Json} {ms ns : List (String × Json)}

theorem called_cons_self {v : Json} :
    called name ((name, v) :: ms) = (name, v) :: called name ms := by
  simp [called]

theorem called_cons_of_ne (h : m.1 ≠ name) : called name (m :: ms) = called name ms := by
  simp [called, h]

theorem called_append : called name (ms ++ ns) = called name ms ++ called name ns :=
  List.filter_append ..

theorem mem_called {v : Json} : (name, v) ∈ called name ms ↔ (name, v) ∈ ms := by
  simp [called]

theorem mem_of_called_eq {v : Json} (h : called name ms = [(name, v)]) : (name, v) ∈ ms := by
  rw [← mem_called, h]
  exact List.mem_cons_self

theorem beside_cons_self {v : Json} : beside name ((name, v) :: ms) = beside name ms := by
  simp [beside]

theorem beside_cons_of_ne (h : m.1 ≠ name) : beside name (m :: ms) = m :: beside name ms := by
  simp [beside, h]

theorem called_beside (h : other ≠ name) : called other (beside name ms) = called other ms := by
  rw [called, beside, List.filter_filter]
  refine List.filter_congr fun m _ => ?_
  by_cases hother : m.1 = other
  · simp [hother, h]
  · simp [hother]

theorem mem_beside : m ∈ beside name ms ↔ m ∈ ms ∧ m.1 ≠ name := by
  simp [beside]

end Json

namespace Field

variable {β : Type}

/-- The members of the field's name fill its slot: there are none, or there is one and
the slot was free. -/
def Fills (f : Field β) (ms : List (String × Json)) (slot filled : Option β) : Prop :=
  (Json.called f.name ms = [] ∧ filled = slot) ∨
    ∃ v b, Json.called f.name ms = [(f.name, v)] ∧ slot = none ∧ f.codec.read v = .ok b ∧
    filled = some b

theorem fills_nil {f : Field β} {slot filled : Option β} :
    f.Fills [] slot filled ↔ filled = slot := by
  simp [Fills, Json.called]

/-- A member of the field's name needs a free slot, and leaves none. -/
theorem fills_cons_self {f : Field β} {v : Json} {ms : List (String × Json)}
    {slot filled : Option β} :
    f.Fills ((f.name, v) :: ms) slot filled ↔
      slot = none ∧ ∃ b, f.codec.read v = .ok b ∧ f.Fills ms (some b) filled := by
  rw [Fills, Json.called_cons_self]
  constructor
  · rintro (⟨hnil, -⟩ | ⟨w, b, hcalled, hslot, hread, hfilled⟩)
    · cases hnil
    · obtain ⟨hw, hrest⟩ := List.cons.inj hcalled
      obtain ⟨-, rfl⟩ := Prod.mk.inj hw
      exact ⟨hslot, b, hread, .inl ⟨hrest, hfilled⟩⟩
  · rintro ⟨hslot, b, hread, (⟨hrest, hfilled⟩ | ⟨w, c, -, htaken, -⟩)⟩
    · exact .inr ⟨v, b, by rw [hrest], hslot, hread, hfilled⟩
    · cases htaken

theorem fills_cons_of_ne {f : Field β} {m : String × Json} {ms : List (String × Json)}
    {slot filled : Option β} (h : m.1 ≠ f.name) : f.Fills (m :: ms) slot filled ↔
    f.Fills ms slot filled := by
  rw [Fills, Json.called_cons_of_ne h, Fills]

end Field

namespace Fields

variable {β : Type} {βs : List Type}

/-- Without fields, members are only passed over. -/
theorem foldlM_nil {ms : List (String × Json)} {filled : Slots []} :
    ms.foldlM Fields.nil.readMember () = .ok filled ↔ ∀ m ∈ ms, m.2.intact = true := by
  induction ms with
  | nil => simp [pure, Except.pure]
  | cons m ms ih =>
    have hstep : Fields.nil.readMember () m = if m.2.intact then .ok ()
      else .error .malformed := rfl
    rw [List.foldlM_cons, hstep, List.forall_mem_cons, ← ih]
    cases m.2.intact with
    | true => simp [bind, Except.bind]
    | false => simp [bind, Except.bind]

theorem put_cons {f : Field β} {rest : Fields βs} {slot : Option β} {slots : Slots βs}
    {name : String} {v : Json} :
    (Fields.cons f rest).put (slot, slots) name v =
      if f.name = name then
        match slot with
        | some _ => .error .mismatch
        | none => (f.codec.read v).map fun b => some (some b, slots)
      else (rest.put slots name v).map fun filled => filled.map fun slots => (slot, slots) :=
        rfl

theorem readMember_cons_of_ne {f : Field β} {rest : Fields βs} {slot : Option β}
    {slots : Slots βs} {m : String × Json} (h : m.1 ≠ f.name) :
    (Fields.cons f rest).readMember (slot, slots) m = (rest.readMember slots m).map
      fun filled => (slot, filled) := by
  unfold readMember
  rw [put_cons, if_neg (Ne.symm h)]
  cases rest.put slots m.1 m.2 with
  | error e => rfl
  | ok filled =>
    cases filled with
    | some filled => rfl
    | none =>
      cases m.2.intact with
      | true => rfl
      | false => rfl

theorem readMember_cons_self {f : Field β} {rest : Fields βs} {slot : Option β}
    {slots : Slots βs} {v : Json} :
    (Fields.cons f rest).readMember (slot, slots) (f.name, v) =
      match slot with
      | some _ => .error .mismatch
      | none => (f.codec.read v).map fun b => (some b, slots) := by
  unfold readMember
  rw [put_cons, if_pos rfl]
  cases slot with
  | some b => rfl
  | none =>
    cases f.codec.read v with
    | error e => rfl
    | ok b => rfl

/-- The pass over the members fills the first slot from the members of its name, and the
others from the rest. -/
theorem foldlM_cons {f : Field β} {rest : Fields βs} {ms : List (String × Json)}
    {slot filled : Option β} {slots filleds : Slots βs} :
    ms.foldlM (Fields.cons f rest).readMember (slot, slots) = .ok (filled, filleds) ↔
      f.Fills ms slot filled ∧ (Json.beside f.name ms).foldlM rest.readMember slots =
        .ok filleds := by
  induction ms generalizing slot slots with
  | nil => simp [Field.fills_nil, Json.beside, pure, Except.pure, eq_comm]
  | cons m ms ih =>
    by_cases hname : m.1 = f.name
    · obtain ⟨name, v⟩ := m
      obtain rfl := hname
      rw [List.foldlM_cons, readMember_cons_self, Field.fills_cons_self, Json.beside_cons_self]
      cases slot with
      | some b => simp [bind, Except.bind]
      | none =>
        rw [bind_eq_ok_iff]
        simp only [map_eq_ok_iff, true_and]
        constructor
        · rintro ⟨_, ⟨b, hread, rfl⟩, hfold⟩
          obtain ⟨hfills, hrest⟩ := ih.mp hfold
          exact ⟨⟨b, hread, hfills⟩, hrest⟩
        · rintro ⟨⟨b, hread, hfills⟩, hrest⟩
          exact ⟨_, ⟨b, hread, rfl⟩, ih.mpr ⟨hfills, hrest⟩⟩
    · rw [List.foldlM_cons, readMember_cons_of_ne hname, Field.fills_cons_of_ne hname,
        Json.beside_cons_of_ne hname, List.foldlM_cons, bind_eq_ok_iff, bind_eq_ok_iff]
      simp only [map_eq_ok_iff]
      constructor
      · rintro ⟨_, ⟨next, hread, rfl⟩, hfold⟩
        obtain ⟨hfills, hrest⟩ := ih.mp hfold
        exact ⟨hfills, next, hread, hrest⟩
      · rintro ⟨hfills, next, hread, hrest⟩
        exact ⟨_, ⟨next, hread, rfl⟩, ih.mpr ⟨hfills, hrest⟩⟩

/-! ## Section 2 — which record is read -/

end Fields

/-- The members give the field a value: that of the only member of its name, or its default
where there is none. -/
def Field.Gives {β : Type} (f : Field β) (ms : List (String × Json)) (b : β) : Prop :=
  (∃ v, Json.called f.name ms = [(f.name, v)] ∧ f.codec.read v = .ok b) ∨
    (Json.called f.name ms = [] ∧ f.absent = some b)

theorem Field.gives_iff {β : Type} {f : Field β} {ms : List (String × Json)} {b : β} :
    f.Gives ms b ↔ ∃ filled, f.Fills ms none filled ∧ (filled <|> f.absent) = some b := by
  constructor
  · rintro (⟨v, hcalled, hread⟩ | ⟨hnone, habsent⟩)
    · exact ⟨some b, .inr ⟨v, b, hcalled, rfl, hread, rfl⟩, rfl⟩
    · exact ⟨none, .inl ⟨hnone, rfl⟩, habsent⟩
  · rintro ⟨_, (⟨hnone, rfl⟩ | ⟨v, c, hcalled, -, hread, rfl⟩), hvalue⟩
    · exact .inr ⟨hnone, hvalue⟩
    · obtain rfl := Option.some.inj hvalue
      exact .inl ⟨v, hcalled, hread⟩

/-- What the members give a field depends on those of its name only. -/
theorem Field.gives_congr {β : Type} {f : Field β} {ms ns : List (String × Json)} {b : β}
    (h : Json.called f.name ms = Json.called f.name ns) : f.Gives ms b ↔ f.Gives ns b := by
  rw [Field.Gives, Field.Gives, h]

namespace Fields

/-- The names of the fields. -/
def names : {βs : List Type} → Fields βs → List String
  | _, .nil => []
  | _, .cons f rest => f.name :: rest.names

/-- The members give each field its value. -/
def Give : {βs : List Type} → Fields βs → List (String × Json) → Tuple βs → Prop
  | _, .nil, _, () => True
  | _, .cons f rest, ms, (b, bs) => f.Gives ms b ∧ rest.Give ms bs

variable {β : Type} {βs : List Type}

theorem give_congr {fields : Fields βs} {ms ns : List (String × Json)} {bs : Tuple βs}
    (h : ∀ name ∈ fields.names, Json.called name ms = Json.called name ns) :
    fields.Give ms bs ↔ fields.Give ns bs := by
  induction fields with
  | nil => rfl
  | cons f rest ih =>
    obtain ⟨b, bs⟩ := bs
    rw [Give, Give, Field.gives_congr (h f.name List.mem_cons_self),
      ih fun name hname => h name (List.mem_cons_of_mem _ hname)]

/-- Fields of other names are given the same without the members of a name. -/
theorem give_beside {fields : Fields βs} {name : String} (h : name ∉ fields.names)
    {ms : List (String × Json)} {bs : Tuple βs} : fields.Give (Json.beside name ms) bs ↔
    fields.Give ms bs := by
  refine give_congr fun other hother => Json.called_beside ?_
  rintro rfl
  exact h hother

/-- A record is read from an object exactly if its members give each field its value, and the
members of other names can be passed over. -/
theorem readMembers_eq_ok_iff {fields : Fields βs} (hnames : fields.names.Nodup)
    {ms : List (String × Json)} {bs : Tuple βs} :
    fields.readMembers ms = .ok bs ↔
      fields.Give ms bs ∧ ∀ m ∈ ms, m.1 ∉ fields.names → m.2.intact = true := by
  induction fields generalizing ms with
  | nil =>
    rw [readMembers, bind_eq_ok_iff]
    constructor
    · rintro ⟨_, hfold, -⟩
      exact ⟨trivial, fun m hm _ => foldlM_nil.mp hfold m hm⟩
    · rintro ⟨-, hintact⟩
      exact ⟨(), foldlM_nil.mpr fun m hm => hintact m hm List.not_mem_nil, rfl⟩
  | cons f rest ih =>
    obtain ⟨b, bs⟩ := bs
    obtain ⟨hfresh, hnames⟩ := List.nodup_cons.mp hnames
    have hcomplete (filled : Option _) (filleds : Slots _) :
        (Fields.cons f rest).complete (filled, filleds) = .ok (b, bs) ↔
          (filled <|> f.absent) = some b ∧ rest.complete filleds = .ok bs := by
      rw [complete]
      cases filled <|> f.absent with
      | none => simp
      | some c =>
        rw [map_eq_ok_iff]
        simp only [Prod.mk.injEq, Option.some.injEq]
        exact ⟨fun ⟨_, hread, hc, heq⟩ => ⟨hc, heq ▸ hread⟩,
          fun ⟨hc, hread⟩ => ⟨bs, hread, hc, rfl⟩⟩
    -- the other fields are read from the members beside those of the first one
    have hsplit : (Fields.cons f rest).readMembers ms = .ok (b, bs) ↔
        f.Gives ms b ∧ rest.readMembers (Json.beside f.name ms) = .ok bs := by
      rw [readMembers, readMembers, bind_eq_ok_iff, bind_eq_ok_iff, Field.gives_iff]
      constructor
      · rintro ⟨⟨filled, filleds⟩, hfold, hdone⟩
        obtain ⟨hfills, hfold⟩ := foldlM_cons.mp hfold
        obtain ⟨hvalue, hdone⟩ := (hcomplete filled filleds).mp hdone
        exact ⟨⟨filled, hfills, hvalue⟩, filleds, hfold, hdone⟩
      · rintro ⟨⟨filled, hfills, hvalue⟩, filleds, hfold, hdone⟩
        exact ⟨(filled, filleds), foldlM_cons.mpr ⟨hfills, hfold⟩,
          (hcomplete filled filleds).mpr ⟨hvalue, hdone⟩⟩
    rw [hsplit, ih hnames, give_beside hfresh, Give, and_assoc]
    simp only [Json.mem_beside, names, List.mem_cons, not_or, and_imp]

end Fields

/-! ## Section 3 — which alternative is read -/

namespace Variant

variable {σ : Type} {variants : List (Variant σ)}

theorem shaped_eq_ok_iff {α β : Type} {make : α → β} {x : Except Json.Fault α} {b : β} :
    shaped make x = .ok b ↔ ∃ a, x = .ok a ∧ make a = b := by
  cases x with
  | error e => simp [shaped]
  | ok a => simp [shaped]

theorem collect_tag {seen : Collected σ} {v : Json} :
    collect variants seen (tagName, v) =
      match seen.variant with
      | some _ => .error .mismatch
      | none => (named variants v).map fun variant =>
        { seen with variant := some variant } := rfl

theorem collect_of_ne {seen : Collected σ} {m : String × Json} (h : m.1 ≠ tagName) :
    collect variants seen m =
      if m.2.legible then .ok { seen with others := m :: seen.others } else .error .malformed :=
  if_neg h

/-- The pass over the members of a tagged object finds the tag and collects the
other members. -/
theorem foldlM_collect {ms : List (String × Json)} {seen found : Collected σ} :
    ms.foldlM (collect variants) seen = .ok found ↔
      found.others = (Json.beside tagName ms).reverse ++ seen.others ∧
      (∀ m ∈ Json.beside tagName ms, m.2.legible = true) ∧
      ((Json.called tagName ms = [] ∧ found.variant = seen.variant) ∨
        ∃ v variant, Json.called tagName ms = [(tagName, v)] ∧ seen.variant = none ∧
          named variants v = .ok variant ∧ found.variant = some variant) := by
  obtain ⟨variant, others⟩ := found
  induction ms generalizing seen with
  | nil =>
    obtain ⟨known, gathered⟩ := seen
    constructor
    · rintro ⟨⟩
      refine ⟨rfl, ?_, .inl ⟨rfl, rfl⟩⟩
      intro m hm
      cases hm
    · rintro ⟨rfl, -, (⟨-, rfl⟩ | ⟨_, _, hcalled, -⟩)⟩
      · rfl
      · cases hcalled
  | cons m ms ih =>
    rw [List.foldlM_cons, bind_eq_ok_iff]
    by_cases hname : m.1 = tagName
    · obtain ⟨_, v⟩ := m
      obtain rfl := hname
      rw [collect_tag, Json.beside_cons_self, Json.called_cons_self]
      cases hknown : seen.variant with
      | some known =>
        simp
      | none =>
        constructor
        · rintro ⟨_, hcollect, hfold⟩
          obtain ⟨found, hfound, rfl⟩ := map_eq_ok_iff.mp hcollect
          obtain ⟨hothers, hlegible, htag⟩ := ih.mp hfold
          refine ⟨hothers, hlegible, .inr ?_⟩
          rcases htag with ⟨hnone, rfl⟩ | ⟨_, _, _, htaken, _⟩
          · exact ⟨v, found, by rw [hnone], rfl, hfound, rfl⟩
          · cases htaken
        · rintro ⟨hothers, hlegible, (⟨hnil, -⟩ | ⟨w, found, hcalled, -, hfound, rfl⟩)⟩
          · cases hnil
          · obtain ⟨hw, hrest⟩ := List.cons.inj hcalled
            obtain ⟨-, rfl⟩ := Prod.mk.inj hw
            exact ⟨_, map_eq_ok_iff.mpr ⟨found, hfound, rfl⟩,
              ih.mpr ⟨hothers, hlegible, .inl ⟨hrest, rfl⟩⟩⟩
    · rw [collect_of_ne hname, Json.beside_cons_of_ne hname, Json.called_cons_of_ne hname,
        List.reverse_cons, List.append_assoc, List.singleton_append, List.forall_mem_cons]
      cases m.2.legible with
      | false => simp
      | true =>
        simp only [if_true, Except.ok.injEq, exists_eq_left', true_and]
        exact ih

theorem named_eq_ok_iff {v : Json} {variant : Variant σ} :
    named variants v = .ok variant ↔ ∃ tag, v = .str tag ∧
    variants.find? (·.tag = tag) = some variant := by
  unfold named
  split
  · rename_i tag
    constructor
    · intro h
      split at h
      · cases h
        exact ⟨tag, rfl, ‹_›⟩
      · cases h
    · rintro ⟨_, ⟨⟩, hfound⟩
      rw [hfound]
  · rename_i hother
    constructor
    · intro h
      unfold Codec.refuse at h
      split at h
      · cases h
      · cases h
      · cases h
    · rintro ⟨tag, rfl, -⟩
      exact absurd rfl (hother tag)

/-- An alternative is read from an object exactly if the only member of the tag's name names it,
the members beside it have values, and the alternative is read from them. -/
theorem read_obj_eq_ok_iff {ms : List (String × Json)} {x : σ} :
    read variants (.obj ms) = .ok x ↔ ∃ v variant, Json.called tagName ms = [(tagName, v)] ∧
      named variants v = .ok variant ∧ (∀ m ∈ Json.beside tagName ms, m.2.legible = true) ∧
      variant.ofMembers (Json.beside tagName ms) = .ok x := by
  unfold read
  dsimp only
  rw [bind_eq_ok_iff]
  constructor
  · rintro ⟨⟨found, others⟩, hfold, hdone⟩
    obtain ⟨hothers, hlegible, htag⟩ := foldlM_collect.mp hfold
    dsimp only at hothers htag hdone
    rw [List.append_nil] at hothers
    subst others
    rcases htag with ⟨-, rfl⟩ | ⟨v, variant, hcalled, -, hnamed, rfl⟩
    · cases hdone
    · rw [List.reverse_reverse] at hdone
      exact ⟨v, variant, hcalled, hnamed, hlegible, hdone⟩
  · rintro ⟨v, variant, hcalled, hnamed, hlegible, hdone⟩
    refine ⟨⟨some variant, (Json.beside tagName ms).reverse⟩, ?_, ?_⟩
    · exact foldlM_collect.mpr ⟨by simp, hlegible, .inr ⟨v, variant, hcalled, rfl, hnamed, rfl⟩⟩
    · dsimp only
      rw [List.reverse_reverse]
      exact hdone

end Variant

end HouseBoard
