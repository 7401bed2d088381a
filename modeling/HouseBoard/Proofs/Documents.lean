/-
HouseBoard.Proofs.Documents — documents are written as texts that are read back.

Section 1 gathers what stands in a document: its numbers, and how deep it goes.  In Section 2, a
document without unread parts is read back from its text if each of its numbers is, and if the
reader has room for its depth; the induction is on the document, and carries what follows it in
the text.  Section 3 says what is true of every document that was read: its numbers are integers
of 64 bits or finite values.
-/
import HouseBoard.Proofs.Lexemes
import HouseBoard.Json.Reader

namespace HouseBoard.Json

/-! ## Section 1 — what stands in a document -/

mutual

/-- The numbers of a document, in their order. -/
def numbers : Json → List Number
  | .num n => [n]
  | .arr items => numbersOfItems items
  | .obj members => numbersOfMembers members
  | _ => []

/-- `numbers` of all items. -/
def numbersOfItems : List Json → List Number
  | [] => []
  | v :: vs => v.numbers ++ numbersOfItems vs

/-- `numbers` of all members. -/
def numbersOfMembers : List (String × Json) → List Number
  | [] => []
  | (_, v) :: ms => v.numbers ++ numbersOfMembers ms

end

mutual

/-- How many containers stand inside each other. -/
def depth : Json → Nat
  | .arr items => depthOfItems items + 1
  | .obj members => depthOfMembers members + 1
  | _ => 0

/-- The greatest `depth` of an item. -/
def depthOfItems : List Json → Nat
  | [] => 0
  | v :: vs => max v.depth (depthOfItems vs)

/-- The greatest `depth` of a member. -/
def depthOfMembers : List (String × Json) → Nat
  | [] => 0
  | (_, v) :: ms => max v.depth (depthOfMembers ms)

end

/-- A statement about documents holds if it holds of a container whenever it holds of
what stands in it. -/
@[elab_as_elim]
theorem byParts {P : Json → Prop} (null : P .null) (bool : ∀ b, P (.bool b))
    (num : ∀ n, P (.num n)) (str : ∀ s, P (.str s)) (arr : ∀ vs, (∀ v ∈ vs, P v) → P (.arr vs))
    (obj : ∀ ms, (∀ m ∈ ms, P m.2) → P (.obj ms)) (unread : P .unread) (broken : P .broken) :
    ∀ v, P v := by
  intro v
  refine Json.rec (motive_1 := P) (motive_2 := fun vs => ∀ v ∈ vs, P v)
    (motive_3 := fun ms => ∀ m ∈ ms, P m.2)
    (motive_4 := fun m => P m.2) null bool num str (fun vs => arr vs)
      (fun ms => obj ms) unread broken ?_ ?_ ?_ ?_ ?_ v
  · intro v hv
    cases hv
  · intro w ws hw hws v hv
    rcases List.mem_cons.mp hv with rfl | hv
    · exact hw
    · exact hws v hv
  · intro m hm
    cases hm
  · intro l ls hl hls m hm
    rcases List.mem_cons.mp hm with rfl | hm
    · exact hl
    · exact hls m hm
  · intro k v hv
    exact hv

theorem mem_numbersOfItems {n : Number} {vs : List Json} :
    n ∈ numbersOfItems vs ↔ ∃ v ∈ vs, n ∈ v.numbers := by
  induction vs with
  | nil => simp [numbersOfItems]
  | cons v vs ih => simp [numbersOfItems, ih]

theorem mem_numbersOfMembers {n : Number} {ms : List (String × Json)} :
    n ∈ numbersOfMembers ms ↔ ∃ m ∈ ms, n ∈ m.2.numbers := by
  induction ms with
  | nil => simp [numbersOfMembers]
  | cons m ms ih => simp [numbersOfMembers, ih]

theorem legibleItems_iff {vs : List Json} :
    legibleItems vs = true ↔ ∀ v ∈ vs, v.legible = true := by
  induction vs with
  | nil => simp [legibleItems]
  | cons v vs ih => simp [legibleItems, ih]

theorem legibleMembers_iff {ms : List (String × Json)} :
    legibleMembers ms = true ↔ ∀ m ∈ ms, m.2.legible = true := by
  induction ms with
  | nil => simp [legibleMembers]
  | cons m ms ih => simp [legibleMembers, ih]

/-- What has a value can be passed over. -/
theorem intact_of_legible {v : Json} (h : v.legible = true) : v.intact = true := by
  have hitems : ∀ {vs : List Json}, (∀ v ∈ vs, v.intact = true) → intactItems vs = true := by
    intro vs hvs
    induction vs with
    | nil => rfl
    | cons v vs ih =>
      obtain ⟨hv, hvs⟩ := List.forall_mem_cons.mp hvs
      rw [intactItems, hv, ih hvs, Bool.and_self]
  have hmembers : ∀ {ms : List (String × Json)}, (∀ m ∈ ms, m.2.intact = true) →
      intactMembers ms = true := by
    intro ms hms
    induction ms with
    | nil => rfl
    | cons m ms ih =>
      obtain ⟨hm, hms⟩ := List.forall_mem_cons.mp hms
      rw [intactMembers, hm, ih hms, Bool.and_self]
  induction v using byParts with
  | null => rfl
  | bool b => rfl
  | num n => rfl
  | str s => rfl
  | arr vs ih => exact hitems fun v hv => ih v hv (legibleItems_iff.mp h v hv)
  | obj ms ih => exact hmembers fun m hm => ih m hm (legibleMembers_iff.mp h m hm)
  | unread => rfl
  | broken => cases h

theorem depthOfItems_le {room : Nat} {vs : List Json} (h : ∀ v ∈ vs, v.depth ≤ room) :
    depthOfItems vs ≤ room := by
  induction vs with
  | nil => exact Nat.zero_le _
  | cons v vs ih =>
    exact Nat.max_le.mpr
      ⟨h v List.mem_cons_self, ih fun w hw => h w (List.mem_cons_of_mem v hw)⟩

theorem depthOfMembers_le {room : Nat} {ms : List (String × Json)}
    (h : ∀ m ∈ ms, m.2.depth ≤ room) : depthOfMembers ms ≤ room := by
  induction ms with
  | nil => exact Nat.zero_le _
  | cons m ms ih =>
    exact Nat.max_le.mpr
      ⟨h m List.mem_cons_self, ih fun n hn => h n (List.mem_cons_of_mem m hn)⟩

/-! ## Section 2 — texts of documents -/

theorem dropBlanks_cons {c : Char} (h : isBlank c = false) (cs : List Char) :
    dropBlanks (c :: cs) = c :: cs := by
  rw [dropBlanks, List.dropWhile_cons, h]
  rfl

/-- The character that a text of a value begins with. -/
def Starts (c : Char) : Prop := isBlank c = false ∧ c ≠ ']'

theorem starts_of_digit {c : Char} (h : c = '-' ∨ c.isDigit = true) :
    Starts c ∧ c ≠ '[' ∧ c ≠ '{' := by
  have hother : ∀ d, d = ' ' ∨ d = '\n' ∨ d = '\t' ∨ d = '\r' ∨ d = ']' ∨ d = '[' ∨
      d = '{' → c ≠ d := by
    rintro d hd rfl
    rcases hd with rfl | rfl | rfl | rfl | rfl | rfl | rfl
    all_goals
      revert h
      decide
  refine ⟨⟨?_, hother _ (by decide)⟩, hother _ (by decide), hother _ (by decide)⟩
  simp [isBlank, hother]

/-- Every value that has a text begins like one. -/
theorem text_starts {v : Json} (hlegible : v.legible = true)
    (hnumbers : ∀ n ∈ v.numbers, n.ReadsBack) : ∃ c cs, v.text.toList = c :: cs ∧ Starts c := by
  cases v with
  | null => exact ⟨'n', _, rfl, rfl, by decide⟩
  | bool b =>
    cases b with
    | true => exact ⟨'t', _, rfl, rfl, by decide⟩
    | false => exact ⟨'f', _, rfl, rfl, by decide⟩
  | num n =>
    have hn : n.ReadsBack := hnumbers n (by simp [numbers])
    obtain ⟨c, cs, htext, hc⟩ := scalar?_eq_num hn
    exact ⟨c, cs, by simpa [text] using htext, (starts_of_digit hc).1⟩
  | str s => exact ⟨'"', _, by simpa [text] using toList_quoted s, rfl, by decide⟩
  | arr vs =>
    cases vs with
    | nil => exact ⟨'[', _, rfl, rfl, by decide⟩
    | cons v vs =>
      exact ⟨'[', v.text.toList ++ ((textItems vs).toList ++ [']']), by simp [text],
        rfl, by decide⟩
  | obj ms =>
    cases ms with
    | nil => exact ⟨'{', _, rfl, rfl, by decide⟩
    | cons m ms =>
      refine ⟨'{', (quoted m.1).toList ++ ':' ::
        (m.2.text.toList ++ ((textMembers ms).toList ++ ['}'])), ?_, rfl,
        by decide⟩
      simp [text]
  | unread => cases hlegible
  | broken => cases hlegible

/-- The text of a document is read as that document in front of what may follow it, and a
character of fuel for each of its own suffices. -/
def ReadsBack (v : Json) : Prop :=
  ∀ fuel room rest, v.text.toList.length ≤ fuel → v.depth ≤ room → Follows rest →
    value fuel room (v.text.toList ++ rest) = (v, some rest)

/-! ### Values that are no containers -/

theorem readsBack_of_scalar? {v : Json} {c : Char} {cs : List Char}
    (htext : v.text.toList = c :: cs) (hblank : isBlank c = false) (hc : c ≠ '[' ∧ c ≠ '{')
    (h : ∀ rest, Follows rest → scalar? (c :: cs ++ rest) = some (v, rest)) : v.ReadsBack := by
  intro fuel room rest hfuel _ hrest
  obtain ⟨fuel, rfl⟩ : ∃ f, fuel = f + 1 := by
    rw [htext, List.length_cons] at hfuel
    exact ⟨fuel - 1, by omega⟩
  have hstart : dropBlanks (c :: cs ++ rest) = c :: cs ++ rest :=
    dropBlanks_cons hblank (cs ++ rest)
  have hbracket {d : Char} (hd : c ≠ d) (tail : List Char) :
      dropBlanks (c :: cs ++ rest) ≠ d :: tail := by
    rw [hstart]
    exact fun heq => hd (List.cons.inj heq).1
  rw [htext, value]
  · rw [hstart, h rest hrest]
  · exact fun tail heq _ => hbracket hc.1 tail heq
  · exact fun tail heq _ => hbracket hc.2 tail heq
  · exact fun tail _ heq _ => hbracket hc.1 tail heq
  · exact fun tail _ heq _ => hbracket hc.2 tail heq

theorem readsBack_num {n : Number} (h : n.ReadsBack) : (num n).ReadsBack := by
  obtain ⟨c, cs, htext, hc⟩ := scalar?_eq_num h
  have hword : (num n).text.toList = c :: cs := by simpa [text] using htext
  refine readsBack_of_scalar? hword (starts_of_digit hc).1.1 (starts_of_digit hc).2
    fun rest hrest => ?_
  rw [← htext]
  exact h.append hrest

theorem readsBack_str (s : String) : (str s).ReadsBack := by
  have htext : (str s).text.toList = '"' :: (s.toList.flatMap escaped ++ ['"']) := by
    simpa [text] using toList_quoted s
  refine readsBack_of_scalar? htext rfl (by decide) fun rest _ => ?_
  rw [List.cons_append, List.append_assoc, List.singleton_append]
  change (string? _).map _ = _
  rw [string?_escaped]
  rfl

theorem readsBack_null : null.ReadsBack := by
  have htext : null.text.toList = 'n' :: ['u', 'l', 'l'] := rfl
  exact readsBack_of_scalar? htext rfl (by decide) fun _ _ => rfl

theorem readsBack_bool (b : Bool) : (bool b).ReadsBack := by
  cases b with
  | true =>
    have htext : (bool true).text.toList = 't' :: ['r', 'u', 'e'] := rfl
    exact readsBack_of_scalar? htext rfl (by decide) fun _ _ => rfl
  | false =>
    have htext : (bool false).text.toList = 'f' :: ['a', 'l', 's', 'e'] := rfl
    exact readsBack_of_scalar? htext rfl (by decide) fun _ _ => rfl

/-! ### Containers -/

theorem items_close {fuel room : Nat} {cs rest : List Char} {v : Json}
    (h : value fuel room cs = (v, some (']' :: rest))) :
    items (fuel + 1) room cs = ([v], some rest) := by
  rw [items, h]
  rfl

theorem items_comma {fuel room : Nat} {cs rest : List Char} {v : Json}
    (h : value fuel room cs = (v, some (',' :: rest))) :
    items (fuel + 1) room cs = (v :: (items fuel room rest).1, (items fuel room rest).2) := by
  rw [items, h]
  rfl

theorem members_close {fuel room : Nat} {k : String} {cs rest : List Char} {v : Json}
    (h : value fuel room cs = (v, some ('}' :: rest))) :
    members (fuel + 1) room ((quoted k).toList ++ ':' :: cs) =
      (⟨[(k, v)], true⟩, some rest) := by
  rw [toList_quoted, List.cons_append, List.append_assoc, List.singleton_append, members,
    dropBlanks_cons rfl]
  simp only [string?_escaped, dropBlanks_cons (show isBlank ':' = false from rfl), h,
    dropBlanks_cons (show isBlank '}' = false from rfl)]
  rfl

theorem members_comma {fuel room : Nat} {k : String} {cs rest : List Char} {v : Json}
    (h : value fuel room cs = (v, some (',' :: rest))) :
    members (fuel + 1) room ((quoted k).toList ++ ':' :: cs) =
      (⟨(k, v) :: (members fuel room rest).1.list, (members fuel room rest).1.named⟩,
        (members fuel room rest).2) := by
  rw [toList_quoted, List.cons_append, List.append_assoc, List.singleton_append, members,
    dropBlanks_cons rfl]
  simp only [string?_escaped, dropBlanks_cons (show isBlank ':' = false from rfl), h,
    dropBlanks_cons (show isBlank ',' = false from rfl)]
  rfl

/-- The items of an array are read up to its end. -/
theorem items_text {v : Json} {vs : List Json} (hv : v.ReadsBack) (hvs : ∀ w ∈ vs, w.ReadsBack)
    (fuel room : Nat) (hfuel : v.text.toList.length + (textItems vs).toList.length < fuel)
    (hdepth : depthOfItems (v :: vs) ≤ room) (rest : List Char) :
    items fuel room (v.text.toList ++ ((textItems vs).toList ++ ']' :: rest)) =
      (v :: vs, some rest) := by
  induction vs generalizing v fuel with
  | nil =>
    obtain ⟨fuel, rfl⟩ : ∃ f, fuel = f + 1 := ⟨fuel - 1, by omega⟩
    rw [depthOfItems, Nat.max_le] at hdepth
    exact items_close (hv fuel room _ (by omega) hdepth.1 (follows_cons rest (.inr (.inl rfl))))
  | cons w ws ih =>
    obtain ⟨fuel, rfl⟩ : ∃ f, fuel = f + 1 := ⟨fuel - 1, by omega⟩
    rw [depthOfItems, Nat.max_le] at hdepth
    have htext : (textItems (w :: ws)).toList =
        ',' :: (w.text.toList ++ (textItems ws).toList) := by
      simp [textItems]
    rw [htext] at hfuel ⊢
    rw [List.length_cons, List.length_append] at hfuel
    have hrest := ih (hvs w List.mem_cons_self)
      (fun u hu => hvs u (List.mem_cons_of_mem w hu)) fuel
      (by omega) hdepth.2
    rw [List.cons_append, List.append_assoc,
      items_comma (hv fuel room _ (by omega) hdepth.1 (follows_cons _ (.inl rfl))), hrest]

/-- The members of an object are read up to its end. -/
theorem members_text {k : String} {v : Json} {ms : List (String × Json)} (hv : v.ReadsBack)
    (hms : ∀ m ∈ ms, m.2.ReadsBack) (fuel room : Nat)
    (hfuel : v.text.toList.length + (textMembers ms).toList.length < fuel)
    (hdepth : depthOfMembers ((k, v) :: ms) ≤ room) (rest : List Char) :
    members fuel room
        ((quoted k).toList ++ ':' ::
          (v.text.toList ++ ((textMembers ms).toList ++ '}' :: rest))) =
      (⟨(k, v) :: ms, true⟩, some rest) := by
  induction ms generalizing k v fuel with
  | nil =>
    obtain ⟨fuel, rfl⟩ : ∃ f, fuel = f + 1 := ⟨fuel - 1, by omega⟩
    rw [depthOfMembers, Nat.max_le] at hdepth
    exact members_close
      (hv fuel room _ (by omega) hdepth.1 (follows_cons rest (.inr (.inr rfl))))
  | cons m ms ih =>
    obtain ⟨j, w⟩ := m
    obtain ⟨fuel, rfl⟩ : ∃ f, fuel = f + 1 := ⟨fuel - 1, by omega⟩
    rw [depthOfMembers, Nat.max_le] at hdepth
    have htext : (textMembers ((j, w) :: ms)).toList =
        ',' :: ((quoted j).toList ++ ':' :: (w.text.toList ++ (textMembers ms).toList)) := by
      simp [textMembers]
    rw [htext] at hfuel ⊢
    simp only [List.length_cons, List.length_append] at hfuel
    have hw : w.ReadsBack := hms (j, w) List.mem_cons_self
    have hrest := ih hw (fun u hu => hms u (List.mem_cons_of_mem _ hu)) fuel (by omega) hdepth.2
    rw [List.cons_append, List.append_assoc, List.cons_append, List.append_assoc,
      members_comma (hv fuel room _ (by omega) hdepth.1 (follows_cons _ (.inl rfl))), hrest]

theorem value_arr {fuel room : Nat} {c : Char} {cs : List Char} (hc : Starts c) :
    value (fuel + 1) (room + 1) ('[' :: c :: cs) =
      (arr (items fuel room (c :: cs)).1, (items fuel room (c :: cs)).2) := by
  have hbracket := dropBlanks_cons (show isBlank '[' = false from rfl) (c :: cs)
  unfold value
  simp only [hbracket, dropBlanks_cons hc.1]
  split
  · exact absurd (List.cons.inj ‹_›).1 hc.2
  · rfl

theorem value_obj {fuel room : Nat} {cs rest : List Char} {ms : List (String × Json)}
    (h : members fuel room ('"' :: cs) = (⟨ms, true⟩, some rest)) :
    value (fuel + 1) (room + 1) ('{' :: '"' :: cs) = (obj ms, some rest) := by
  have hbracket := dropBlanks_cons (show isBlank '{' = false from rfl) ('"' :: cs)
  unfold value
  simp only [hbracket, dropBlanks_cons (show isBlank '"' = false from rfl)]
  split
  · exact absurd (List.cons.inj ‹_›).1 (by decide)
  · rw [h]
    rfl

/-- An array is read back if its items are. -/
theorem readsBack_arr {vs : List Json}
    (hstarts : ∀ v ∈ vs, ∃ c cs, v.text.toList = c :: cs ∧ Starts c)
    (hitems : ∀ v ∈ vs, v.ReadsBack) : (arr vs).ReadsBack := by
  intro fuel room rest hfuel hdepth _
  obtain ⟨room, rfl⟩ : ∃ r, room = r + 1 := ⟨room - 1, by rw [depth] at hdepth; omega⟩
  rw [depth, Nat.add_le_add_iff_right] at hdepth
  cases vs with
  | nil =>
    obtain ⟨fuel, rfl⟩ : ∃ f, fuel = f + 1 := ⟨fuel - 1, by simp [text] at hfuel; omega⟩
    rfl
  | cons v vs =>
    have htext : (arr (v :: vs)).text.toList =
        '[' :: (v.text.toList ++ ((textItems vs).toList ++ [']'])) := by
      simp [text]
    obtain ⟨c, cs, hstart, hc⟩ := hstarts v List.mem_cons_self
    rw [htext] at hfuel ⊢
    simp only [List.length_cons, List.length_append, List.length_nil] at hfuel
    obtain ⟨fuel, rfl⟩ : ∃ f, fuel = f + 1 := ⟨fuel - 1, by omega⟩
    have hrest := fun w hw => hitems w (List.mem_cons_of_mem v hw)
    have hread := items_text (hitems v List.mem_cons_self) hrest fuel room
      (by omega) hdepth rest
    rw [hstart, List.cons_append] at hread
    simp only [List.cons_append, List.append_assoc, hstart, List.nil_append]
    rw [value_arr hc, hread]

/-- An object is read back if the values of its members are. -/
theorem readsBack_obj {ms : List (String × Json)} (hmembers : ∀ m ∈ ms, m.2.ReadsBack) :
    (obj ms).ReadsBack := by
  intro fuel room rest hfuel hdepth _
  obtain ⟨room, rfl⟩ : ∃ r, room = r + 1 := ⟨room - 1, by rw [depth] at hdepth; omega⟩
  rw [depth, Nat.add_le_add_iff_right] at hdepth
  cases ms with
  | nil =>
    obtain ⟨fuel, rfl⟩ : ∃ f, fuel = f + 1 := ⟨fuel - 1, by simp [text] at hfuel; omega⟩
    rfl
  | cons m ms =>
    obtain ⟨k, v⟩ := m
    have htext : (obj ((k, v) :: ms)).text.toList =
        '{' :: ((quoted k).toList ++ ':' ::
          (v.text.toList ++ ((textMembers ms).toList ++ ['}']))) := by
      simp [text]
    rw [htext] at hfuel ⊢
    simp only [List.length_cons, List.length_append, List.length_nil] at hfuel
    obtain ⟨fuel, rfl⟩ : ∃ f, fuel = f + 1 := ⟨fuel - 1, by omega⟩
    have hv : v.ReadsBack := hmembers (k, v) List.mem_cons_self
    have hrest := fun m hm => hmembers m (List.mem_cons_of_mem _ hm)
    have hread := members_text hv hrest fuel room (by omega) hdepth rest
    rw [toList_quoted, List.cons_append] at hread
    simp only [List.cons_append, List.append_assoc, toList_quoted, List.nil_append] at hread ⊢
    exact value_obj hread

/-- A document without unread parts is read back if its numbers are. -/
theorem readsBack {v : Json} (hlegible : v.legible = true)
    (hnumbers : ∀ n ∈ v.numbers, n.ReadsBack) : v.ReadsBack := by
  induction v using byParts with
  | null => exact readsBack_null
  | bool b => exact readsBack_bool b
  | num n => exact readsBack_num (hnumbers n (by simp [numbers]))
  | str s => exact readsBack_str s
  | arr vs ih =>
    have hlegible := legibleItems_iff.mp hlegible
    have hnumbers : ∀ v ∈ vs, ∀ n ∈ v.numbers, n.ReadsBack := fun v hv n hn =>
      hnumbers n (mem_numbersOfItems.mpr ⟨v, hv, hn⟩)
    exact readsBack_arr (fun v hv => text_starts (hlegible v hv) (hnumbers v hv))
      fun v hv => ih v hv (hlegible v hv) (hnumbers v hv)
  | obj ms ih =>
    have hlegible := legibleMembers_iff.mp hlegible
    have hnumbers : ∀ m ∈ ms, ∀ n ∈ m.2.numbers, n.ReadsBack := fun m hm n hn =>
      hnumbers n (mem_numbersOfMembers.mpr ⟨m, hm, hn⟩)
    exact readsBack_obj fun m hm => ih m hm (hlegible m hm) (hnumbers m hm)
  | unread => cases hlegible
  | broken => cases hlegible

/-- A document without unread parts that is not too deep is what is read from its text. -/
theorem read_text {v : Json} (hlegible : v.legible = true)
    (hnumbers : ∀ n ∈ v.numbers, n.ReadsBack) (hdepth : v.depth ≤ maxDepth) :
    read v.text = ⟨v, true⟩ := by
  have hread := readsBack hlegible hnumbers (2 * v.text.toList.length + 4) maxDepth []
    (by omega) hdepth follows_nil
  rw [List.append_nil] at hread
  unfold read
  simp only [hread]
  rfl

/-! ## Section 3 — documents that were read -/

/-- Every number of the document can have been read. -/
def Sound (v : Json) : Prop := ∀ n ∈ v.numbers, n.Sound

theorem sound_of_numbers_nil {v : Json} (h : v.numbers = []) : v.Sound := by
  intro n hn
  rw [h] at hn
  cases hn

theorem sound_arr_iff {vs : List Json} : (arr vs).Sound ↔ ∀ v ∈ vs, v.Sound := by
  constructor
  · exact fun h v hv n hn => h n (mem_numbersOfItems.mpr ⟨v, hv, hn⟩)
  · intro h n hn
    obtain ⟨v, hv, hn⟩ := mem_numbersOfItems.mp hn
    exact h v hv n hn

theorem sound_obj_iff {ms : List (String × Json)} : (obj ms).Sound ↔ ∀ m ∈ ms, m.2.Sound := by
  constructor
  · exact fun h m hm n hn => h n (mem_numbersOfMembers.mpr ⟨m, hm, hn⟩)
  · intro h n hn
    obtain ⟨m, hm, hn⟩ := mem_numbersOfMembers.mp hn
    exact h m hm n hn

theorem scalar?_sound {cs rest : List Char} {v : Json} (h : scalar? cs = some (v, rest)) :
    v.Sound := by
  unfold scalar? at h
  split at h
  · obtain ⟨⟨text, _⟩, -, heq⟩ := Option.map_eq_some_iff.mp h
    cases text with
    | none =>
      cases heq
      exact sound_of_numbers_nil rfl
    | some s =>
      cases heq
      exact sound_of_numbers_nil rfl
  · split at h
    · obtain ⟨⟨s, _⟩, -, heq⟩ := Option.map_eq_some_iff.mp h
      dsimp only at heq
      cases hnumber : s.number? with
      | none =>
        rw [hnumber] at heq
        cases heq
        exact sound_of_numbers_nil rfl
      | some n =>
        rw [hnumber] at heq
        cases heq
        intro m hm
        obtain rfl := List.mem_singleton.mp hm
        exact number?_sound hnumber
    · unfold word? at h
      split at h
      all_goals
        cases h
        try exact sound_of_numbers_nil rfl
  · cases h

theorem passedOver_sound {past rest : Option (List Char)} {v : Json}
    (h : passedOver past = (v, rest)) : v.Sound := by
  cases past with
  | none =>
    cases h
    exact sound_of_numbers_nil rfl
  | some after =>
    cases h
    exact sound_of_numbers_nil rfl

theorem sound_cons_item {v : Json} {vs : List Json} (hv : v.Sound) (hvs : (arr vs).Sound) :
    (arr (v :: vs)).Sound :=
  sound_arr_iff.mpr (List.forall_mem_cons.mpr ⟨hv, sound_arr_iff.mp hvs⟩)

theorem sound_cons_member {k : String} {v : Json} {ms : List (String × Json)} (hv : v.Sound)
    (hms : (obj ms).Sound) : (obj ((k, v) :: ms)).Sound :=
  sound_obj_iff.mpr (List.forall_mem_cons.mpr ⟨hv, sound_obj_iff.mp hms⟩)

/-- What the three readers give with so much fuel is sound. -/
structure SoundWith (fuel : Nat) : Prop where
  value {room : Nat} {cs : List Char} {v : Json} {rest : Option (List Char)}
    (h : value fuel room cs = (v, rest)) :
    v.Sound
  items {room : Nat} {cs : List Char} {vs : List Json} {rest : Option (List Char)}
    (h : items fuel room cs = (vs, rest)) : (arr vs).Sound
  members {room : Nat} {cs : List Char} {ms : Members} {rest : Option (List Char)}
    (h : members fuel room cs = (ms, rest)) : (obj ms.list).Sound

theorem sound_nil_items : (arr []).Sound := sound_of_numbers_nil rfl

theorem sound_nil_members : (obj []).Sound := sound_of_numbers_nil rfl

theorem sound_broken : Json.broken.Sound := sound_of_numbers_nil rfl

theorem sound_broken_member (k : String) : (obj [(k, .broken)]).Sound :=
  sound_cons_member sound_broken sound_nil_members

namespace SoundWith

variable {fuel room : Nat} {cs : List Char} {rest : Option (List Char)}

theorem value_succ (ih : SoundWith fuel) {v : Json}
    (h : Json.value (fuel + 1) room cs = (v, rest)) : v.Sound := by
  unfold Json.value at h
  split at h
  · exact passedOver_sound h
  · exact passedOver_sound h
  · split at h
    · cases h
      exact sound_nil_items
    · cases h
      exact ih.items rfl
  · split at h
    · cases h
      exact sound_nil_members
    · split at h
      · rename_i hread
        obtain ⟨rfl, -⟩ := Prod.mk.inj h
        split
        · exact ih.members hread
        · exact sound_of_numbers_nil rfl
      · rename_i hread
        cases h
        exact ih.members hread
  · split at h
    · cases h
      exact scalar?_sound ‹_›
    · cases h
      exact sound_broken

theorem items_succ (ih : SoundWith fuel) {vs : List Json}
    (h : Json.items (fuel + 1) room cs = (vs, rest)) : (arr vs).Sound := by
  unfold Json.items at h
  split at h
  · cases h
    exact sound_cons_item (ih.value ‹_›) sound_nil_items
  · have hfirst := ih.value ‹_›
    split at h
    · cases h
      exact sound_cons_item hfirst (ih.items rfl)
    · cases h
      exact sound_cons_item hfirst sound_nil_items
    · cases h
      exact sound_cons_item hfirst (sound_cons_item sound_broken sound_nil_items)

theorem members_succ (ih : SoundWith fuel) {ms : Members}
    (h : Json.members (fuel + 1) room cs = (ms, rest)) : (obj ms.list).Sound := by
  unfold Json.members at h
  split at h
  · split at h
    · cases h
      exact sound_broken_member ""
    · dsimp only at h
      split at h
      · split at h
        · cases h
          exact sound_cons_member (ih.value ‹_›) sound_nil_members
        · have hfirst := ih.value ‹_›
          split at h
          · cases h
            exact sound_cons_member hfirst (ih.members rfl)
          · cases h
            exact sound_cons_member hfirst sound_nil_members
          · cases h
            exact sound_cons_member hfirst (sound_broken_member "")
      · cases h
        exact sound_broken_member _
  · cases h
    exact sound_broken_member ""

end SoundWith

theorem soundWith (fuel : Nat) : SoundWith fuel := by
  induction fuel with
  | zero =>
    refine ⟨fun h => ?_, fun h => ?_, fun h => ?_⟩
    · cases h
      exact sound_broken
    · cases h
      exact sound_cons_item sound_broken sound_nil_items
    · cases h
      exact sound_broken_member ""
  | succ fuel ih => exact ⟨ih.value_succ, ih.items_succ, ih.members_succ⟩

/-- Whatever a text is, only integers of 64 bits and finite values are read from it. -/
theorem read_sound (text : String) : (read text).root.Sound := by
  unfold read
  dsimp only
  split
  · exact (soundWith _).value ‹_›
  · exact (soundWith _).value ‹_›

end HouseBoard.Json
