/-
HouseBoard.Proofs.Wording — the words for a number of seconds.

A wording gives counts of units, each with the letter of its unit.  Section 1 says which
wordings a number has and how they are read, without a division by any unit.  Section 2 is about
words: a count and a unit are written in one way, and read from nothing else.  Section 3 divides
a number by the units: without the zeros in front, the counts are the only ones that a wording
of it can give.  Section 4 puts these together: a number has one wording, and is humanized as
that.
-/
import Mathlib.Data.List.Forall2
import HouseBoard.Liveness
import HouseBoard.Proofs.Digits

namespace HouseBoard

/-! ## Section 1 — wordings -/

/-- The units in which durations are given. -/
inductive TimeUnit where
  | day
  | hour
  | minute
  | second
  deriving DecidableEq, Repr

namespace TimeUnit

/-- All units, the largest first. -/
def all : List TimeUnit := [.day, .hour, .minute, .second]

/-- The letter that stands for a unit. -/
def letter : TimeUnit → Char
  | .day => 'j'
  | .hour => 'h'
  | .minute => 'm'
  | .second => 's'

/-- The number of seconds in a unit. -/
def seconds : TimeUnit → Nat
  | .day => 86400
  | .hour => 3600
  | .minute => 60
  | .second => 1

/-- How many of a unit make one of the next larger unit.  None is larger than a day. -/
def limit? : TimeUnit → Option Nat
  | .day => none
  | .hour => some 24
  | .minute => some 60
  | .second => some 60

theorem pos_of_mem_limit? (u : TimeUnit) {limit : Nat} (h : limit ∈ u.limit?) : 0 < limit := by
  cases u with
  | day => cases h
  | _ =>
    cases h
    decide

/-- The unit for which a letter stands. -/
def ofChars? (cs : List Char) : Option TimeUnit := all.find? fun u => [u.letter] = cs

end TimeUnit

/-- A count of a unit. -/
structure Amount where
  count : Nat
  unit : TimeUnit
  deriving DecidableEq, Repr

namespace Amount

/-- The number of seconds that amounts make up together. -/
def total (as : List Amount) : Nat := (as.map fun a => a.count * a.unit.seconds).sum

/-- Amounts as a wording gives them: of the last few units, down to seconds, each less than one
of the next larger unit.  The first one is not zero, unless it is that of the seconds. -/
structure Canonical (as : List Amount) : Prop where
  ne_nil : as ≠ []
  units : as.map unit <:+ TimeUnit.all
  count_lt : ∀ a ∈ as, ∀ limit ∈ a.unit.limit?, a.count < limit
  head_ne_zero : ∀ a ∈ as.head?, a.count = 0 → a.unit = .second

theorem canonical_iff {as : List Amount} :
    Canonical as ↔ as ≠ [] ∧ as.map unit <:+ TimeUnit.all ∧
      (∀ a ∈ as, ∀ limit ∈ a.unit.limit?, a.count < limit) ∧
      ∀ a ∈ as.head?, a.count = 0 → a.unit = .second :=
  ⟨fun h => ⟨h.ne_nil, h.units, h.count_lt, h.head_ne_zero⟩,
    fun ⟨hne, hunits, hlt, hhead⟩ => ⟨hne, hunits, hlt, hhead⟩⟩

instance (as : List Amount) : Decidable (Canonical as) := decidable_of_iff' _ canonical_iff

/-- A word gives an amount: the digits of the count, without a zero in front of others, and the
letter of the unit. -/
def Spelled (a : Amount) (word : String) : Prop :=
  ∃ digits : String, Digits.Numeral digits a.count ∧
    (digits.toList.head? = some '0' → digits = "0") ∧
    word = digits.push a.unit.letter

/-- Reads the word for an amount. -/
def read? (word : List Char) : Option Amount :=
  let digits := word.takeWhile Char.isDigit
  if digits.head? = some '0' ∧ digits ≠ ['0'] then none
  else
    (Digits.read? 10 digits).bind fun count =>
      (TimeUnit.ofChars? (word.dropWhile Char.isDigit)).map fun unit => ⟨count, unit⟩

end Amount

/-- A text is a wording of a number of seconds if its words, with a space between any two, give
amounts as a wording gives them, and these make up the number. -/
def Wording (text : String) (n : Nat) : Prop :=
  ∃ amounts words, Amount.Canonical amounts ∧ List.Forall₂ Amount.Spelled amounts words ∧
    text = " ".intercalate words ∧ Amount.total amounts = n

/-- Reads the wording of a number of seconds. -/
def secondsOf? (text : String) : Option Nat :=
  ((text.toList.splitOn ' ').mapM Amount.read?).bind fun amounts =>
    if Amount.Canonical amounts then some (Amount.total amounts) else none

/-! ## Section 2 — words -/

namespace TimeUnit

theorem ofChars?_eq_some_iff {cs : List Char} {u : TimeUnit} :
    ofChars? cs = some u ↔ cs = [u.letter] := by
  constructor
  · intro h
    rw [ofChars?] at h
    have hletter := List.find?_some h
    exact (of_decide_eq_true hletter).symm
  · rintro rfl
    cases u with
    | _ => rfl

theorem isDigit_letter (u : TimeUnit) : u.letter.isDigit = false := by
  cases u with
  | _ => rfl

theorem letter_ne_space (u : TimeUnit) : u.letter ≠ ' ' := by
  cases u with
  | _ => decide

end TimeUnit

namespace Amount

/-- The word for an amount. -/
def word (a : Amount) : String := (Digits.text a.count).push a.unit.letter

theorem toList_word (a : Amount) :
    a.word.toList = Digits.decimal a.count ++ [a.unit.letter] := by
  rw [word, String.toList_push, Digits.text, String.toList_ofList]

theorem space_not_mem_word (a : Amount) : ' ' ∉ a.word.toList := by
  rw [toList_word, List.mem_append, List.mem_singleton]
  rintro (hdigit | hletter)
  · exact absurd (Digits.isDigit_of_mem_decimal hdigit) (by decide)
  · exact a.unit.letter_ne_space hletter.symm

/-- An amount is given by one word. -/
theorem spelled_iff {a : Amount} {w : String} : a.Spelled w ↔ w = a.word := by
  constructor
  · rintro ⟨digits, hnumeral, hhead, rfl⟩
    rw [word, Digits.numeral_and_iff_eq_text.mp ⟨hnumeral, hhead⟩]
  · rintro rfl
    obtain ⟨hnumeral, hhead⟩ :=
      Digits.numeral_and_iff_eq_text.mpr (rfl : Digits.text a.count = _)
    exact ⟨_, hnumeral, hhead, rfl⟩

theorem forall₂_spelled_iff {as : List Amount} {words : List String} :
    List.Forall₂ Spelled as words ↔ words = as.map word := by
  have hspelled : Spelled = fun a w => a.word = w := by
    funext a w
    exact propext (spelled_iff.trans eq_comm)
  have hmap : List.Forall₂ (fun a w => word a = w) as words ↔
      List.Forall₂ (· = ·) (as.map word) words :=
    List.forall₂_map_left_iff.symm
  rw [hspelled, hmap, List.forall₂_eq_eq_eq, eq_comm]

/-- A word is read as the amount that it gives, and anything else is refused. -/
theorem read?_eq_some_iff {w : String} {a : Amount} :
    read? w.toList = some a ↔ a.Spelled w := by
  constructor
  · intro h
    dsimp only [read?] at h
    split at h
    · cases h
    · rename_i hhead
      obtain ⟨count, hcount, hrest⟩ := Option.bind_eq_some_iff.mp h
      obtain ⟨unit, hunit, rfl⟩ := Option.map_eq_some_iff.mp hrest
      refine ⟨String.ofList (w.toList.takeWhile Char.isDigit), ?_, ?_, ?_⟩
      · rwa [← Digits.read?_ten_eq_some_iff, String.toList_ofList]
      · rw [String.toList_ofList]
        intro hzero
        by_contra hne
        refine hhead ⟨hzero, fun hdigits => hne ?_⟩
        rw [hdigits]
      · rw [← String.toList_inj, String.toList_push,
          String.toList_ofList, ← TimeUnit.ofChars?_eq_some_iff.mp hunit,
          List.takeWhile_append_dropWhile]
  · rintro ⟨digits, hnumeral, hhead, rfl⟩
    obtain ⟨htake, hdrop⟩ := Digits.takeWhile_isDigit_append digits.toList [a.unit.letter]
        hnumeral.digits fun c hc => by
      cases hc
      exact a.unit.isDigit_letter
    have hzero : ¬ (digits.toList.head? = some '0' ∧ digits.toList ≠ ['0']) := by
      rintro ⟨hzero, hne⟩
      rw [hhead hzero] at hne
      exact hne rfl
    simp only [read?, String.toList_push, htake, hdrop, if_neg hzero,
      Digits.read?_ten_eq_some_iff.mpr hnumeral, TimeUnit.ofChars?_eq_some_iff.mpr rfl,
      Option.bind_some, Option.map_some]

theorem mapM_read?_eq_some_iff {words : List String} {as : List Amount} :
    (words.map String.toList).mapM read? = some as ↔ List.Forall₂ Spelled as words := by
  induction words generalizing as with
  | nil => simp [eq_comm]
  | cons w words ih =>
    rw [List.map_cons, List.mapM_cons, List.forall₂_cons_right_iff]
    simp only [Option.bind_eq_bind, Option.bind_eq_some_iff, read?_eq_some_iff, ih]
    constructor
    · rintro ⟨a, ha, as', has, hsome⟩
      exact ⟨a, as', ha, has, (Option.some.inj hsome).symm⟩
    · rintro ⟨a, as', ha, has, rfl⟩
      exact ⟨a, ha, as', has, rfl⟩

end Amount

/-- A text is read as a number exactly if it is a wording of it. -/
theorem secondsOf?_eq_some_iff {text : String} {n : Nat} :
    secondsOf? text = some n ↔ Wording text n := by
  constructor
  · intro h
    obtain ⟨amounts, hread, htotal⟩ := Option.bind_eq_some_iff.mp h
    split at htotal
    · rename_i hcanonical
      have hwords : text.toList.splitOn ' ' =
          ((text.toList.splitOn ' ').map String.ofList).map String.toList := by
        simp
      rw [hwords] at hread
      refine ⟨amounts, _, hcanonical, Amount.mapM_read?_eq_some_iff.mp hread, ?_,
        Option.some.inj htotal⟩
      rw [← String.toList_inj, String.toList_intercalate, ← hwords]
      exact (List.intercalate_splitOn ' ').symm
    · cases htotal
  · rintro ⟨amounts, words, hcanonical, hspelled, rfl, rfl⟩
    have hwords := Amount.forall₂_spelled_iff.mp hspelled
    have hspaces : ∀ w ∈ words.map String.toList, ' ' ∉ w := by
      simpa [hwords] using fun a _ => a.space_not_mem_word
    have hne : words.map String.toList ≠ [] := by
      simpa [hwords] using hcanonical.ne_nil
    have hsplit : (" ".intercalate words).toList.splitOn ' ' = words.map String.toList := by
      rw [String.toList_intercalate]
      exact List.splitOn_intercalate ' ' hspaces hne
    rw [secondsOf?, hsplit, Amount.mapM_read?_eq_some_iff.mpr hspelled, Option.bind_some,
      if_pos hcanonical]

/-! ## Section 3 — counts -/

namespace Amount

/-- A zero that a wording leaves out in front. -/
def Idle (a : Amount) : Prop := a.count = 0 ∧ a.unit ≠ .second

instance (a : Amount) : Decidable a.Idle := inferInstanceAs (Decidable (_ ∧ _))

/-- Amounts without the zeros in front. -/
def trim (as : List Amount) : List Amount := as.dropWhile fun a => a.Idle

/-- Zeros in front do not count. -/
theorem total_trim (as : List Amount) : total (trim as) = total as := by
  induction as with
  | nil => rfl
  | cons a as ih =>
    rw [trim, List.dropWhile_cons]
    split
    · rename_i hidle
      have hzero : a.count = 0 := (of_decide_eq_true hidle).1
      rw [← trim, ih, total, total, List.map_cons, List.sum_cons, hzero,
        Nat.zero_mul, Nat.zero_add]
    · rfl

/-- Canonical amounts are what is left when zeros are put in front of them. -/
theorem Canonical.trim_append {as : List Amount} (h : Canonical as) (zeros : List Amount)
    (hzeros : ∀ a ∈ zeros, a.Idle) : trim (zeros ++ as) = as := by
  rw [trim, List.dropWhile_append_of_pos fun a ha => decide_eq_true (hzeros a ha)]
  cases as with
  | nil => exact absurd rfl h.ne_nil
  | cons a as =>
    have hhead : ¬ a.Idle := fun hidle => hidle.2 (h.head_ne_zero a rfl hidle.1)
    rw [List.dropWhile_cons_of_neg (by simpa using hhead)]

/-- Counts of all units. -/
def full (days hours minutes seconds : Nat) : List Amount :=
  [⟨days, .day⟩, ⟨hours, .hour⟩, ⟨minutes, .minute⟩, ⟨seconds, .second⟩]

theorem total_full (days hours minutes seconds : Nat) :
    total (full days hours minutes seconds) =
      days * 86400 + hours * 3600 + minutes * 60 + seconds := by
  simp only [total, full, List.map_cons, List.map_nil, List.sum_cons, List.sum_nil,
    TimeUnit.seconds]
  omega

/-- Counts of all units below their limits are canonical without the zeros in front. -/
theorem canonical_trim_full (days : Nat) {hours minutes seconds : Nat} (hhours : hours < 24)
    (hminutes : minutes < 60) (hseconds : seconds < 60) :
    Canonical (trim (full days hours minutes seconds)) where
  ne_nil := by
    intro hnil
    have hidle := List.dropWhile_eq_nil_iff.mp hnil ⟨seconds, .second⟩ (by simp [full])
    exact (of_decide_eq_true hidle).2 rfl
  units := (List.dropWhile_suffix _).map unit
  count_lt := by
    intro a ha
    have hmem : a ∈ full days hours minutes seconds := (List.dropWhile_sublist _).mem ha
    simp only [full, List.mem_cons, List.not_mem_nil, or_false] at hmem
    rcases hmem with rfl | rfl | rfl | rfl
    · simp [TimeUnit.limit?]
    · simpa [TimeUnit.limit?] using hhours
    · simpa [TimeUnit.limit?] using hminutes
    · simpa [TimeUnit.limit?] using hseconds
  head_ne_zero := by
    intro a ha hzero
    have hhead := List.head?_dropWhile_not (fun a : Amount => decide a.Idle)
      (full days hours minutes seconds)
    rw [trim, Option.mem_def] at ha
    rw [ha] at hhead
    by_contra hunit
    exact of_decide_eq_false hhead ⟨hzero, hunit⟩

/-- Zeros can be put in front of canonical amounts up to days. -/
theorem Canonical.exists_zeros {as : List Amount} (h : Canonical as) :
    ∃ zeros : List Amount, (∀ a ∈ zeros, a.Idle) ∧ (zeros ++ as).map unit = TimeUnit.all := by
  obtain ⟨front, hfront⟩ := h.units
  refine ⟨front.map (⟨0, ·⟩), ?_, ?_⟩
  · rw [List.forall_mem_map]
    intro u hu
    -- the last unit is not in front, since there are amounts
    have hlast : u ∈ TimeUnit.all.dropLast := by
      rw [← hfront, List.dropLast_append_of_ne_nil (by simpa using h.ne_nil)]
      exact List.mem_append_left _ hu
    refine ⟨rfl, ?_⟩
    rintro rfl
    exact absurd hlast (by decide)
  · rw [List.map_append, List.map_map, ← hfront]
    congr 1
    exact List.map_id _

/-- Canonical amounts are counts of all units below their limits, without the zeros in front. -/
theorem Canonical.exists_full {as : List Amount} (h : Canonical as) :
    ∃ days hours minutes seconds, hours < 24 ∧ minutes < 60 ∧ seconds < 60 ∧
      as = trim (full days hours minutes seconds) := by
  obtain ⟨zeros, hidle, hunits⟩ := h.exists_zeros
  have hlt : ∀ a ∈ zeros ++ as, ∀ limit ∈ a.unit.limit?, a.count < limit := by
    intro a ha limit hlimit
    rcases List.mem_append.mp ha with ha | ha
    · rw [(hidle a ha).1]
      exact a.unit.pos_of_mem_limit? hlimit
    · exact h.count_lt a ha limit hlimit
  have htrim := h.trim_append zeros hidle
  generalize zeros ++ as = all at hunits hlt htrim
  simp only [TimeUnit.all, List.map_eq_cons_iff, List.map_eq_nil_iff] at hunits
  obtain ⟨⟨days, _⟩, _, rfl, rfl, ⟨hours, _⟩, _, rfl, rfl, ⟨minutes, _⟩, _, rfl, rfl,
      ⟨seconds, _⟩, _, rfl, rfl, rfl⟩ :=
    hunits
  exact ⟨days, hours, minutes, seconds, hlt ⟨hours, .hour⟩ (by simp) 24 rfl,
    hlt ⟨minutes, .minute⟩ (by simp) 60 rfl, hlt ⟨seconds, .second⟩
      (by simp) 60 rfl, htrim.symm⟩

/-- A number of seconds in units, without the zeros in front. -/
def ofSeconds (n : Nat) : List Amount :=
  trim (full (n / 86400) (n % 86400 / 3600) (n % 3600 / 60) (n % 60))

theorem canonical_ofSeconds (n : Nat) : Canonical (ofSeconds n) :=
  canonical_trim_full _ (by omega) (by omega) (by omega)

theorem total_ofSeconds (n : Nat) : total (ofSeconds n) = n := by
  rw [ofSeconds, total_trim, total_full]
  omega

/-- No other canonical amounts make up the same number. -/
theorem Canonical.eq_ofSeconds {as : List Amount} (h : Canonical as) :
    as = ofSeconds (total as) := by
  obtain ⟨days, hours, minutes, seconds, hhours, hminutes, hseconds, rfl⟩ := h.exists_full
  rw [total_trim, total_full, ofSeconds]
  congr 2
  · omega
  · omega
  · omega
  · omega

/-- A unit is given if it or a larger one has a count, and seconds always are. -/
theorem trim_full (days hours minutes seconds : Nat) :
    trim (full days hours minutes seconds) =
      (if 0 < days then [⟨days, .day⟩] else []) ++
      (if 0 < days ∨ 0 < hours then [⟨hours, .hour⟩] else [])
        ++ (if 0 < days ∨ 0 < hours ∨ 0 < minutes then [⟨minutes, .minute⟩] else []) ++
        [⟨seconds, .second⟩] := by
  rcases Nat.eq_zero_or_pos days with rfl | hdays
  · rcases Nat.eq_zero_or_pos hours with rfl | hhours
    · rcases Nat.eq_zero_or_pos minutes with rfl | hminutes
      · simp [trim, full, Idle]
      · simp [trim, full, Idle, hminutes, Nat.ne_of_gt hminutes]
    · simp [trim, full, Idle, hhours, Nat.ne_of_gt hhours]
  · simp [trim, full, Idle, hdays, Nat.ne_of_gt hdays]

end Amount

/-! ## Section 4 — humanized numbers -/

/-- A space follows each word but the last. -/
theorem Amount.toList_intercalate (as : List Amount) (last : Amount) :
    (" ".intercalate ((as ++ [last]).map word)).toList =
      (as.flatMap fun a => Digits.decimal a.count ++ [a.unit.letter, ' ']) ++
        (Digits.decimal last.count ++ [last.unit.letter]) := by
  induction as with
  | nil => simp [toList_word]
  | cons a as ih =>
    rw [List.cons_append, List.map_cons, String.intercalate_cons_of_ne_nil (by simp),
      String.toList_append, ih]
    simp [toList_word]

theorem humanize_eq (n : Nat) :
    humanize n = " ".intercalate ((Amount.ofSeconds n).map Amount.word) := by
  rw [← String.toList_inj, Amount.ofSeconds, Amount.trim_full, Amount.toList_intercalate]
  simp only [humanize, String.toList_ofList, List.flatMap_append, apply_ite (List.flatMap _),
    List.flatMap_singleton, List.flatMap_nil, TimeUnit.letter, List.append_assoc]

/-- A number is humanized as its wording, and has no other one. -/
theorem wording_iff {text : String} {n : Nat} : Wording text n ↔ text = humanize n := by
  rw [humanize_eq]
  constructor
  · rintro ⟨amounts, words, hcanonical, hspelled, rfl, rfl⟩
    rw [Amount.forall₂_spelled_iff.mp hspelled, ← hcanonical.eq_ofSeconds]
  · rintro rfl
    exact ⟨Amount.ofSeconds n, _, Amount.canonical_ofSeconds n,
      Amount.forall₂_spelled_iff.mpr rfl, rfl, Amount.total_ofSeconds n⟩

/-- A number of seconds is humanized as its only wording.  No two numbers are humanized alike,
and of all texts exactly this one is read as the number. -/
theorem humanize_canonical (n : Nat) :
    (∀ text, Wording text n ↔ text = humanize n) ∧ (∀ m, humanize m = humanize n ↔ m = n) ∧
      ∀ text, secondsOf? text = some n ↔ text = humanize n := by
  have hread (text : String) (m : Nat) : secondsOf? text = some m ↔ text = humanize m :=
    secondsOf?_eq_some_iff.trans wording_iff
  refine ⟨fun text => wording_iff, fun m => ⟨fun h => ?_, ?_⟩, fun text => hread text n⟩
  · have hm : secondsOf? (humanize m) = some m := (hread _ m).mpr rfl
    have hn : secondsOf? (humanize m) = some n := (hread _ n).mpr h
    exact Option.some.inj (hm.symm.trans hn)
  · rintro rfl
    rfl

example : secondsOf? "1j 0h 0m 5s" = some 86405 ∧ secondsOf? "0h 5m 0s" = none ∧
    secondsOf? "1h 5s" = none := by
  decide +kernel

end HouseBoard
