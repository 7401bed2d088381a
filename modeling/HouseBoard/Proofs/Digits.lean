/-
HouseBoard.Proofs.Digits — what is written in digits is read back.

Section 1 is about decimal numbers: a run of digits is read as its positional sum and as nothing
else, which is below the power of ten of its length, and the digits of a number give the number
again, with or without zeros in front.  Digits that have none in front are those of their
number.  Section 2 says the same of pairs of hexadecimal digits, of which colours and escaped
characters are made.  Section 3 says which texts are read as numbers at all.
-/
import Mathlib.Data.Bool.AllAny
import Mathlib.Data.List.Basic
import Mathlib.Data.List.Induction
import Mathlib.Data.List.TakeWhile
import Mathlib.Tactic.IntervalCases
import HouseBoard.Text.Digits

namespace HouseBoard.Digits

/-! ## Section 1 — decimal digits -/

/-- A decimal digit stands for a number below ten. -/
theorem toNat_sub_lt_ten {c : Char} (h : c.isDigit = true) : c.toNat - '0'.toNat < 10 := by
  have hhigh : c.toNat ≤ 57 := (Char.isDigit_iff_toNat.mp h).2
  change c.toNat - 48 < 10
  omega

theorem valueIn?_ten (c : Char) :
    valueIn? 10 c = if c.isDigit then some (c.toNat - '0'.toNat) else none := by
  unfold valueIn? value?
  by_cases hdigit : c.isDigit = true
  · rw [if_pos hdigit, if_pos hdigit, Option.filter_some,
      if_pos (decide_eq_true (toNat_sub_lt_ten hdigit))]
  · rw [if_neg hdigit, if_neg hdigit]
    -- a letter counts from ten on, so it is no digit of base ten
    split
    · simp
    · split
      · simp
      · rfl

/-- Digits extend a number as in the positional sum, and anything else refuses the whole run. -/
theorem extend?_ten (n : Nat) (cs : List Char) :
    extend? 10 n cs = if cs.all Char.isDigit then some (Nat.ofDigitChars 10 cs n)
      else none := by
  induction cs generalizing n with
  | nil => simp [extend?]
  | cons c cs ih =>
    rw [extend?, valueIn?_ten, Nat.ofDigitChars_cons]
    by_cases hdigit : c.isDigit = true
    · rw [if_pos hdigit, Option.bind_some, ih, Nat.mul_comm n 10]
      simp [hdigit]
    · simp [hdigit]

/-- A non-empty run of digits is read as its positional sum. -/
theorem read?_ten {cs : List Char} (hne : cs ≠ []) (hdigits : ∀ c ∈ cs, c.isDigit = true) :
    read? 10 cs = some (Nat.ofDigitChars 10 cs 0) := by
  cases cs with
  | nil => exact absurd rfl hne
  | cons c cs =>
    change extend? 10 0 (c :: cs) = _
    rw [extend?_ten, if_pos (List.all_eq_true.mpr hdigits)]

theorem isDigit_of_read? {cs : List Char} {n : Nat} (h : read? 10 cs = some n) :
    ∀ c ∈ cs, c.isDigit = true := by
  cases cs with
  | nil => cases h
  | cons c cs =>
    change extend? 10 0 (c :: cs) = _ at h
    rw [extend?_ten] at h
    by_contra hother
    rw [if_neg (mt List.all_eq_true.mp hother)] at h
    cases h

theorem ofDigitChars_lt {cs : List Char} (hdigits : ∀ c ∈ cs, c.isDigit = true) (n : Nat) :
    Nat.ofDigitChars 10 cs n < (n + 1) * 10 ^ cs.length := by
  induction cs generalizing n with
  | nil => simp
  | cons c cs ih =>
    have hdigit := toNat_sub_lt_ten (hdigits c List.mem_cons_self)
    rw [Nat.ofDigitChars_cons, List.length_cons, Nat.pow_succ']
    calc
      _ < (10 * n + (c.toNat - '0'.toNat) + 1) * 10 ^ cs.length :=
        ih (fun d hd => hdigits d (List.mem_cons_of_mem c hd)) _
      _ ≤ ((n + 1) * 10) * 10 ^ cs.length := Nat.mul_le_mul_right _ (by omega)
      _ = (n + 1) * (10 * 10 ^ cs.length) := Nat.mul_assoc _ _ _

/-- A number is below the power of ten of the number of its digits. -/
theorem read?_lt {cs : List Char} {n : Nat} (h : read? 10 cs = some n) :
    n < 10 ^ cs.length := by
  have hdigits := isDigit_of_read? h
  have hne : cs ≠ [] := by
    rintro rfl
    cases h
  rw [read?_ten hne hdigits, Option.some.injEq] at h
  simpa [h] using ofDigitChars_lt hdigits 0

/-- Digits before something else are split off. -/
theorem takeWhile_isDigit_append (ds rest : List Char) (hdigits : ∀ c ∈ ds, c.isDigit = true)
    (hrest : ∀ c ∈ rest.head?, c.isDigit = false) :
    (ds ++ rest).takeWhile Char.isDigit = ds ∧ (ds ++ rest).dropWhile Char.isDigit = rest := by
  rw [List.takeWhile_append_of_pos hdigits, List.dropWhile_append_of_pos hdigits]
  cases rest with
  | nil => simp
  | cons c rest => simp [hrest c rfl]

theorem isDigit_of_mem_decimal {n : Nat} {c : Char} (h : c ∈ decimal n) : c.isDigit = true :=
  Nat.isDigit_of_mem_toDigits (by decide) (by decide) h

theorem decimal_ne_nil (n : Nat) : decimal n ≠ [] := Nat.toDigits_ne_nil

theorem ofDigitChars_decimal (n : Nat) : Nat.ofDigitChars 10 (decimal n) 0 = n :=
  Nat.ofDigitChars_ten_toDigits

/-- Only zero is written with a zero in front. -/
theorem head?_decimal_ne {n : Nat} (h : 0 < n) : (decimal n).head? ≠ some '0' := by
  induction n using Nat.strongRecOn with
  | ind n ih =>
    unfold decimal
    by_cases hsmall : n < 10
    · rw [Nat.toDigits_of_lt_base hsmall]
      interval_cases n <;> decide
    · have hrest := ih (n / 10) (by omega) (by omega)
      rw [Nat.toDigits_of_base_le (by decide) (by omega),
        List.head?_append_of_ne_nil _ Nat.toDigits_ne_nil]
      exact hrest

theorem decimal_of_isDigit {c : Char} (h : c.isDigit = true) :
    decimal (c.toNat - '0'.toNat) = [c] := by
  obtain ⟨hlow, hhigh⟩ : 48 ≤ c.toNat ∧ c.toNat ≤ 57 := Char.isDigit_iff_toNat.mp h
  rw [← Char.ofNat_toNat c]
  generalize c.toNat = n at hlow hhigh
  interval_cases n
  all_goals decide

/-- Digits are those of the number that they make, unless there is a zero in front of others. -/
theorem decimal_ofDigitChars {ds : List Char} (hne : ds ≠ [])
    (hdigits : ∀ c ∈ ds, c.isDigit = true) (hhead : ds.head? = some '0' → ds = ['0']) :
    decimal (Nat.ofDigitChars 10 ds 0) = ds := by
  induction ds using List.reverseRecOn with
  | nil => exact absurd rfl hne
  | append_singleton ds c ih =>
    have hc := hdigits c (by simp)
    rw [Nat.ofDigitChars_append, Nat.ofDigitChars_cons, Nat.ofDigitChars_nil]
    by_cases hds : ds = []
    · subst hds
      rw [Nat.ofDigitChars_nil, Nat.mul_zero, Nat.zero_add, decimal_of_isDigit hc,
        List.nil_append]
    · have hfirst : ds.head? ≠ some '0' := by
        intro hzero
        rw [List.head?_append_of_ne_nil _ hds] at hhead
        simpa [hds] using congrArg List.length (hhead hzero)
      have hfront : decimal (Nat.ofDigitChars 10 ds 0) = ds :=
        ih hds (fun d hd => hdigits d (List.mem_append_left _ hd)) fun hzero =>
          absurd hzero hfirst
      have hpos : 0 < Nat.ofDigitChars 10 ds 0 := by
        refine Nat.pos_of_ne_zero fun hzero => hfirst ?_
        rw [← hfront, hzero]
        rfl
      have happend := Nat.toDigits_append_toDigits (by decide) hpos (toNat_sub_lt_ten hc)
      change decimal _ ++ decimal _ = decimal _ at happend
      rw [← happend, hfront, decimal_of_isDigit hc]

theorem isDigit_of_mem_padded {width n : Nat} {c : Char} (h : c ∈ padded width n) :
    c.isDigit = true := by
  rcases List.mem_append.mp h with h | h
  · obtain rfl := List.eq_of_mem_replicate h
    decide
  · exact isDigit_of_mem_decimal h

theorem ofDigitChars_padded (width n : Nat) : Nat.ofDigitChars 10 (padded width n) 0 = n := by
  rw [padded, Nat.ofDigitChars_append, Nat.ofDigitChars_replicate_zero, Nat.mul_zero,
    ofDigitChars_decimal]

theorem read?_padded (width n : Nat) : read? 10 (padded width n) = some n := by
  have hne : padded width n ≠ [] := List.append_ne_nil_of_right_ne_nil _ (decimal_ne_nil n)
  rw [read?_ten hne fun _ => isDigit_of_mem_padded, ofDigitChars_padded]

theorem read?_decimal (n : Nat) : read? 10 (decimal n) = some n := by
  simpa [padded] using read?_padded 0 n

/-- A number below a power of ten is padded to exactly that many digits. -/
theorem length_padded {width n : Nat} (hwidth : 0 < width) (h : n < 10 ^ width) :
    (padded width n).length = width := by
  have hlength : (decimal n).length ≤ width :=
    (Nat.length_toDigits_le_iff (by decide) hwidth).mpr h
  rw [padded, List.length_append, List.length_replicate]
  omega

/-! ## Section 2 — hexadecimal digits -/

theorem valueIn?_hexDigit {n : Nat} (h : n < 16) : valueIn? 16 (hexDigit n) = some n := by
  revert n
  decide

theorem extend?_hexPair {n : Nat} (h : n < 256) (m : Nat) (cs : List Char) :
    extend? 16 m (hexPair n ++ cs) = extend? 16 (m * 256 + n) cs := by
  simp only [hexPair, List.cons_append, List.nil_append, extend?, Option.bind_some,
    valueIn?_hexDigit (show n / 16 < 16 by omega),
    valueIn?_hexDigit (show n % 16 < 16 by omega)]
  congr 1
  omega

theorem extend?_hexQuad {n : Nat} (h : n < 65536) : extend? 16 0 (hexQuad n) = some n := by
  rw [hexQuad, extend?_hexPair (by omega), ← List.append_nil (hexPair (n % 256)),
    extend?_hexPair (by omega), extend?]
  congr 1
  omega

/-! ## Section 3 — which texts are numbers -/

/-- A number that may carry a plus sign is a number after one plus sign or none. -/
theorem readPlus?_eq_some_iff {base n : Nat} {cs : List Char} :
    readPlus? base cs = some n ↔ ∃ sign ds, (sign = [] ∨ sign = ['+']) ∧ cs = sign ++ ds ∧
    read? base ds = some n := by
  constructor
  · intro h
    unfold readPlus? at h
    split at h
    · exact ⟨['+'], _, .inr rfl, rfl, h⟩
    · exact ⟨[], _, .inl rfl, rfl, h⟩
  · rintro ⟨sign, ds, rfl | rfl, rfl, h⟩
    · unfold readPlus?
      split
      · -- a plus sign is no digit, so it does not begin a number
        cases h
      · exact h
    · exact h

theorem extend?_of_read? {base n : Nat} {cs : List Char} (h : read? base cs = some n) :
    extend? base 0 cs = some n := by
  cases cs with
  | nil => cases h
  | cons c cs => exact h

/-- A text is a number if it has decimal digits, which may begin with zeros, and
nothing else. -/
structure Numeral (text : String) (n : Nat) : Prop where
  nonempty : text.toList ≠ []
  digits : ∀ c ∈ text.toList, c.isDigit = true
  value : Nat.ofDigitChars 10 text.toList 0 = n

theorem read?_ten_eq_some_iff {text : String} {n : Nat} :
    read? 10 text.toList = some n ↔ Numeral text n := by
  constructor
  · intro h
    have hdigits := isDigit_of_read? h
    have hne : text.toList ≠ [] := by
      intro hnil
      rw [hnil] at h
      cases h
    rw [read?_ten hne hdigits, Option.some.injEq] at h
    exact ⟨hne, hdigits, h⟩
  · rintro ⟨hne, hdigits, hvalue⟩
    rw [read?_ten hne hdigits, hvalue]

theorem numeral_text (n : Nat) : Numeral (text n) n := by
  rw [← read?_ten_eq_some_iff, text, String.toList_ofList, read?_decimal]

/-- The text of a number is its only numeral without a zero in front of other digits. -/
theorem numeral_and_iff_eq_text {digits : String} {n : Nat} :
    Numeral digits n ∧ (digits.toList.head? = some '0' → digits = "0") ↔ digits = text n := by
  constructor
  · rintro ⟨⟨hne, hdigits, rfl⟩, hhead⟩
    rw [← String.toList_inj, text, String.toList_ofList, decimal_ofDigitChars hne hdigits]
    exact fun hzero => congrArg String.toList (hhead hzero)
  · rintro rfl
    refine ⟨numeral_text n, fun hzero => ?_⟩
    rw [text, String.toList_ofList] at hzero
    rcases Nat.eq_zero_or_pos n with rfl | hpos
    · rfl
    · exact absurd hzero (head?_decimal_ne hpos)

theorem readPlus?_ten_eq_some_iff {n : Nat} {cs : List Char} :
    readPlus? 10 cs = some n ↔
      ∃ sign digits : String, (sign = "" ∨ sign = "+") ∧ Numeral digits n ∧
      cs = (sign ++ digits).toList := by
  rw [readPlus?_eq_some_iff]
  constructor
  · rintro ⟨sign, ds, hsign, rfl, h⟩
    refine ⟨String.ofList sign, String.ofList ds, ?_, ?_, ?_⟩
    · rcases hsign with rfl | rfl
      · exact .inl rfl
      · exact .inr rfl
    · rwa [← read?_ten_eq_some_iff, String.toList_ofList]
    · rw [String.toList_append, String.toList_ofList, String.toList_ofList]
  · rintro ⟨sign, digits, hsign, hdigits, rfl⟩
    refine ⟨sign.toList, digits.toList, ?_, String.toList_append,
      read?_ten_eq_some_iff.mpr hdigits⟩
    rcases hsign with rfl | rfl
    · exact .inl rfl
    · exact .inr rfl

/-- The hexadecimal digits in either case. -/
def hexDigits : List Char := "0123456789abcdefABCDEF".toList

theorem mem_hexDigits_of_valueIn? {c : Char} {v : Nat} (h : valueIn? 16 c = some v) :
    c ∈ hexDigits := by
  obtain ⟨hvalue, hlt⟩ := Option.filter_eq_some_iff.mp h
  rw [decide_eq_true_eq] at hlt
  have hranges : (48 ≤ c.toNat ∧ c.toNat ≤ 57) ∨ (97 ≤ c.toNat ∧ c.toNat ≤ 102) ∨
      (65 ≤ c.toNat ∧ c.toNat ≤ 70) := by
    unfold value? at hvalue
    simp only [Char.isDigit, Char.le_def, UInt32.le_iff_toNat_le] at hvalue
    have hn : c.val.toNat = c.toNat := rfl
    grind
  rw [← Char.ofNat_toNat c]
  generalize c.toNat = n at hranges
  rcases hranges with ⟨hlow, hhigh⟩ | ⟨hlow, hhigh⟩ | ⟨hlow, hhigh⟩
  all_goals
    interval_cases n
    all_goals decide

/-- A hexadecimal digit is read as the number whose digit it is, in lower case. -/
theorem valueIn?_of_mem_hexDigits :
    ∀ c ∈ hexDigits, ∃ v, valueIn? 16 c = some v ∧ v < 16 ∧ hexDigit v = c.toLower := by
  -- decided along the list of the digits, since there are too many characters to go through
  rw [← List.all_iff_forall_prop]
  decide

theorem mem_hexDigits_of_extend? {n m : Nat} {cs : List Char} (h : extend? 16 n cs = some m) :
    ∀ c ∈ cs, c ∈ hexDigits := by
  induction cs generalizing n with
  | nil => simp
  | cons c cs ih =>
    obtain ⟨v, hv, hrest⟩ := Option.bind_eq_some_iff.mp h
    exact List.forall_mem_cons.mpr ⟨mem_hexDigits_of_valueIn? hv, ih hrest⟩

/-- Hexadecimal digits extend a number by values of which they are the digits, in lower case. -/
theorem exists_values {cs : List Char} (h : ∀ c ∈ cs, c ∈ hexDigits) (n : Nat) :
    ∃ vs : List Nat, (∀ v ∈ vs, v < 16) ∧ cs.map Char.toLower = vs.map hexDigit ∧
      extend? 16 n cs = some (vs.foldl (fun n v => n * 16 + v) n) := by
  induction cs generalizing n with
  | nil => exact ⟨[], by simp, rfl, rfl⟩
  | cons c cs ih =>
    obtain ⟨hc, hcs⟩ := List.forall_mem_cons.mp h
    obtain ⟨v, hv, hlt, hdigit⟩ := valueIn?_of_mem_hexDigits c hc
    obtain ⟨vs, hvs, hdigits, hextend⟩ := ih hcs (n * 16 + v)
    refine ⟨v :: vs, List.forall_mem_cons.mpr ⟨hlt, hvs⟩, ?_, ?_⟩
    · rw [List.map_cons, List.map_cons, hdigit, hdigits]
    · rw [extend?, hv, Option.bind_some, hextend, List.foldl_cons]

end HouseBoard.Digits
