/-
HouseBoard.Proofs.Lexemes — strings, numbers and words are read back in front of anything.

Section 1 is about strings: what is written of a character is read as that character, also when
it is escaped.  The text of a number has no end of its own; Section 2 says that a spelling that
is read alone is read alike in front of what may follow a value.  By Section 3, integers are
read back whenever they fit 64 bits.  Section 4 says what it is for any number to be read back,
and Section 5 what every number that was read is like.
-/
import HouseBoard.Proofs.Digits
import HouseBoard.Json.Lexeme
import HouseBoard.Json.Writer

namespace HouseBoard.Json

/-! ## Section 1 — strings -/

theorem ofCode_of_lt {n : Nat} (h : n < 0x20) : Unit16.ofCode n = .char (Char.ofNat n) := by
  rw [Unit16.ofCode, if_neg (by omega), if_neg (by omega)]

/-- A character that is written in a string is read as itself. -/
theorem units?_escaped (c : Char) (rest : List Char) :
    units? (escaped c ++ rest) = (units? rest).map fun (us, after) =>
      (.char c :: us, after) := by
  unfold escaped
  split
  -- the characters with a letter of their own
  iterate 7
    · rw [List.cons_append, List.cons_append, List.nil_append, units?]
      cases units? rest with
      | none => rfl
      | some p => rfl
  · rename_i hquote hbackslash _ _ _ _ _
    split
    · rename_i hcontrol
      have hcode : Digits.extend? 16 0 (Digits.hexQuad c.toNat) = some c.toNat :=
        Digits.extend?_hexQuad (by omega)
      rw [Digits.hexQuad, Digits.hexPair, Digits.hexPair] at hcode ⊢
      simp only [List.cons_append, List.nil_append] at hcode ⊢
      rw [units?, hcode, Option.bind_eq_bind, Option.bind_some, ofCode_of_lt hcontrol,
        Char.ofNat_toNat]
      cases units? rest with
      | none => rfl
      | some p => rfl
    · rename_i hcontrol
      have hplain : ¬ (c.toNat < 0x20 ∨ c = '\\') := not_or.mpr ⟨hcontrol, hbackslash⟩
      rw [List.singleton_append, units?, if_neg hplain]
      · cases units? rest with
        | none => rfl
        | some p => rfl
      · exact hquote
      · exact fun _ _ _ _ _ heq _ => hbackslash heq
      · exact fun _ _ heq _ => hbackslash heq

theorem units?_flatMap (cs rest : List Char) :
    units? (cs.flatMap escaped ++ '"' :: rest) = some (cs.map .char, rest) := by
  induction cs with
  | nil => rw [List.flatMap_nil, List.nil_append, units?, List.map_nil]
  | cons c cs ih =>
    rw [List.flatMap_cons, List.append_assoc, units?_escaped, ih, Option.map_some,
      List.map_cons]

theorem joinUnits?_map_char (cs : List Char) : joinUnits? (cs.map .char) = some cs := by
  induction cs with
  | nil => rfl
  | cons c cs ih => rw [List.map_cons, joinUnits?, ih, Option.map_some]

/-- A written string is read back. -/
theorem string?_escaped (s : String) (rest : List Char) :
    string? (s.toList.flatMap escaped ++ '"' :: rest) = some (some s, rest) := by
  rw [string?, units?_flatMap, Option.map_some]
  dsimp only
  rw [joinUnits?_map_char, Option.map_some, String.ofList_toList]

theorem toList_quoted (s : String) :
    (quoted s).toList = '"' :: (s.toList.flatMap escaped ++ ['"']) := by
  simp [quoted]

/-! ## Section 2 — numbers in front of something -/

/-- What may follow a value: nothing, a comma, or what closes a container. -/
def Follows (rest : List Char) : Prop := ∀ c ∈ rest.head?, c = ',' ∨ c = ']' ∨ c = '}'

theorem follows_nil : Follows [] := by
  intro c hc
  cases hc

theorem follows_cons {c : Char} (rest : List Char) (h : c = ',' ∨ c = ']' ∨ c = '}') :
    Follows (c :: rest) := by
  intro d hd
  cases hd
  exact h

/-- What follows a value does not go on with a number. -/
theorem Follows.head {rest : List Char} (h : Follows rest) :
    ∀ c ∈ rest.head?, c.isDigit = false ∧ c ≠ '.' ∧ ¬ (c = 'e' ∨ c = 'E') := by
  intro c hc
  rcases h c hc with rfl | rfl | rfl
  · decide
  · decide
  · decide

theorem splitDigits_append {cs rest : List Char} (h : Follows rest) :
    Binary64.splitDigits (cs ++ rest) =
      ((Binary64.splitDigits cs).1, (Binary64.splitDigits cs).2 ++ rest) := by
  have hother : ∀ c ∈ (cs.dropWhile Char.isDigit ++ rest).head?, c.isDigit = false := by
    intro c hc
    cases hafter : cs.dropWhile Char.isDigit with
    | nil =>
      rw [hafter, List.nil_append] at hc
      exact (h.head c hc).1
    | cons d ds =>
      rw [hafter] at hc
      obtain rfl := Option.some.inj hc
      have hne : cs.dropWhile Char.isDigit ≠ [] := by simp [hafter]
      have hhead := List.head_dropWhile_not Char.isDigit hne
      simpa [hafter] using hhead
  have hsplit := Digits.takeWhile_isDigit_append (cs.takeWhile Char.isDigit)
    (cs.dropWhile Char.isDigit ++ rest)
    (fun c hc => List.mem_takeWhile_imp hc) hother
  rw [← List.append_assoc, List.takeWhile_append_dropWhile] at hsplit
  exact Prod.ext hsplit.1 hsplit.2

/-- Digits that are read alone are read alike in front of what may follow. -/
theorem digits_append {α : Type} {make : List Char → α} {a : α} {cs after rest : List Char}
    (h : Follows rest)
    (hread : (match Binary64.splitDigits cs with
      | ([], _) => none
      | (ds, after) => some (make ds, after)) = some (a, after)) :
    (match Binary64.splitDigits (cs ++ rest) with
      | ([], _) => none
      | (ds, after) => some (make ds, after)) = some (a, after ++ rest) := by
  rw [splitDigits_append h]
  generalize Binary64.splitDigits cs = split at hread
  obtain ⟨ds, left⟩ := split
  cases ds with
  | nil => cases hread
  | cons d ds =>
    cases hread
    rfl

theorem fraction?_append {cs after rest : List Char} {part : Option (List Char)}
    (h : Follows rest) (hread : fraction? cs = some (part, after)) :
    fraction? (cs ++ rest) = some (part, after ++ rest) := by
  have hwhole (ds : List Char) (hpoint : ds.head? ≠ some '.') :
      fraction? ds = some (none, ds) := by
    unfold fraction?
    split
    · exact absurd rfl hpoint
    · rfl
  cases cs with
  | nil =>
    cases hread
    exact hwhole rest fun hpoint => (h.head '.' hpoint).2.1 rfl
  | cons c cs =>
    by_cases hpoint : c = '.'
    · subst c
      exact digits_append h hread
    · have hhead (ds : List Char) : (c :: ds).head? ≠ some '.' :=
        fun heq => hpoint (Option.some.inj heq)
      rw [hwhole _ (hhead cs)] at hread
      cases hread
      exact hwhole _ (hhead _)

theorem exponent?_append {cs after rest : List Char} {exponent : Option (Bool × List Char)}
    (h : Follows rest) (hread : exponent? cs = some (exponent, after)) :
    exponent? (cs ++ rest) = some (exponent, after ++ rest) := by
  cases cs with
  | nil =>
    cases hread
    cases rest with
    | nil => rfl
    | cons c rest => exact if_neg (h.head c rfl).2.2
  | cons c cs =>
    rw [List.cons_append]
    unfold exponent? at hread ⊢
    dsimp only at hread ⊢
    by_cases hletter : c = 'e' ∨ c = 'E'
    · rw [if_pos hletter] at hread ⊢
      cases cs with
      | nil => cases hread
      | cons d ds =>
        by_cases hplus : d = '+'
        · subst d
          exact digits_append h hread
        · by_cases hminus : d = '-'
          · subst d
            exact digits_append h hread
          · rw [List.cons_append]
            simp only [List.cons.injEq, hplus, hminus, false_and, imp_false, not_false_eq_true,
              implies_true] at hread ⊢
            rw [← List.cons_append]
            exact digits_append h hread
    · rw [if_neg hletter] at hread ⊢
      cases hread
      rfl

/-- What is read of a number after its sign. -/
def unsigned? (negative : Bool) (cs : List Char) : Option (Spelling × List Char) :=
  let (whole, rest) := Binary64.splitDigits cs
  if whole = [] ∨ (1 < whole.length ∧ whole.head? = some '0') then none
  else
    (fraction? rest).bind fun (part, rest) =>
      (exponent? rest).bind fun (exponent, rest) =>
        some (⟨negative, whole, part, exponent⟩, rest)

theorem spelling?_dash (cs : List Char) : spelling? ('-' :: cs) = unsigned? true cs := rfl

theorem spelling?_of_ne {cs : List Char} (h : cs.head? ≠ some '-') :
    spelling? cs = unsigned? false cs := by
  cases cs with
  | nil => rfl
  | cons c cs =>
    have hother : c ≠ '-' := fun heq => h (congrArg some heq)
    unfold spelling?
    simp only [List.cons.injEq, hother, false_and, imp_false, not_false_eq_true, implies_true]
    rfl

theorem unsigned?_append {negative : Bool} {s : Spelling} {cs after rest : List Char}
    (h : Follows rest) (hread : unsigned? negative cs = some (s, after)) :
    unsigned? negative (cs ++ rest) = some (s, after ++ rest) := by
  unfold unsigned? at hread ⊢
  rw [splitDigits_append h]
  dsimp only at hread ⊢
  split at hread
  · cases hread
  · rename_i hwhole
    obtain ⟨⟨part, _⟩, hpart, hread⟩ := Option.bind_eq_some_iff.mp hread
    obtain ⟨⟨exponent, _⟩, hexponent, hread⟩ := Option.bind_eq_some_iff.mp hread
    cases hread
    rw [if_neg hwhole, fraction?_append h hpart, Option.bind_some]
    dsimp only
    rw [exponent?_append h hexponent, Option.bind_some]

/-- A number that is read alone is read alike in front of what may follow. -/
theorem spelling?_append {s : Spelling} {cs after rest : List Char} (h : Follows rest)
    (hread : spelling? cs = some (s, after)) :
    spelling? (cs ++ rest) = some (s, after ++ rest) := by
  cases cs with
  | nil => cases hread
  | cons c cs =>
    by_cases hdash : c = '-'
    · subst c
      exact unsigned?_append h hread
    · have hhead (ds : List Char) : (c :: ds).head? ≠ some '-' :=
        fun heq => hdash (Option.some.inj heq)
      rw [spelling?_of_ne (hhead _)] at hread
      rw [List.cons_append, spelling?_of_ne (hhead _), ← List.cons_append]
      exact unsigned?_append h hread

/-! ## Section 3 — integers -/

/-- Digits are taken up as long as the number stays below the bound, so all digits of a
number below it. -/
theorem takeDigits_of_lt {cs : List Char} {n taken : Nat}
    (h : Nat.ofDigitChars 10 cs n < UInt64.size) :
    takeDigits n taken cs = (Nat.ofDigitChars 10 cs n, taken + cs.length) := by
  induction cs generalizing n taken with
  | nil => rfl
  | cons c cs ih =>
    rw [Nat.ofDigitChars_cons] at h ⊢
    have hnext : n * 10 + (c.toNat - '0'.toNat) < UInt64.size := by
      rw [Nat.ofDigitChars_eq_ofDigitChars_zero] at h
      have hpos : 0 < 10 ^ cs.length := Nat.pow_pos (by decide)
      have hgrows := Nat.le_mul_of_pos_left (10 * n + (c.toNat - '0'.toNat)) hpos
      rw [Nat.mul_comm n 10]
      omega
    unfold takeDigits
    rw [if_pos hnext, Nat.mul_comm n 10, ih h, List.length_cons]
    congr 1
    omega

theorem takeDigits_lt {cs : List Char} {n taken : Nat} (h : n < UInt64.size) :
    (takeDigits n taken cs).1 < UInt64.size := by
  induction cs generalizing n taken with
  | nil => exact h
  | cons c cs ih =>
    unfold takeDigits
    dsimp only
    split
    · exact ih ‹_›
    · exact h

/-- The integers that stay integers. -/
def Fits64 (i : Int) : Prop := -2 ^ 63 ≤ i ∧ i < 2 ^ 64

theorem unsigned?_decimal (negative : Bool) (n : Nat) :
    unsigned? negative (Digits.decimal n) =
      some (⟨negative, Digits.decimal n, none, none⟩, []) := by
  have hsplit := Digits.takeWhile_isDigit_append (Digits.decimal n) []
    (fun c hc => Digits.isDigit_of_mem_decimal hc) (fun c hc => nomatch hc)
  rw [List.append_nil] at hsplit
  have hleading : ¬ (Digits.decimal n = [] ∨
      (1 < (Digits.decimal n).length ∧ (Digits.decimal n).head? = some '0')) := by
    rintro (hnil | ⟨hlong, hzero⟩)
    · exact Digits.decimal_ne_nil n hnil
    · rcases Nat.eq_zero_or_pos n with rfl | hpositive
      · revert hlong
        decide
      · exact Digits.head?_decimal_ne hpositive hzero
  rw [unsigned?, Binary64.splitDigits, hsplit.1, hsplit.2]
  dsimp only
  rw [if_neg hleading]
  rfl

/-- The spelling of a natural number or its opposite stands for it, as far as it
fits 64 bits. -/
theorem number?_decimal {n : Nat} :
    (n < 2 ^ 64 → (⟨false, Digits.decimal n, none, none⟩ : Spelling).number? = some (.int n)) ∧
      (0 < n → n ≤ 2 ^ 63 → (⟨true, Digits.decimal n, none, none⟩ : Spelling).number? =
        some (.int (-n))) := by
  have htaken (h : n < UInt64.size) : takeDigits 0 0 (Digits.decimal n) =
      (n, (Digits.decimal n).length) := by
    rw [takeDigits_of_lt (by rwa [Digits.ofDigitChars_decimal]),
      Digits.ofDigitChars_decimal, Nat.zero_add]
  constructor
  · intro h
    simp [Spelling.number?, htaken h]
  · intro hpositive h
    have hsize : 2 * n ≤ UInt64.size := by
      change 2 * n ≤ 2 ^ 64
      omega
    simp [Spelling.number?, htaken (by omega), hpositive, hsize]

theorem scalar?_of_digit {c : Char} (hc : c = '-' ∨ c.isDigit = true) (cs : List Char) :
    scalar? (c :: cs) =
      (spelling? (c :: cs)).map fun (s, rest) =>
        ((s.number?.map Json.num).getD .unread, rest) := by
  unfold scalar?
  split
  · rename_i heq
    cases heq
    exact absurd hc (by decide)
  · rename_i heq
    cases heq
    rw [if_pos hc]
  · rename_i heq
    cases heq

/-- The text of an integer that fits 64 bits is read as that integer. -/
theorem scalar?_intText {i : Int} (hi : Fits64 i) {rest : List Char} (h : Follows rest) :
    scalar? ((Digits.intText i).toList ++ rest) = some (.num (.int i), rest) := by
  obtain ⟨hlow, hhigh⟩ := hi
  cases i with
  | ofNat n =>
    obtain ⟨c, cs, hcs⟩ := List.exists_cons_of_ne_nil (Digits.decimal_ne_nil n)
    have hc : c.isDigit = true := Digits.isDigit_of_mem_decimal (hcs ▸ List.mem_cons_self)
    have hread : spelling? (c :: cs) = some (⟨false, Digits.decimal n, none, none⟩, []) := by
      rw [spelling?_of_ne, ← hcs, unsigned?_decimal]
      rintro ⟨⟩
      cases hc
    have htext : (Digits.intText (.ofNat n)).toList = c :: cs := by
      rw [← hcs]
      exact String.toList_ofList
    rw [htext, List.cons_append, scalar?_of_digit (.inr hc), ← List.cons_append,
      spelling?_append h hread, Option.map_some]
    dsimp only
    rw [number?_decimal.1 (by simpa using hhigh)]
    rfl
  | negSucc n =>
    have htext : (Digits.intText (.negSucc n)).toList = '-' :: Digits.decimal (n + 1) := by
      rw [Digits.intText, String.toList_append, Digits.text]
      exact congrArg ('-' :: ·) String.toList_ofList
    have hread := spelling?_append h ((spelling?_dash _).trans (unsigned?_decimal true (n + 1)))
    rw [htext, List.cons_append, scalar?_of_digit (.inl rfl), ← List.cons_append, hread,
      Option.map_some]
    dsimp only
    rw [number?_decimal.2 (Nat.succ_pos n) (by omega)]
    rfl

/-! ## Section 4 — numbers that are read back -/

/-- The text of a number is read as that number, and no text goes beyond it. -/
def Number.ReadsBack (n : Number) : Prop := scalar? n.text.toList = some (.num n, [])

theorem readsBack_int {i : Int} (h : Fits64 i) : (Number.int i).ReadsBack := by
  have hread := scalar?_intText h follows_nil
  rwa [List.append_nil] at hread

/-- What has the spelling of a number begins with a sign or a digit. -/
theorem spelling?_head {cs rest : List Char} {s : Spelling}
    (h : spelling? cs = some (s, rest)) :
    ∃ c ds, cs = c :: ds ∧ (c = '-' ∨ c.isDigit = true) := by
  cases cs with
  | nil => cases h
  | cons c ds =>
    refine ⟨c, ds, rfl, ?_⟩
    by_contra hother
    obtain ⟨hdash, hdigit⟩ := not_or.mp hother
    have hwhole : (Binary64.splitDigits (c :: ds)).1 = [] := by
      simp [Binary64.splitDigits, hdigit]
    have hhead : (c :: ds).head? ≠ some '-' := fun heq => hdash (Option.some.inj heq)
    rw [spelling?_of_ne hhead] at h
    unfold unsigned? at h
    dsimp only at h
    rw [if_pos (.inl hwhole)] at h
    cases h

theorem readsBack_of_spelling? {n : Number}
    (h : (spelling? n.text.toList).map (fun p => (p.1.number?, p.2)) = some (some n, [])) :
    n.ReadsBack := by
  obtain ⟨⟨s, rest⟩, hread, hvalue⟩ := Option.map_eq_some_iff.mp h
  obtain ⟨hnumber, rfl⟩ := Prod.mk.inj hvalue
  obtain ⟨c, cs, htext, hc⟩ := spelling?_head hread
  rw [Number.ReadsBack, htext, scalar?_of_digit hc, ← htext, hread, Option.map_some]
  dsimp only at hnumber ⊢
  rw [hnumber]
  rfl

/-- What is read as a number begins with a sign or a digit. -/
theorem scalar?_eq_num {cs rest : List Char} {n : Number}
    (h : scalar? cs = some (.num n, rest)) :
    ∃ c ds, cs = c :: ds ∧ (c = '-' ∨ c.isDigit = true) := by
  unfold scalar? at h
  split at h
  · obtain ⟨⟨text, _⟩, -, heq⟩ := Option.map_eq_some_iff.mp h
    cases text with
    | none => cases heq
    | some s => cases heq
  · rename_i c ds hquote
    split at h
    · rename_i hc
      exact ⟨c, ds, rfl, hc⟩
    · unfold word? at h
      split at h
      · cases h
      · cases h
      · cases h
      · cases h
  · cases h

/-- A number that is read back alone is read back in front of what may follow. -/
theorem Number.ReadsBack.append {n : Number} (hn : n.ReadsBack) {rest : List Char}
    (h : Follows rest) : scalar? (n.text.toList ++ rest) = some (.num n, rest) := by
  obtain ⟨c, cs, htext, hc⟩ := scalar?_eq_num hn
  rw [ReadsBack, htext, scalar?_of_digit hc] at hn
  obtain ⟨⟨s, after⟩, hread, heq⟩ := Option.map_eq_some_iff.mp hn
  obtain ⟨hvalue, rfl⟩ := Prod.mk.inj heq
  rw [htext, List.cons_append, scalar?_of_digit hc, ← List.cons_append,
    spelling?_append h hread, Option.map_some]
  exact congrArg (fun v => some (v, rest)) hvalue

/-! ## Section 5 — numbers that were read -/

theorem isFinite_neg (x : Binary64) : x.neg.isFinite = x.isFinite := by
  cases x with
  | nan => rfl
  | infinite n => rfl
  | finite n s u => rfl

theorem isFinite_ofSteps {negative : Bool} {num den : Nat} (h : (num / den).log2 ≤ 2096) :
    (Binary64.ofSteps negative num den).isFinite = true := by
  have hunit : Nat.log2 (num / den) - 52 + 1 ≤ 2045 := by omega
  unfold Binary64.ofSteps
  dsimp only
  split
  · rfl
  · dsimp only
    rw [if_pos (by omega)]
    rfl

theorem isFinite_ofRatio_one {negative : Bool} {n : Nat} (h : n ≤ 2 ^ 64) :
    (Binary64.ofRatio negative n 1).isFinite = true := by
  -- the exponent is kept apart, so that the power is never computed
  obtain ⟨k, hk, hone⟩ : ∃ k, k = 1074 ∧ Binary64.one = Nat.pow 2 k := by
    refine ⟨1074, rfl, ?_⟩
    unfold Binary64.one
    exact Eq.refl _
  refine isFinite_ofSteps ?_
  rw [Nat.div_one, hone]
  rcases Nat.eq_zero_or_pos (n * Nat.pow 2 k) with hzero | hpositive
  · rw [hzero]
    exact Nat.zero_le _
  · refine Nat.le_trans (Nat.le_of_lt_succ ((Nat.log2_lt (Nat.ne_of_gt hpositive)).mpr ?_))
      (by omega : 64 + k ≤ 2096)
    calc
      n * 2 ^ k ≤ 2 ^ 64 * 2 ^ k := Nat.mul_le_mul_right _ h
      _ = 2 ^ (64 + k) := (Nat.pow_add 2 64 k).symm
      _ < 2 ^ (64 + k + 1) := Nat.pow_lt_pow_right (by decide) (Nat.lt_succ_self _)

theorem isFinite_ofParts? {negative : Bool} {significand : Nat} {exponent : Int} {x : Binary64}
    (h : Binary64.ofParts? negative significand exponent = some x) : x.isFinite = true := by
  unfold Binary64.ofParts? at h
  dsimp only at h
  obtain ⟨hfinite, hx⟩ := Option.ite_none_right_eq_some.mp h
  cases hx
  cases negative with
  | true =>
    rw [if_pos rfl, isFinite_neg]
    exact hfinite
  | false => exact hfinite

/-- A number that has a text: an integer of 64 bits, or a finite value. -/
def Number.Sound : Number → Prop
  | .int i => Fits64 i
  | .real x => x.isFinite = true

theorem number?_sound {s : Spelling} {n : Number} (h : s.number? = some n) : n.Sound := by
  unfold Spelling.number? at h
  have hbound : (takeDigits 0 0 s.whole).1 < UInt64.size := takeDigits_lt (by decide)
  generalize takeDigits 0 0 s.whole = taken at h hbound
  obtain ⟨significand, taken⟩ := taken
  dsimp only at h hbound
  split at h
  · split at h
    · obtain ⟨x, hx, rfl⟩ := Option.map_eq_some_iff.mp h
      exact isFinite_ofParts? hx
    · split at h
      · cases h
        exact ⟨by omega, by simp [UInt64.size] at hbound; omega⟩
      · split at h
        · rename_i hhalf
          cases h
          have hsize : 2 * significand ≤ 2 ^ 64 := hhalf.2
          exact ⟨by omega, by omega⟩
        · cases h
          change (Binary64.ofNat significand).neg.isFinite = true
          rw [isFinite_neg]
          exact isFinite_ofRatio_one (Nat.le_of_lt hbound)
  · obtain ⟨x, hx, rfl⟩ := Option.map_eq_some_iff.mp h
    exact isFinite_ofParts? hx

end HouseBoard.Json
