/-
HouseBoard.Proofs.Timestamps — timestamps are read liberally and written strictly.

Section 1 says what every timestamp that was read is like, whatever its text: a date of the
years from 0 to 9999, a time of day without a leap second, and an offset of less than a day.
Section 2 goes through the parts of the text of such a timestamp; each is read back as what it
was written for.
-/
import HouseBoard.Proofs.Digits
import HouseBoard.Calendar.Timestamp

namespace HouseBoard.Timestamp

/-! ## Section 1 — what was read -/

/-- A timestamp that has a text: the year has four digits, the time is one of the day, and the
offset is less than a day. -/
structure Expressible (t : Timestamp) : Prop where
  date : t.date.Valid
  year : 0 ≤ t.date.year
  hour : t.hour ≤ 23
  minute : t.minute ≤ 59
  second : t.second ≤ 59
  nano : t.nano < 10 ^ 9
  offset : t.offset.natAbs < 24 * 60

theorem fraction?_lt {n : Nat} {cs rest : List Char} (h : fraction? cs = some (n, rest)) :
    n < 10 ^ 9 := by
  unfold fraction? at h
  split at h
  · obtain ⟨m, hm, hsome⟩ := Option.bind_eq_some_iff.mp h
    split at hsome
    · cases hsome
    · obtain ⟨rfl, -⟩ := Prod.mk.inj (Option.some.inj hsome)
      refine Nat.lt_of_lt_of_le (Digits.read?_lt hm) (Nat.pow_le_pow_right (by decide) ?_)
      exact List.length_take_le _ _
  · obtain ⟨rfl, -⟩ := Prod.mk.inj (Option.some.inj h)
    decide

theorem offset?_lt {i : Int} {cs : List Char} (h : offset? cs = some i) :
    i.natAbs < 24 * 60 := by
  unfold offset? at h
  split at h
  · cases h
    decide
  · cases h
    decide
  · simp only [Option.bind_eq_bind, Option.bind_eq_some_iff, Prod.exists] at h
    obtain ⟨hours, _, -, _, -, minutes, _, -, h⟩ := h
    split at h
    · cases h
    · split at h
      · cases h
        omega
      · split at h
        · cases h
          omega
        · cases h
  · cases h

/-- Every timestamp that is read has a text, also one that was written as a leap second. -/
theorem read?_expressible {cs : List Char} {t : Timestamp} (h : read? cs = some t) :
    t.Expressible := by
  unfold read? at h
  obtain ⟨⟨year, _⟩, -, h⟩ := Option.bind_eq_some_iff.mp h
  obtain ⟨_, -, h⟩ := Option.bind_eq_some_iff.mp h
  obtain ⟨⟨month, _⟩, -, h⟩ := Option.bind_eq_some_iff.mp h
  obtain ⟨_, -, h⟩ := Option.bind_eq_some_iff.mp h
  obtain ⟨⟨day, _⟩, -, h⟩ := Option.bind_eq_some_iff.mp h
  obtain ⟨_, -, h⟩ := Option.bind_eq_some_iff.mp h
  obtain ⟨⟨hour, _⟩, -, h⟩ := Option.bind_eq_some_iff.mp h
  obtain ⟨_, -, h⟩ := Option.bind_eq_some_iff.mp h
  obtain ⟨⟨minute, _⟩, -, h⟩ := Option.bind_eq_some_iff.mp h
  obtain ⟨_, -, h⟩ := Option.bind_eq_some_iff.mp h
  obtain ⟨⟨second, _⟩, -, h⟩ := Option.bind_eq_some_iff.mp h
  obtain ⟨⟨nano, _⟩, hnano, h⟩ := Option.bind_eq_some_iff.mp h
  obtain ⟨offset, hoffset, h⟩ := Option.bind_eq_some_iff.mp h
  obtain ⟨date, hdate, h⟩ := Option.bind_eq_some_iff.mp h
  have hvalid : date.Valid ∧ 0 ≤ date.year := by
    dsimp only [Date.of?] at hdate
    split at hdate
    · cases hdate
      exact ⟨‹_›, Int.natCast_nonneg year⟩
    · cases hdate
  have hnano := fraction?_lt hnano
  have hoffset := offset?_lt hoffset
  split at h
  · cases h
  · split at h
    · cases h
      exact ⟨hvalid.1, hvalid.2, by grind, by grind, ‹_›, hnano, hoffset⟩
    · split at h
      · dsimp only at h
        split at h
        · cases h
          exact ⟨hvalid.1, hvalid.2, by grind, by grind, Nat.le_refl 59, by norm_num, hoffset⟩
        · cases h
      · cases h

/-! ## Section 2 — reading what is written -/

/-- A padded number is read by its width. -/
theorem digits?_padded (count n : Nat) (hcount : 0 < count) (h : n < 10 ^ count)
    (rest : List Char) : digits? count (Digits.padded count n ++ rest) = some (n, rest) := by
  have hlength := Digits.length_padded hcount h
  have htake : (Digits.padded count n ++ rest).take count = Digits.padded count n :=
    List.take_left' hlength
  have hdrop : (Digits.padded count n ++ rest).drop count = rest := List.drop_left' hlength
  rw [digits?, if_neg, htake, hdrop, Digits.read?_padded]
  · rfl
  · rw [List.length_append]
    omega

theorem exactly?_self (c : Char) (rest : List Char) : exactly? c (c :: rest) = some rest := by
  simp [exactly?]

theorem fraction?_of_ne {cs : List Char} (h : cs.head? ≠ some '.') :
    fraction? cs = some (0, cs) := by
  unfold fraction?
  split
  · exact absurd rfl h
  · rfl

/-- What is stripped off the end of a fraction is zeros. -/
theorem eq_strip_append (cs : List Char) :
    ∃ zeros, cs = (cs.reverse.dropWhile (· = '0')).reverse ++ List.replicate zeros '0' := by
  refine ⟨(cs.reverse.takeWhile (· = '0')).length, ?_⟩
  have hzeros : (cs.reverse.takeWhile (· = '0')).reverse =
      List.replicate (cs.reverse.takeWhile (· = '0')).length '0' := by
    rw [List.eq_replicate_iff, List.length_reverse]
    refine ⟨rfl, fun c hc => ?_⟩
    simpa using List.mem_takeWhile_imp (List.mem_reverse.mp hc)
  calc
    cs = (cs.reverse.takeWhile (· = '0') ++ cs.reverse.dropWhile (· = '0')).reverse := by
      rw [List.takeWhile_append_dropWhile, List.reverse_reverse]
    _ = _ := by rw [List.reverse_append, hzeros]

theorem fraction?_fractionText {nano : Nat} (h : nano < 10 ^ 9) {rest : List Char}
    (hrest : ∀ c ∈ rest.head?, c.isDigit = false ∧ c ≠ '.') :
    fraction? (fractionText nano ++ rest) = some (nano, rest) := by
  unfold fractionText
  split
  · subst nano
    exact fraction?_of_ne fun hpoint => (hrest '.' hpoint).2 rfl
  · rename_i hpositive
    obtain ⟨zeros, hsplit⟩ := eq_strip_append (Digits.padded 9 nano)
    generalize ((Digits.padded 9 nano).reverse.dropWhile (· = '0')).reverse = ds at hsplit
    have hlength : ds.length + zeros = 9 := by
      rw [← Digits.length_padded (by decide) h, hsplit, List.length_append,
        List.length_replicate]
    have hdigits : ∀ c ∈ ds, c.isDigit = true := fun c hc =>
      Digits.isDigit_of_mem_padded (hsplit ▸ List.mem_append_left _ hc)
    have hne : ds ≠ [] := by
      rintro rfl
      have hvalue := Digits.ofDigitChars_padded 9 nano
      rw [hsplit, List.nil_append, Nat.ofDigitChars_replicate_zero] at hvalue
      exact hpositive hvalue.symm
    -- the reader puts zeros back up to nine digits
    have hfilled : (ds ++ List.replicate 9 '0').take 9 = Digits.padded 9 nano := by
      rw [hsplit, List.take_append, List.take_of_length_le (by omega), List.take_replicate]
      congr 2
      omega
    have htaken :=
      (Digits.takeWhile_isDigit_append ds rest hdigits fun c hc => (hrest c hc).1).1
    simp only [List.cons_append, fraction?, htaken, hfilled, Digits.read?_padded,
      Option.bind_some, if_neg hne, List.drop_left]

theorem offset?_offsetText {i : Int} (h : i.natAbs < 24 * 60) :
    offset? (offsetText i) = some i := by
  unfold offsetText
  split
  · subst i
    rfl
  · have hminutes := digits?_padded 2 (i.natAbs % 60) (by decide) (by omega) []
    rw [List.append_nil] at hminutes
    have hhours := digits?_padded 2 (i.natAbs / 60) (by decide) (by omega)
      (':' :: Digits.padded 2 (i.natAbs % 60))
    have hparts (sign : Char) (hsign : sign = '+' ∨ sign = '-') :
        offset?
          (sign :: (Digits.padded 2 (i.natAbs / 60) ++ ':' :: Digits.padded 2 (i.natAbs % 60)))
            =
          if sign = '+' then some (i.natAbs : Int) else some (-(i.natAbs : Int)) := by
      have hsum : i.natAbs / 60 * 60 + i.natAbs % 60 = i.natAbs := by omega
      have hbounds : ¬ (([] : List Char) ≠ [] ∨ 23 < i.natAbs / 60 ∨ 59 < i.natAbs % 60) := by
        rw [not_or, not_or]
        exact ⟨fun hne => hne rfl, by omega, by omega⟩
      rw [offset?.eq_3 _ _ (by grind) (by grind)]
      simp only [hhours, exactly?_self, hminutes, Option.bind_eq_bind, Option.bind_some,
        if_neg hbounds, hsum]
      rcases hsign with rfl | rfl
      · rfl
      · rfl
    split
    · rw [List.cons_append, hparts '-' (.inr rfl), if_neg (by decide)]
      congr 1
      omega
    · rw [List.cons_append, hparts '+' (.inl rfl), if_pos rfl]
      congr 1
      omega

theorem head?_offsetText (i : Int) :
    ∀ c ∈ (offsetText i).head?, c.isDigit = false ∧ c ≠ '.' := by
  unfold offsetText
  intro c hc
  split at hc
  · cases hc
    decide
  · split at hc
    · cases hc
      decide
    · cases hc
      decide

theorem Expressible.chars_eq {t : Timestamp} (h : t.Expressible) :
    t.chars = Digits.padded 4 t.date.year.natAbs ++ '-' :: (Digits.padded 2 t.date.month ++
      '-' :: (Digits.padded 2 t.date.day ++ 'T' ::
        (Digits.padded 2 t.hour ++ ':' :: (Digits.padded 2 t.minute ++
        ':' ::
          (Digits.padded 2 t.second ++ (fractionText t.nano ++ offsetText t.offset)))))) := by
  simp [chars, Date.text, Int.not_lt.mpr h.year]

/-- What is written of a timestamp that has a text is read back. -/
theorem read?_chars {t : Timestamp} (h : t.Expressible) : read? t.chars = some t := by
  have hyear : (t.date.year.natAbs : Int) = t.date.year ∧ t.date.year.natAbs < 10 ^ 4 := by
    have := h.date.2.1
    have := h.year
    omega
  have hmonth : t.date.month < 10 ^ 2 := Nat.lt_of_le_of_lt h.date.2.2.2.1 (by decide)
  have hday : t.date.day < 10 ^ 2 := by
    have := h.date.2.2.2.2.2
    unfold Date.daysIn at this
    grind
  have hdate : Date.of? t.date.year.natAbs t.date.month t.date.day = some t.date := by
    rw [hyear.1]
    exact if_pos h.date
  have htime : ¬ (23 < t.hour ∨ 59 < t.minute) := by
    have := h.hour
    have := h.minute
    omega
  have hdigits {n : Nat} (hn : n < 10 ^ 2) := digits?_padded 2 n (by decide) hn
  rw [h.chars_eq]
  unfold read?
  refine Option.bind_eq_some_iff.mpr ⟨_, digits?_padded _ _ (by decide) hyear.2 _, ?_⟩
  refine Option.bind_eq_some_iff.mpr ⟨_, exactly?_self '-' _, ?_⟩
  refine Option.bind_eq_some_iff.mpr ⟨_, hdigits hmonth _, ?_⟩
  refine Option.bind_eq_some_iff.mpr ⟨_, exactly?_self '-' _, ?_⟩
  refine Option.bind_eq_some_iff.mpr ⟨_, hdigits hday _, ?_⟩
  refine Option.bind_eq_some_iff.mpr ⟨_, (rfl : separator? ('T' :: _) = some _), ?_⟩
  refine Option.bind_eq_some_iff.mpr ⟨_, hdigits (Nat.lt_of_le_of_lt h.hour (by decide)) _, ?_⟩
  refine Option.bind_eq_some_iff.mpr ⟨_, exactly?_self ':' _, ?_⟩
  refine Option.bind_eq_some_iff.mpr
    ⟨_, hdigits (Nat.lt_of_le_of_lt h.minute (by decide)) _, ?_⟩
  refine Option.bind_eq_some_iff.mpr ⟨_, exactly?_self ':' _, ?_⟩
  refine Option.bind_eq_some_iff.mpr
    ⟨_, hdigits (Nat.lt_of_le_of_lt h.second (by decide)) _, ?_⟩
  refine Option.bind_eq_some_iff.mpr ⟨_, fraction?_fractionText h.nano (head?_offsetText _), ?_⟩
  refine Option.bind_eq_some_iff.mpr ⟨_, offset?_offsetText h.offset, ?_⟩
  refine Option.bind_eq_some_iff.mpr ⟨t.date, hdate, ?_⟩
  rw [if_neg htime, if_pos h.second]

/-- Reading after writing gives the timestamp again, and only timestamps that have a
text are read. -/
theorem ofText?_text {s : String} {t : Timestamp} (h : ofText? s = some t) :
    ofText? t.text = some t := by
  rw [ofText?, text, String.toList_ofList]
  exact read?_chars (read?_expressible h)

end HouseBoard.Timestamp
