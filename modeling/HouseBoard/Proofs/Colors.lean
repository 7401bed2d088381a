/-
HouseBoard.Proofs.Colors — which texts are colours.

Section 1 writes the colour of a number: six hexadecimal digits are written again, in lower
case.  Section 2 takes a text apart: what is read are six characters after a hash or without,
and since they are read as a number, the first of them may be a plus sign.
-/
import HouseBoard.Proofs.Payloads

namespace HouseBoard.Color

/-! ## Section 1 — the colour of six digits -/

/-- The colour of six values is written with their digits. -/
theorem text_ofNat {vs : List Nat} (hlength : vs.length = 6) (hvs : ∀ v ∈ vs, v < 16) :
    (ofNat (vs.foldl (fun n v => n * 16 + v) 0)).text.toList =
      '#' :: vs.map Digits.hexDigit := by
  match vs, hlength with
  | [a, b, c, d, e, f], _ =>
    simp only [List.forall_mem_cons] at hvs
    obtain ⟨ha, hb, hc, hd, he, hf, -⟩ := hvs
    simp only [List.foldl_cons, List.foldl_nil]
    generalize hn : (((((0 * 16 + a) * 16 + b) * 16 + c) * 16 + d) * 16 + e) * 16 + f = n
    have hred : n / 65536 % 256 / 16 = a ∧ n / 65536 % 256 % 16 = b := by omega
    have hgreen : n / 256 % 256 / 16 = c ∧ n / 256 % 256 % 16 = d := by omega
    have hblue : n % 256 / 16 = e ∧ n % 256 % 16 = f := by omega
    simp [text, ofNat, Digits.hexPair, hred, hgreen, hblue]

/-- The colour of six hexadecimal digits is written with those digits, in lower case. -/
theorem exists_text_ofNat {ds : List Char} (hlength : ds.length = 6)
    (hds : ∀ d ∈ ds, d ∈ Digits.hexDigits) :
    ∃ n, Digits.extend? 16 0 ds = some n ∧ (ofNat n).text.toList =
      '#' :: ds.map Char.toLower := by
  obtain ⟨vs, hvs, hdigits, hextend⟩ := Digits.exists_values hds 0
  have hsix : vs.length = 6 := by simpa [hlength] using (congrArg List.length hdigits).symm
  exact ⟨_, hextend, by rw [text_ofNat hsix hvs, hdigits]⟩

/-- No two colours have the same text. -/
theorem text_injective : Function.Injective text := by
  intro c c' h
  have hback := c'.ofText?_text
  rw [← h, c.ofText?_text] at hback
  exact Option.some.inj hback

/-! ## Section 2 — the texts of colours -/

/-- A text is a sign and hexadecimal digits, six characters together, after a hash
or without. -/
structure Spells (sign ds : List Char) (s : String) : Prop where
  length_eq : (sign ++ ds).length = 6
  digits : ∀ d ∈ ds, d ∈ Digits.hexDigits
  text_eq : s.toList = sign ++ ds ∨ s.toList = '#' :: (sign ++ ds)

/-- A hash is dropped or was not there. -/
theorem eq_dropHash (cs : List Char) : cs = dropHash cs ∨ cs = '#' :: dropHash cs := by
  unfold dropHash
  split
  · exact .inr rfl
  · exact .inl rfl

theorem dropHash_of_head?_ne {cs : List Char} (h : cs.head? ≠ some '#') : dropHash cs = cs := by
  unfold dropHash
  split
  · exact absurd rfl h
  · rfl

/-- A text that is read is a number of six characters. -/
theorem exists_spells {s : String} {c : Color} (h : ofText? s = some c) :
    ∃ sign ds, (sign = [] ∨ sign = ['+']) ∧ Spells sign ds s := by
  unfold ofText? at h
  dsimp only at h
  split at h
  · rename_i hlength
    obtain ⟨n, hread, -⟩ := Option.map_eq_some_iff.mp h
    obtain ⟨sign, ds, hsign, hbody, hread⟩ := Digits.readPlus?_eq_some_iff.mp hread
    have hdigits := Digits.mem_hexDigits_of_extend? (Digits.extend?_of_read? hread)
    exact ⟨sign, ds, hsign, hbody ▸ hlength, hdigits, hbody ▸ eq_dropHash _⟩
  · cases h

namespace Spells

variable {sign ds : List Char} {s : String} {n : Nat}

/-- A number of six characters is read. -/
theorem ofText?_eq (h : Spells sign ds s) (hsign : sign = [] ∨ sign = ['+'])
    (hextend : Digits.extend? 16 0 ds = some n) : ofText? s = some (ofNat n) := by
  obtain ⟨hlength, hds, htext⟩ := h
  have hhead : (sign ++ ds).head? ≠ some '#' := by
    rcases hsign with rfl | rfl
    · intro hhash
      exact absurd (hds '#' (List.mem_of_head? hhash)) (by decide)
    · simp
  have hdrop : dropHash s.toList = sign ++ ds := by
    rcases htext with htext | htext
    · rw [htext, dropHash_of_head?_ne hhead]
    · rw [htext, dropHash]
  have hread : Digits.readPlus? 16 (sign ++ ds) = some n := by
    refine Digits.readPlus?_eq_some_iff.mpr ⟨sign, ds, hsign, rfl, ?_⟩
    cases ds with
    | nil => rcases hsign with rfl | rfl <;> cases hlength
    | cons d ds => exact hextend
  unfold ofText?
  dsimp only
  rw [hdrop, if_pos hlength, hread, Option.map_some]

/-- Its colour is written with its digits, and with a zero for the sign. -/
theorem exists_ofText? (h : Spells sign ds s) (hsign : sign = [] ∨ sign = ['+']) :
    ∃ c, ofText? s = some c ∧
      c.text.toList = '#' :: (List.replicate sign.length '0' ++ ds.map Char.toLower) := by
  have hread : ∀ n, Digits.extend? 16 0 ds = some n → ofText? s = some (ofNat n) :=
    fun n => h.ofText?_eq hsign
  obtain ⟨hlength, hds, -⟩ := h
  rcases hsign with rfl | rfl
  · obtain ⟨n, hextend, htext⟩ := exists_text_ofNat hlength hds
    exact ⟨_, hread n hextend, htext⟩
  · -- a zero in front does not change the number
    obtain ⟨n, hextend, htext⟩ :=
      @exists_text_ofNat ('0' :: ds) hlength (List.forall_mem_cons.mpr ⟨by decide, hds⟩)
    exact ⟨_, hread n hextend, htext⟩

/-- No text is spelled with a plus sign and without. -/
theorem not_plus {ds' : List Char} (h : Spells [] ds s) (hplus : Spells ['+'] ds' s) :
    False := by
  have hmem : '+' ∈ s.toList := by
    rcases hplus.text_eq with htext | htext
    · exact htext ▸ List.mem_cons_self
    · exact htext ▸ List.mem_cons_of_mem _ List.mem_cons_self
  rcases h.text_eq with htext | htext
  · rw [htext, List.nil_append] at hmem
    exact absurd (h.digits '+' hmem) (by decide)
  · rw [htext, List.nil_append, List.mem_cons] at hmem
    rcases hmem with hhash | hmem
    · exact absurd hhash (by decide)
    · exact absurd (h.digits '+' hmem) (by decide)

end Spells

/-- A text is read as a colour exactly if it is a number of six characters, with or without a
sign, and the colour is written with the digits of that number. -/
theorem ofText?_eq_some_iff {s : String} {c : Color} :
    ofText? s = some c ↔ ∃ sign ds, (sign = [] ∨ sign = ['+']) ∧ Spells sign ds s ∧
      c.text.toList = '#' :: (List.replicate sign.length '0' ++ ds.map Char.toLower) := by
  constructor
  · intro h
    obtain ⟨sign, ds, hsign, hspells⟩ := exists_spells h
    obtain ⟨c', hread, htext⟩ := hspells.exists_ofText? hsign
    obtain rfl : c' = c := Option.some.inj (hread.symm.trans h)
    exact ⟨sign, ds, hsign, hspells, htext⟩
  · rintro ⟨sign, ds, hsign, hspells, htext⟩
    obtain ⟨c', hread, htext'⟩ := hspells.exists_ofText? hsign
    rw [hread, Option.some.injEq]
    exact text_injective (String.toList_inj.mp (htext'.trans htext.symm))

/-- A text is read as a colour exactly if it is six hexadecimal digits, after a hash or without,
and the colour is then written with those digits in lower case; or if it is five of them after a
plus sign, which is taken for a zero.  So the texts that are colours and those of six
hexadecimal digits differ just by these.  What is written of a colour is read back. -/
theorem ofText?_spellings (s : String) (c : Color) :
    (ofText? s = some c ↔
      (∃ ds, Spells [] ds s ∧ c.text.toList = '#' :: ds.map Char.toLower) ∨
        ∃ ds, Spells ['+'] ds s ∧ c.text.toList = '#' :: '0' :: ds.map Char.toLower) ∧
      (((∃ c', ofText? s = some c') ↔ ∃ ds, Spells [] ds s) ↔ ¬ ∃ ds, Spells ['+'] ds s) ∧
      ofText? c.text = some c := by
  refine ⟨?_, ?_, c.ofText?_text⟩
  · rw [ofText?_eq_some_iff]
    constructor
    · rintro ⟨sign, ds, rfl | rfl, hspells, htext⟩
      · exact .inl ⟨ds, hspells, htext⟩
      · exact .inr ⟨ds, hspells, htext⟩
    · rintro (⟨ds, hspells, htext⟩ | ⟨ds, hspells, htext⟩)
      · exact ⟨[], ds, .inl rfl, hspells, htext⟩
      · exact ⟨['+'], ds, .inr rfl, hspells, htext⟩
  · constructor
    · rintro hmeets ⟨ds, hplus⟩
      obtain ⟨c', hread, -⟩ := hplus.exists_ofText? (.inr rfl)
      obtain ⟨ds', hspells⟩ := hmeets.mp ⟨c', hread⟩
      exact hspells.not_plus hplus
    · intro hnone
      constructor
      · rintro ⟨c', hread⟩
        obtain ⟨sign, ds, rfl | rfl, hspells⟩ := exists_spells hread
        · exact ⟨ds, hspells⟩
        · exact absurd ⟨ds, hspells⟩ hnone
      · rintro ⟨ds, hspells⟩
        obtain ⟨c', hread, -⟩ := hspells.exists_ofText? (.inl rfl)
        exact ⟨c', hread⟩

/-- A plus sign and five digits are read as a colour, though they are no six digits. -/
theorem ofText?_plus :
    ofText? "+abcde" = some ⟨0x0a, 0xbc, 0xde⟩ ∧ (⟨0x0a, 0xbc, 0xde⟩ : Color).text = "#0abcde" ∧
      ¬ ∃ ds, Spells [] ds "+abcde" := by
  have hplus : Spells ['+'] ['a', 'b', 'c', 'd', 'e'] "+abcde" :=
    ⟨rfl, List.all_iff_forall_prop.mp (by decide), .inl rfl⟩
  exact ⟨by decide +kernel, by decide +kernel, fun ⟨_, hspells⟩ => hspells.not_plus hplus⟩

end HouseBoard.Color
