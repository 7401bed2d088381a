/-
HouseBoard.Proofs.Store — the store as a map from numbers to slots.

`Store.get?` is the view through which everything else looks at a store.  Each operation has one
equation on that view, and two updates of one slot are one update.
-/
import HouseBoard.Board.Store

namespace HouseBoard

namespace Store

/-! ## Section 1 — operations seen through `get?` -/

/-- An update is seen at its number alone. -/
theorem get?_update (s : Store) (id j : ViewId) (f : Slot → Slot) :
    (s.update id f).get? j = if j = id then (s.get? j).map f else s.get? j := by
  obtain ⟨slots⟩ := s
  induction slots with
  | nil => simp [get?, update]
  | cons e es ih =>
    obtain ⟨k, slot⟩ := e
    simp only [get?, update, List.map_cons] at ih ⊢
    by_cases hk : k = id
    · subst hk
      by_cases hj : j = k
      · simp [hj]
      · simpa [List.lookup_cons, hj, beq_false_of_ne hj] using ih
    · by_cases hj : j = k
      · subst hj
        simp [hk]
      · simpa [List.lookup_cons, hk, beq_false_of_ne hj] using ih

/-- What is taken away is gone, and nothing else is. -/
theorem get?_remove (s : Store) (id j : ViewId) :
    (s.remove id).get? j = if j = id then none else s.get? j := by
  obtain ⟨slots⟩ := s
  induction slots with
  | nil => simp [get?, remove]
  | cons e es ih =>
    obtain ⟨k, slot⟩ := e
    simp only [get?, remove] at ih ⊢
    by_cases hk : k = id
    · subst hk
      by_cases hj : j = k
      · simpa [hj] using ih
      · simpa [List.lookup_cons, hj, beq_false_of_ne hj] using ih
    · by_cases hj : j = k
      · subst hj
        simp [hk]
      · simpa [List.lookup_cons, hk, beq_false_of_ne hj] using ih

/-- What is put under a number is found there. -/
theorem get?_put (s : Store) (id j : ViewId) (slot : Slot) :
    (s.put id slot).get? j = if j = id then some slot else s.get? j := by
  have hrest := get?_remove s id j
  simp only [get?, put] at hrest ⊢
  rw [List.lookup_append, hrest]
  by_cases hj : j = id
  · simp [hj]
  · simp [hj, List.lookup_cons, beq_false_of_ne hj]

/-! ## Section 2 — updates of one slot -/

theorem update_id (s : Store) (id : ViewId) : s.update id (fun slot => slot) = s := by
  simp [update]

theorem update_update (s : Store) (id : ViewId) (f g : Slot → Slot) :
    (s.update id f).update id g = s.update id fun slot => g (f slot) := by
  simp only [update, List.map_map, mk.injEq, List.map_inj_left]
  intro e _
  by_cases he : e.1 = id <;> simp [he]

end Store

end HouseBoard
