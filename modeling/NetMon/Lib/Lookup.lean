import Mathlib.Data.List.Basic

/-!
# Tables searched from the front

A table of rows that is read at the first row meeting a test. `find?_modify_self` and
`find?_modify_other` say what a search sees after the first such row was changed.
-/

namespace NetMon.Lib

variable {α : Type*} {p q : α → Bool} {f : α → α} {rows : List α} {idx : Nat}

/-- The changed row has no row meeting the test in front of it. -/
theorem modify_split (f : α → α) (hidx : rows.findIdx? p = some idx) :
    ∃ front a back, rows = front ++ a :: back ∧ front.find? p = none ∧ p a = true ∧
      rows.modify idx f = front ++ f a :: back := by
  induction rows generalizing idx with
  | nil => cases hidx
  | cons a rows ih =>
    rw [List.findIdx?_cons] at hidx
    by_cases ha : p a = true
    · rw [if_pos ha] at hidx
      cases hidx
      exact ⟨[], a, rows, rfl, rfl, ha, List.modify_zero_cons ..⟩
    · rw [if_neg ha] at hidx
      obtain ⟨j, hj, rfl⟩ := Option.map_eq_some_iff.mp hidx
      obtain ⟨front, b, back, rfl, hfront, hb, hmodify⟩ := ih hj
      refine ⟨a :: front, b, back, rfl, ?_, hb, ?_⟩
      · rw [List.find?_cons_of_neg ha, hfront]
      · rw [List.modify_succ_cons, hmodify, List.cons_append]

/-- The changed row is found in place of the old one. -/
theorem find?_modify_self (hf : ∀ a, p (f a) = p a) (hidx : rows.findIdx? p = some idx) :
    (rows.modify idx f).find? p = (rows.find? p).map f := by
  obtain ⟨front, a, back, rfl, hfront, ha, hmodify⟩ := modify_split f hidx
  rw [hmodify, List.find?_append, List.find?_append, hfront, Option.none_or, Option.none_or,
    List.find?_cons_of_pos ((hf a).trans ha), List.find?_cons_of_pos ha, Option.map_some]

/-- A search for other rows sees no change. -/
theorem find?_modify_other (hf : ∀ a, p a = true → q a = false ∧ q (f a) = false)
    (hidx : rows.findIdx? p = some idx) : (rows.modify idx f).find? q = rows.find? q := by
  obtain ⟨front, a, back, rfl, -, ha, hmodify⟩ := modify_split f hidx
  obtain ⟨hq, hqf⟩ := hf a ha
  rw [hmodify, List.find?_append, List.find?_append, List.find?_cons_of_neg (by simp [hqf]),
    List.find?_cons_of_neg (by simp [hq])]

end NetMon.Lib
