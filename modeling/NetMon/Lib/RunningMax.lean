import Mathlib.Order.MinMax

/-!
# Running maxima

`for (…) if (x > max) max = x;` over a list. In a machine type the loop is followed through an
order-preserving reading of its words (`foldl_gt_key`); of the result all that matters is
`foldl_max_le_iff` and that it is one of the values (`foldl_max_mem`).
-/

namespace NetMon.Lib

variable {α β : Type*} [LinearOrder α]

/-- A bound of the result bounds every value. -/
theorem foldl_max_le_iff {l : List α} {a b : α} : l.foldl max a ≤ b ↔ a ≤ b ∧ ∀ x ∈ l, x ≤ b := by
  induction l generalizing a with
  | nil => simp
  | cons x l ih => rw [List.foldl_cons, ih, max_le_iff, List.forall_mem_cons, and_assoc]

theorem foldl_max_mem (l : List α) (a : α) : l.foldl max a = a ∨ l.foldl max a ∈ l := by
  induction l generalizing a with
  | nil => exact .inl rfl
  | cons x l ih =>
    rw [List.foldl_cons]
    rcases ih (max a x) with heq | hmem
    · rw [heq]
      rcases le_total a x with hle | hge
      · rw [max_eq_right hle]
        exact .inr List.mem_cons_self
      · exact .inl (max_eq_left hge)
    · exact .inr (List.mem_cons_of_mem _ hmem)

/-- The loop on words that are compared by their keys. -/
theorem foldl_gt_key {key : β → α} {gt : β → β → Prop} [DecidableRel gt]
    (hgt : ∀ x m, gt x m ↔ key m < key x) (l : List β) (m : β) :
    key (l.foldl (fun m x => if gt x m then x else m) m) = (l.map key).foldl max (key m) := by
  induction l generalizing m with
  | nil => rfl
  | cons x l ih =>
    rw [List.foldl_cons, List.map_cons, List.foldl_cons, ih]
    congr 1
    split
    · rename_i h
      exact (max_eq_right ((hgt x m).mp h).le).symm
    · rename_i h
      exact (max_eq_left (not_lt.mp fun hlt => h ((hgt x m).mpr hlt))).symm

end NetMon.Lib
