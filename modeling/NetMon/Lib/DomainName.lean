import Mathlib.Algebra.BigOperators.Group.List.Basic
import Mathlib.Algebra.GroupWithZero.Nat
import NetMon.Lib.Tokens

/-!
# Domain names

* `wireName` is a name on the wire: each label behind its length, then the root label, a
  length of zero. `decodeName` reads one from the front of a packet, and what is laid out with
  labels that fit comes back (`decodeName_wireName`).
* `labels` are the labels of a dotted name; a dot behind the last one is ignored. They are read
  from the front like the fields they are (`labels_append`).
-/

namespace NetMon.Lib

/-! ## On the wire -/

/-- A label's length fits in six bits and is not the root's. -/
def LabelFits (l : Bytes) : Prop := 1 ≤ l.length ∧ l.length ≤ 63

instance (l : Bytes) : Decidable (LabelFits l) := inferInstanceAs (Decidable (_ ∧ _))

def wireLabel (l : Bytes) : Bytes := UInt8.ofNat l.length :: l

def wireName (ls : List Bytes) : Bytes := ls.flatMap wireLabel ++ [0]

theorem wireName_cons (l : Bytes) (ls : List Bytes) :
    wireName (l :: ls) = wireLabel l ++ wireName ls := by
  rw [wireName, List.flatMap_cons, List.append_assoc]
  rfl

theorem wireName_length (ls : List Bytes) :
    (wireName ls).length = (ls.map fun l => l.length + 1).sum + 1 := by
  induction ls with
  | nil => rfl
  | cons l ls ih =>
    rw [wireName_cons, List.length_append, ih, List.map_cons, List.sum_cons, wireLabel,
      List.length_cons]
    omega

/-- The labels up to the root's, and what is behind it. -/
def decodeName : Bytes → Option (List Bytes × Bytes)
  | [] => none
  | b :: rest =>
    if b = 0 then some ([], rest)
    else if b.toNat > 63 ∨ rest.length < b.toNat then none
    else (decodeName (rest.drop b.toNat)).map fun r => (rest.take b.toNat :: r.1, r.2)
termination_by m => m.length
decreasing_by
  rw [List.length_drop, List.length_cons]
  omega

theorem decodeName_wireLabel {l : Bytes} (h : LabelFits l) (rest : Bytes) :
    decodeName (wireLabel l ++ rest) = (decodeName rest).map fun r => (l :: r.1, r.2) := by
  obtain ⟨hpos, hle⟩ := h
  have hlen : (UInt8.ofNat l.length).toNat = l.length := by
    rw [UInt8.toNat_ofNat', Nat.mod_eq_of_lt (by omega)]
  have hne : UInt8.ofNat l.length ≠ 0 := by
    intro h0
    rw [h0] at hlen
    exact absurd hlen.symm (by simp only [UInt8.toNat_zero]; omega)
  have hroom : ¬ (l.length > 63 ∨ (l ++ rest).length < l.length) := by
    rw [List.length_append]
    omega
  rw [wireLabel, List.cons_append, decodeName, if_neg hne, hlen, if_neg hroom, List.take_left,
    List.drop_left]

/-- **Laid out and read back**, a name's labels are the same, with anything behind them. -/
theorem decodeName_wireName {ls : List Bytes} (h : ∀ l ∈ ls, LabelFits l) (rest : Bytes) :
    decodeName (wireName ls ++ rest) = some (ls, rest) := by
  induction ls with
  | nil =>
    show decodeName (0 :: rest) = _
    rw [decodeName, if_pos rfl]
  | cons l ls ih =>
    rw [List.forall_mem_cons] at h
    rw [wireName_cons, List.append_assoc, decodeName_wireLabel h.1, ih h.2]
    rfl

/-! ## With dots -/

/-- A dot at the end goes, behind a label that is not empty. -/
def stripDot (name : Bytes) : Bytes :=
  if name.getLast? = some 46 ∧ ∃ b ∈ name.dropLast.getLast?, b ≠ 46 then name.dropLast else name

/-- The empty name is the root, and has no labels. -/
def labels (name : Bytes) : List Bytes :=
  if name = [] then [] else (stripDot name).splitOn 46

theorem stripDot_of_notMem {l : Bytes} (h : 46 ∉ l) : stripDot l = l := by
  rw [stripDot, if_neg]
  rintro ⟨hlast, -⟩
  exact h (List.mem_of_getLast? hlast)

/-- A dot behind a label that is the last byte goes. -/
theorem stripDot_append_dot {l : Bytes} (hne : l ≠ []) (h : 46 ∉ l) :
    stripDot (l ++ [46]) = l := by
  have hlast := List.getLast?_eq_some_getLast hne
  rw [stripDot, List.getLast?_concat, List.dropLast_concat, if_pos]
  refine ⟨rfl, l.getLast hne, hlast, ?_⟩
  rintro heq
  exact h (heq ▸ List.getLast_mem hne)

/-- Elsewhere it is what is behind it that counts. -/
theorem stripDot_append_cons (l : Bytes) {rest : Bytes} (hne : rest ≠ []) :
    stripDot (l ++ 46 :: rest) = l ++ 46 :: stripDot rest := by
  have hdrop : (l ++ 46 :: rest).dropLast = l ++ 46 :: rest.dropLast := by
    rw [List.dropLast_append_of_ne_nil (List.cons_ne_nil _ _), List.dropLast_cons_of_ne_nil hne]
  have hlast : (l ++ 46 :: rest).getLast? = rest.getLast? := by
    rw [List.getLast?_append_of_ne_nil _ (List.cons_ne_nil _ _), List.getLast?_cons,
      List.getLast?_eq_some_getLast hne]
    rfl
  have hinner : (∃ b ∈ (l ++ 46 :: rest.dropLast).getLast?, b ≠ 46) ↔
      ∃ b ∈ rest.dropLast.getLast?, b ≠ 46 := by
    rw [List.getLast?_append_of_ne_nil _ (List.cons_ne_nil _ _), List.getLast?_cons]
    cases rest.dropLast.getLast? <;> simp
  unfold stripDot
  rw [hdrop, hlast]
  simp only [hinner]
  split <;> rfl

theorem labels_nil : labels [] = [] := rfl

/-- The first label of a name is what is in front of its first dot. -/
theorem labels_append {l tail : Bytes} (hne : l ≠ []) (h : 46 ∉ l) (htail : IsTail 46 tail) :
    labels (l ++ tail) = l :: labels (tail.drop 1) := by
  cases tail with
  | nil =>
    rw [List.append_nil, labels, if_neg hne, stripDot_of_notMem h, List.splitOn_eq_singleton h]
    rfl
  | cons b rest =>
    obtain rfl : b = 46 := htail b rfl
    rw [labels, if_neg (by simp), List.drop_one, List.tail_cons]
    by_cases hrest : rest = []
    · rw [hrest, stripDot_append_dot hne h, List.splitOn_eq_singleton h, labels_nil]
    · rw [stripDot_append_cons l hrest, List.splitOn_append_cons_self_of_not_mem h, labels,
        if_neg hrest]

/-- An empty one in front of a dot counts. -/
theorem mem_labels_append {l tail : Bytes} (h : 46 ∉ l) (htail : IsTail 46 tail)
    (hne : l ++ tail ≠ []) : l ∈ labels (l ++ tail) := by
  by_cases hl : l = []
  · subst hl
    cases tail with
    | nil => exact absurd rfl hne
    | cons b rest =>
      obtain rfl : b = 46 := htail b rfl
      rw [labels, if_neg hne]
      by_cases hrest : rest = []
      · rw [hrest]
        decide
      · rw [stripDot_append_cons [] hrest, List.splitOn_append_cons_self_of_not_mem h]
        exact List.mem_cons_self
  · rw [labels_append hl h htail]
    exact List.mem_cons_self

end NetMon.Lib
