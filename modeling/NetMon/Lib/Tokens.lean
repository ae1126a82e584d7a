import Mathlib.Data.List.TakeWhile
import NetMon.Lib.Bytes

/-!
# Separated fields

A byte string falls into fields at a separator (`List.splitOn`). They are read from the front:
a first field without the separator, and behind it nothing or the separator and the rest
(`fields_induction`). `tokens` are the fields that are not empty; `strtok` returns the first
and leaves the others to its next call (`strtok_eq_some`).
-/

namespace NetMon.Lib

/-- What is behind the first field. -/
def IsTail (sep : UInt8) (tail : Bytes) : Prop := ∀ b ∈ tail.head?, b = sep

theorem notMem_takeWhile (sep : UInt8) (s : Bytes) : sep ∉ s.takeWhile (· != sep) := fun h => by
  simpa using List.mem_takeWhile_imp h

theorem isTail_dropWhile (sep : UInt8) (s : Bytes) : IsTail sep (s.dropWhile (· != sep)) := by
  intro b hb
  have hnot := List.head?_dropWhile_not (· != sep) s
  rw [hb] at hnot
  simpa using hnot

/-- A first field is what is in front of the first separator. -/
theorem takeWhile_field {sep : UInt8} {l tail : Bytes} (h : sep ∉ l) (htail : IsTail sep tail) :
    (l ++ tail).takeWhile (· != sep) = l := by
  have hkeep : ∀ b ∈ l, (b != sep) = true := by
    intro b hb
    rw [bne_iff_ne]
    rintro rfl
    exact h hb
  rw [List.takeWhile_append_of_pos hkeep]
  cases tail with
  | nil => exact List.append_nil l
  | cons b rest =>
    obtain rfl : b = sep := htail b rfl
    rw [List.takeWhile_cons_of_neg (by simp), List.append_nil]

/-- A property that a field in front keeps holds of all byte strings. -/
theorem fields_induction (sep : UInt8) {P : Bytes → Prop} (nil : P [])
    (field : ∀ l tail, sep ∉ l → IsTail sep tail → l ++ tail ≠ [] → P (tail.drop 1) →
      P (l ++ tail)) (s : Bytes) : P s := by
  induction hn : s.length using Nat.strong_induction_on generalizing s with
  | _ n ih =>
    by_cases hne : s = []
    · exact hne ▸ nil
    · have hsplit := List.takeWhile_append_dropWhile (p := (· != sep)) (l := s)
      have hle := (List.dropWhile_sublist (l := s) (· != sep)).length_le
      have hpos := List.length_pos_iff.mpr hne
      rw [← hsplit]
      refine field _ _ (notMem_takeWhile sep s) (isTail_dropWhile sep s)
        (by rw [hsplit]; exact hne) (ih _ ?_ _ rfl)
      rw [List.length_drop]
      omega

/-! ## Tokens -/

def tokens (sep : UInt8) (s : Bytes) : List Bytes := (s.splitOn sep).filter (· ≠ [])

theorem tokens_nil (sep : UInt8) : tokens sep [] = [] := rfl

/-- A separator in front does not matter. -/
theorem tokens_sep (sep : UInt8) (s : Bytes) : tokens sep (sep :: s) = tokens sep s := by
  have hsplit := List.splitOn_append_cons_self_of_not_mem (List.not_mem_nil (a := sep)) s
  rw [List.nil_append] at hsplit
  rw [tokens, hsplit, List.filter_cons_of_neg (by simp)]
  rfl

theorem tokens_field {sep : UInt8} {l tail : Bytes} (hne : l ≠ []) (h : sep ∉ l)
    (htail : IsTail sep tail) : tokens sep (l ++ tail) = l :: tokens sep (tail.drop 1) := by
  cases tail with
  | nil =>
    rw [List.append_nil, tokens, List.splitOn_eq_singleton h,
      List.filter_cons_of_pos (by simpa using hne)]
    rfl
  | cons b rest =>
    obtain rfl : b = sep := htail b rfl
    rw [tokens, List.splitOn_append_cons_self_of_not_mem h,
      List.filter_cons_of_pos (by simpa using hne)]
    rfl

theorem tokens_dropWhile (sep : UInt8) (s : Bytes) :
    tokens sep (s.dropWhile (· == sep)) = tokens sep s := by
  induction s with
  | nil => rfl
  | cons b s ih =>
    by_cases hb : b = sep
    · rw [hb, List.dropWhile_cons_of_pos (by simp), tokens_sep, ih]
    · rw [List.dropWhile_cons_of_neg (by simpa using hb)]

/-- The tokens of terminated fields are those that are not empty. -/
theorem tokens_terminated {sep : UInt8} {ls : List Bytes} (h : ∀ l ∈ ls, sep ∉ l) :
    tokens sep (ls.flatMap fun l => l ++ [sep]) = ls.filter (· ≠ []) := by
  induction ls with
  | nil => rfl
  | cons l ls ih =>
    rw [List.forall_mem_cons] at h
    rw [List.flatMap_cons, List.append_assoc, List.singleton_append]
    by_cases hl : l = []
    · rw [hl, List.nil_append, tokens_sep, ih h.2, List.filter_cons_of_neg (by simp)]
    · rw [tokens_field hl h.1 (fun b hb => (Option.mem_some_iff.mp hb).symm),
        List.filter_cons_of_pos (by simpa using hl), ← ih h.2]
      rfl

/-- A token is made of the string's bytes. -/
theorem mem_of_mem_tokens {sep b : UInt8} {s t : Bytes} (ht : t ∈ tokens sep s) (hb : b ∈ t) :
    b ∈ s := by
  induction s using fields_induction sep with
  | nil => simp [tokens_nil] at ht
  | field l tail h htail _ ih =>
    have hrest : t ∈ tokens sep (tail.drop 1) → b ∈ l ++ tail := fun ht =>
      List.mem_append_right _ (List.mem_of_mem_drop (ih ht))
    by_cases hl : l = []
    · subst hl
      cases tail with
      | nil => simp [tokens_nil] at ht
      | cons c rest =>
        obtain rfl : c = sep := htail c rfl
        rw [List.nil_append, tokens_sep] at ht
        exact hrest ht
    · rw [tokens_field hl h htail, List.mem_cons] at ht
      rcases ht with rfl | ht
      · exact List.mem_append_left _ hb
      · exact hrest ht

/-- A call of `strtok` with one separator on what is left: the token, and what the next call
starts from. -/
def strtok (sep : UInt8) (s : Bytes) : Option (Bytes × Bytes) :=
  let s := s.dropWhile (· == sep)
  if s = [] then none else some (s.takeWhile (· != sep), (s.dropWhile (· != sep)).drop 1)

theorem strtok_eq_none {sep : UInt8} {s : Bytes} (h : strtok sep s = none) :
    tokens sep s = [] := by
  rw [← tokens_dropWhile]
  unfold strtok at h
  simp only at h
  split at h
  · rename_i hnil
    rw [hnil, tokens_nil]
  · cases h

/-- A call returns the first token, and the next ones find the others. -/
theorem strtok_eq_some {sep : UInt8} {s tok rest : Bytes} (h : strtok sep s = some (tok, rest)) :
    tokens sep s = tok :: tokens sep rest ∧ rest.length < s.length := by
  have hle := (List.dropWhile_sublist (l := s) (· == sep)).length_le
  have hnot := List.head?_dropWhile_not (· == sep) s
  rw [← tokens_dropWhile]
  unfold strtok at h
  simp only at h
  -- behind the separators there is nothing, or a token with a first byte
  cases hs : s.dropWhile (· == sep) with
  | nil =>
    rw [hs, if_pos rfl] at h
    cases h
  | cons b s' =>
    rw [hs] at h hle hnot
    rw [if_neg (List.cons_ne_nil _ _), Option.some.injEq, Prod.mk.injEq] at h
    obtain ⟨rfl, rfl⟩ := h
    have hb : (b != sep) = true := by simpa using hnot
    have hne : (b :: s').takeWhile (· != sep) ≠ [] := by
      rw [List.takeWhile_cons, if_pos hb]
      exact List.cons_ne_nil _ _
    have hrest := (List.dropWhile_sublist (l := b :: s') (· != sep)).length_le
    refine ⟨?_, ?_⟩
    · conv_lhs => rw [← List.takeWhile_append_dropWhile (p := (· != sep)) (l := b :: s')]
      exact tokens_field hne (notMem_takeWhile sep _) (isTail_dropWhile sep _)
    · rw [List.length_drop]
      rw [List.length_cons] at hle hrest
      omega

/-! ## Joined fields -/

theorem intercalate_concat {α : Type*} (sep : List α) {ls : List (List α)} (h : ls ≠ [])
    (l : List α) : sep.intercalate (ls ++ [l]) = sep.intercalate ls ++ (sep ++ l) := by
  induction ls with
  | nil => exact absurd rfl h
  | cons x xs ih =>
    cases xs with
    | nil => simp
    | cons y ys =>
      have hrest := ih (List.cons_ne_nil y ys)
      rw [List.cons_append, List.cons_append, List.intercalate_cons_cons, ← List.cons_append,
        hrest, List.intercalate_cons_cons]
      simp only [List.append_assoc]

/-- A field is made of the string's bytes. -/
theorem mem_of_mem_splitOn {sep b : UInt8} {s t : Bytes} (ht : t ∈ s.splitOn sep) (hb : b ∈ t) :
    b ∈ s := by
  have htok : t ∈ tokens sep s :=
    List.mem_filter.mpr ⟨ht, decide_eq_true (List.ne_nil_of_mem hb)⟩
  exact mem_of_mem_tokens htok hb

end NetMon.Lib
