import Mathlib.Data.List.DropRight
import Mathlib.Data.List.Induction

/-!
# Counting repeated conditions

`runLength` is the length of the unbroken run of `true` at the end of a history. A counter
that counts the condition up, starts over at a limit and is cleared when the condition fails
is that length modulo the limit (`countUp_runLength`), and it reaches the limit exactly when
the length is a positive multiple of it (`limit_reached_iff`).
-/

namespace NetMon.Lib

/-- The length of the run of `true` the history ends with. -/
def runLength (history : List Bool) : Nat := (history.rtakeWhile id).length

theorem runLength_concat (history : List Bool) (b : Bool) :
    runLength (history ++ [b]) = if b then runLength history + 1 else 0 := by
  unfold runLength
  rw [List.rtakeWhile_concat]
  cases b with
  | false => rfl
  | true => simp

/-- The counter after one more reading of the condition. -/
def countUp (limit : Nat) (b : Bool) (n : Nat) : Nat :=
  if b then (if n + 1 ≥ limit then 0 else n + 1) else 0

variable {limit : Nat}

/-- The counter is the run's length modulo the limit. -/
theorem countUp_runLength (hlimit : 0 < limit) (history : List Bool) (b : Bool) :
    countUp limit b (runLength history % limit) = runLength (history ++ [b]) % limit := by
  have hlt := Nat.mod_lt (runLength history) hlimit
  rw [runLength_concat]
  unfold countUp
  cases b with
  | false => rfl
  | true =>
    rw [if_pos rfl, if_pos rfl, ← Nat.mod_add_mod]
    by_cases h : runLength history % limit + 1 ≥ limit
    · rw [if_pos h, show runLength history % limit + 1 = limit by omega, Nat.mod_self]
    · have hstep : runLength history % limit + 1 < limit := not_le.mp h
      rw [if_neg h, Nat.mod_eq_of_lt hstep]

/-- The counter reaches the limit when the run's length is a positive multiple of it. -/
theorem limit_reached_iff (hlimit : 0 < limit) (history : List Bool) (b : Bool) :
    (b = true ∧ limit ≤ runLength history % limit + 1) ↔
      0 < runLength (history ++ [b]) ∧ limit ∣ runLength (history ++ [b]) := by
  have hlt := Nat.mod_lt (runLength history) hlimit
  rw [runLength_concat]
  cases b with
  | false => simp
  | true =>
    rw [if_pos rfl, Nat.dvd_iff_mod_eq_zero, ← Nat.mod_add_mod]
    by_cases h : limit ≤ runLength history % limit + 1
    · rw [show runLength history % limit + 1 = limit by omega, Nat.mod_self]
      simp
    · have hstep : runLength history % limit + 1 < limit := not_le.mp h
      rw [Nat.mod_eq_of_lt hstep]
      simp [h]

/-- A failure in front of a history does not lengthen the run at its end. -/
theorem runLength_cons_false (history : List Bool) :
    runLength (false :: history) = runLength history := by
  induction history using List.reverseRecOn with
  | nil => rfl
  | append_singleton history b ih =>
    rw [← List.cons_append, runLength_concat, runLength_concat, ih]

/-- A condition that is looked at from some point on has the same run whether the part
before counts as failures or is left out. -/
theorem runLength_filter {α : Type*} {p q : α → Bool} {l : List α}
    (hp : l.Pairwise fun x y => p x = true → p y = true) :
    runLength ((l.filter p).map q) = runLength (l.map fun x => p x && q x) := by
  induction l with
  | nil => rfl
  | cons x l ih =>
    rw [List.pairwise_cons] at hp
    cases hx : p x with
    | true =>
      have hall : ∀ y ∈ x :: l, p y = true :=
        List.forall_mem_cons.mpr ⟨hx, fun y hy => hp.1 y hy hx⟩
      rw [List.filter_eq_self.mpr hall]
      exact congrArg _ (List.map_congr_left fun y hy => by rw [hall y hy, Bool.true_and])
    | false =>
      rw [List.filter_cons_of_neg (by simp [hx]), ih hp.2, List.map_cons, hx, Bool.false_and]
      exact (runLength_cons_false _).symm

end NetMon.Lib
