import Mathlib.Algebra.BigOperators.Group.List.Basic
import Mathlib.Data.Nat.ModEq

/-!
# One's complement sums

Words below `2 ^ w` are added with end-around carry: what does not fit comes back at the
bottom. `rep` is the value such a sum has, the representative modulo `2 ^ w - 1` that is zero
for zero alone.

* `onesSum_eq`: the sum of a list of words is the representative of their sum.
* `rep_fold`: adding the part above `w` bits to the rest keeps the representative, and a
  number of `w` bits is its own (`rep_of_lt`), so folding may stop there.
* `rep_complement`: with the complement of its representative a number sums to all ones.
-/

namespace NetMon.Lib

/-- Addition of two words with end-around carry. -/
def onesAdd (w a b : Nat) : Nat := (a + b) % 2 ^ w + (a + b) / 2 ^ w

def onesSum (w : Nat) (ws : List Nat) : Nat := ws.foldl (onesAdd w) 0

namespace OnesComplement

/-- The one's complement value of a number. -/
def rep (w n : Nat) : Nat := if n = 0 then 0 else (n - 1) % (2 ^ w - 1) + 1

/-- What is above `w` bits, added to the rest. -/
def fold (w n : Nat) : Nat := n % 2 ^ w + n / 2 ^ w

variable {w : Nat}

theorem two_le_two_pow (hw : 0 < w) : 2 ≤ 2 ^ w := by
  calc 2 = 2 ^ 1 := rfl
    _ ≤ 2 ^ w := Nat.pow_le_pow_right (by omega) hw

theorem rep_of_lt {n : Nat} (h : n < 2 ^ w) : rep w n = n := by
  unfold rep
  split
  · omega
  · rw [Nat.mod_eq_of_lt (by omega)]
    omega

/-- Numbers with the same value: both or neither are zero, and they agree modulo `2 ^ w - 1`. -/
theorem rep_congr {m n : Nat} (hzero : m = 0 ↔ n = 0) (hmod : m ≡ n [MOD 2 ^ w - 1]) :
    rep w m = rep w n := by
  unfold rep
  by_cases hm : m = 0
  · rw [if_pos hm, if_pos (hzero.mp hm)]
  · have hn : n ≠ 0 := fun h => hm (hzero.mpr h)
    rw [if_neg hm, if_neg hn]
    have hpred : m - 1 ≡ n - 1 [MOD 2 ^ w - 1] := by
      apply Nat.ModEq.add_right_cancel' 1
      rwa [Nat.sub_add_cancel (by omega), Nat.sub_add_cancel (by omega)]
    rw [hpred]

theorem fold_modEq (n : Nat) : fold w n ≡ n [MOD 2 ^ w - 1] := by
  have hone : 2 ^ w ≡ 1 [MOD 2 ^ w - 1] :=
    ((Nat.modEq_iff_dvd' Nat.one_le_two_pow).mpr dvd_rfl).symm
  calc fold w n ≡ n % 2 ^ w + 1 * (n / 2 ^ w) [MOD 2 ^ w - 1] := by rw [fold, Nat.one_mul]
    _ ≡ n % 2 ^ w + 2 ^ w * (n / 2 ^ w) [MOD 2 ^ w - 1] :=
        Nat.ModEq.rfl.add (hone.symm.mul Nat.ModEq.rfl)
    _ = n := Nat.mod_add_div n (2 ^ w)

theorem fold_eq_zero {n : Nat} : fold w n = 0 ↔ n = 0 := by
  have hsplit := Nat.mod_add_div n (2 ^ w)
  unfold fold
  constructor
  · intro h
    obtain ⟨hlow, hhigh⟩ := Nat.add_eq_zero_iff.mp h
    rw [hlow, hhigh] at hsplit
    simpa using hsplit.symm
  · rintro rfl
    simp

theorem rep_fold (n : Nat) : rep w (fold w n) = rep w n :=
  rep_congr fold_eq_zero (fold_modEq n)

/-- Folding makes a number that does not fit smaller. -/
theorem fold_lt {n : Nat} (h : 2 ^ w ≤ n) (hw : 0 < w) : fold w n < n := by
  have hsplit := Nat.mod_add_div n (2 ^ w)
  have htwo := two_le_two_pow hw
  have hpos : 0 < n / 2 ^ w := Nat.div_pos h (Nat.two_pow_pos w)
  have hgrow : 2 * (n / 2 ^ w) ≤ 2 ^ w * (n / 2 ^ w) := Nat.mul_le_mul_right _ htwo
  unfold fold
  omega

theorem rep_lt (n : Nat) (hw : 0 < w) : rep w n < 2 ^ w := by
  have htwo := two_le_two_pow hw
  unfold rep
  split
  · omega
  · have := Nat.mod_lt (n - 1) (by omega : 0 < 2 ^ w - 1)
    omega

theorem rep_modEq (n : Nat) : rep w n ≡ n [MOD 2 ^ w - 1] := by
  unfold rep
  split
  · next h => rw [h]
  · next h =>
    calc (n - 1) % (2 ^ w - 1) + 1 ≡ n - 1 + 1 [MOD 2 ^ w - 1] :=
          (Nat.mod_modEq _ _).add_right 1
      _ = n := by omega

theorem rep_eq_zero {n : Nat} : rep w n = 0 ↔ n = 0 := by
  unfold rep
  split
  · next h => exact iff_of_true rfl h
  · next h => exact iff_of_false (Nat.succ_ne_zero _) h

/-- A word may be added before or after the representative is taken. -/
theorem rep_add (m n : Nat) : rep w (rep w m + n) = rep w (m + n) := by
  refine rep_congr ?_ ((rep_modEq m).add_right n)
  have := rep_eq_zero (w := w) (n := m)
  omega

/-- Two words carry at most once. -/
theorem onesAdd_eq {a b : Nat} (ha : a < 2 ^ w) (hb : b < 2 ^ w) :
    onesAdd w a b = rep w (a + b) := by
  have hfit : fold w (a + b) < 2 ^ w := by
    unfold fold
    by_cases hcarry : a + b < 2 ^ w
    · rw [Nat.mod_eq_of_lt hcarry, Nat.div_eq_of_lt hcarry]
      omega
    · have hone : (a + b) / 2 ^ w = 1 := Nat.div_eq_of_lt_le (by omega) (by omega)
      have hsplit := Nat.mod_add_div (a + b) (2 ^ w)
      rw [hone] at hsplit ⊢
      omega
  calc onesAdd w a b = fold w (a + b) := rfl
    _ = rep w (fold w (a + b)) := (rep_of_lt hfit).symm
    _ = rep w (a + b) := rep_fold _

theorem foldl_onesAdd (hw : 0 < w) {ws : List Nat} (hws : ∀ v ∈ ws, v < 2 ^ w) {a : Nat}
    (ha : a < 2 ^ w) : ws.foldl (onesAdd w) a = rep w (a + ws.sum) := by
  induction ws generalizing a with
  | nil => exact (rep_of_lt ha).symm
  | cons v ws ih =>
    rw [List.forall_mem_cons] at hws
    rw [List.foldl_cons, onesAdd_eq ha hws.1, ih hws.2 (rep_lt _ hw), rep_add, List.sum_cons,
      Nat.add_assoc]

/-- The sum of words is the representative of their sum. -/
theorem onesSum_eq (hw : 0 < w) {ws : List Nat} (hws : ∀ v ∈ ws, v < 2 ^ w) :
    onesSum w ws = rep w ws.sum := by
  rw [onesSum, foldl_onesAdd hw hws (Nat.two_pow_pos w), Nat.zero_add]

/-- A number and the complement of its representative. -/
theorem rep_complement (hw : 0 < w) (n : Nat) :
    rep w (n + (2 ^ w - 1 - rep w n)) = 2 ^ w - 1 := by
  have hpow := two_le_two_pow hw
  have hrep := rep_lt n hw
  have hzero : n + (2 ^ w - 1 - rep w n) = 0 ↔ 2 ^ w - 1 = 0 := by
    have := rep_eq_zero (w := w) (n := n)
    omega
  have hmod : n + (2 ^ w - 1 - rep w n) ≡ 2 ^ w - 1 [MOD 2 ^ w - 1] :=
    calc n + (2 ^ w - 1 - rep w n) ≡ rep w n + (2 ^ w - 1 - rep w n) [MOD 2 ^ w - 1] :=
          (rep_modEq n).symm.add_right _
      _ = 2 ^ w - 1 := by omega
  rw [rep_congr hzero hmod, rep_of_lt (by omega)]

end OnesComplement

end NetMon.Lib
