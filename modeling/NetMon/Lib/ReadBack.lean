import NetMon.Lib.CJsonParse
import Mathlib.Algebra.Order.Field.Rat
import Mathlib.Tactic.FieldSimp
import Mathlib.Tactic.Linarith

/-!
# Numbers read back

What a number comes to when a document is printed and parsed (`readBack`). Integers of up to
fifteen digits come back as they are (`readBack_int`): they are doubles, and `%1.15g` writes all of
their digits.
-/

namespace NetMon.Lib

/-! ## Integers as doubles -/

theorem roundEven_int (z : Int) : roundEven (z : ℚ) = z := by
  unfold roundEven
  rw [Int.fract_intCast, if_pos (by norm_num), Int.floor_intCast]

theorem log_natAbs (b : Nat) (z : Int) : Int.log b |(z : ℚ)| = Nat.log b z.natAbs := by
  have habs : |(z : ℚ)| = (z.natAbs : ℚ) := by rw [Nat.cast_natAbs, Int.cast_abs]
  rw [habs, Int.log_natCast]

/-- An integer of 53 bits is a double. -/
theorem toDouble_int {z : Int} (hz : z.natAbs < 2 ^ 53) : toDouble (z : ℚ) = z := by
  unfold toDouble
  split
  · next h => exact h.symm
  · next h =>
    have hne : z.natAbs ≠ 0 := fun h0 => h (by rw [Int.natAbs_eq_zero.mp h0, Int.cast_zero])
    have hlog : Nat.log 2 z.natAbs < 53 := Nat.log_lt_of_lt_pow hne hz
    obtain ⟨e, he⟩ : ∃ e : Nat, e = 52 - Nat.log 2 z.natAbs := ⟨_, rfl⟩
    have hexp : max (Int.log 2 |(z : ℚ)|) (-1022) - 52 = -(e : Int) := by
      rw [log_natAbs, max_eq_left (by omega)]
      omega
    have hscaled : (z : ℚ) / 2 ^ (-(e : Int)) = ((z * 2 ^ e : Int) : ℚ) := by
      rw [zpow_neg, zpow_natCast, div_inv_eq_mul]
      push_cast
      rfl
    simp only [hexp, hscaled, roundEven_int]
    rw [zpow_neg, zpow_natCast]
    push_cast
    field_simp

/-! ## Their digits -/

theorem natDigits_length {n : Nat} (hn : n ≠ 0) : (natDigits n).length = Nat.log 10 n + 1 := by
  rw [natDigits, if_neg hn, List.length_reverse, List.length_map,
    Nat.length_digits 10 n (by decide) hn]

/-- Zeros are appended by a power of ten. -/
theorem natDigits_mul_pow {n : Nat} (hn : n ≠ 0) (k : Nat) :
    natDigits (n * 10 ^ k) = natDigits n ++ List.replicate k 0 := by
  have hpos : n * 10 ^ k ≠ 0 := Nat.mul_ne_zero hn (Nat.pow_pos (by decide)).ne'
  rw [natDigits, natDigits, if_neg hn, if_neg hpos, Nat.mul_comm,
    Nat.digits_base_pow_mul (by decide) (Nat.pos_of_ne_zero hn), List.map_append,
    List.map_replicate, List.reverse_append, List.reverse_replicate]
  rfl

theorem stripZeros_zeros (k : Nat) : stripZeros (List.replicate k 0) = [] := by
  rw [stripZeros, List.rdropWhile_eq_nil_iff]
  exact fun d hd => by simp [List.eq_of_mem_replicate hd]

/-- The value of a numeral of digits alone. -/
theorem numeral_value_digits {neg : Bool} {ds : List (Fin 10)} (hne : ds ≠ []) :
    Numeral.value ⟨neg, ds, [], none, hne⟩ =
      if neg then -(digitsVal (digitBytes ds) : ℚ) else digitsVal (digitBytes ds) := by
  unfold Numeral.value
  have hnil : digitBytes ds ++ digitBytes [] = digitBytes ds := List.append_nil _
  simp only [Option.elim_none, List.length_nil, hnil, Nat.cast_zero, sub_zero, zpow_zero, mul_one]

theorem signed_natAbs (z : Int) :
    (if decide (z < 0) = true then -(z.natAbs : ℚ) else z.natAbs) = z := by
  by_cases h : z < 0
  · rw [if_pos (decide_eq_true h), Nat.cast_natAbs, abs_of_neg h, Int.cast_neg, neg_neg]
  · rw [if_neg (by simpa using h), Nat.cast_natAbs, abs_of_nonneg (not_lt.mp h)]

theorem Numeral.ofInt_value (z : Int) : (Numeral.ofInt z).value = z := by
  rw [Numeral.ofInt, numeral_value_digits, digitsVal_natDigits, signed_natAbs]

/-- Enough places show an integer whole. -/
theorem formatG_int {prec : Nat} {z : Int} (hz : z ≠ 0) (hlt : z.natAbs < 10 ^ prec) :
    (formatG prec (z : ℚ)).value = z := by
  have hne : z.natAbs ≠ 0 := Int.natAbs_ne_zero.mpr hz
  have hlog : Nat.log 10 z.natAbs < prec := Nat.log_lt_of_lt_pow hne hlt
  have hlen := natDigits_length hne
  obtain ⟨k, hk⟩ : ∃ k, prec = Nat.log 10 z.natAbs + 1 + k := ⟨prec - (Nat.log 10 z.natAbs + 1), by
    omega⟩
  have habs : |(z : ℚ)| = (z.natAbs : ℚ) := by rw [Nat.cast_natAbs, Int.cast_abs]
  have hscaled : |(z : ℚ)| / 10 ^ ((Nat.log 10 z.natAbs : Int) - ((prec : Int) - 1)) =
      ((z.natAbs * 10 ^ k : Int) : ℚ) := by
    have hexp : (Nat.log 10 z.natAbs : Int) - ((prec : Int) - 1) = -(k : Int) := by
      rw [hk]
      push_cast
      omega
    rw [hexp, zpow_neg, zpow_natCast, div_inv_eq_mul]
    push_cast
    rfl
  have hsci : scientific prec |(z : ℚ)| = (z.natAbs * 10 ^ k, (Nat.log 10 z.natAbs : Int)) := by
    have hround : (roundEven (((z.natAbs * 10 ^ k : Int) : ℚ))).toNat = z.natAbs * 10 ^ k := by
      rw [roundEven_int]
      have hcast : ((z.natAbs : Int) * 10 ^ k) = ((z.natAbs * 10 ^ k : Nat) : Int) := by
        push_cast
        rfl
      rw [hcast, Int.toNat_natCast]
    have hless : z.natAbs * 10 ^ k < 10 ^ prec := by
      have hdigit := Nat.lt_pow_succ_log_self (b := 10) (by decide) z.natAbs
      calc z.natAbs * 10 ^ k
          < 10 ^ (Nat.log 10 z.natAbs + 1) * 10 ^ k :=
            Nat.mul_lt_mul_of_pos_right hdigit (Nat.pow_pos (by decide))
        _ = 10 ^ prec := by rw [← Nat.pow_add, hk]
    unfold scientific
    simp only [log_natAbs, hscaled, hround]
    rw [if_neg hless.ne]
  have hsign : decide ((z : ℚ) < 0) = decide (z < 0) := decide_eq_decide.mpr Int.cast_lt_zero
  have htake : (natDigits z.natAbs ++ List.replicate k 0).take (Nat.log 10 z.natAbs + 1) =
      natDigits z.natAbs := by rw [← hlen, List.take_left]
  have hdrop : (natDigits z.natAbs ++ List.replicate k 0).drop (Nat.log 10 z.natAbs + 1) =
      List.replicate k 0 := by rw [← hlen, List.drop_left]
  unfold formatG
  simp only [hsci, natDigits_mul_pow hne, Int.toNat_natCast, htake, hdrop, stripZeros_zeros, hsign]
  rw [if_pos (by omega), numeral_value_digits, digitsVal_natDigits, signed_natAbs]

/-! ## Numbers in documents -/

namespace CJson

/-- A number that was printed and parsed. -/
def readBack (v : ℚ) : ℚ := toDouble (printNumber v).value

/-- Integers of up to fifteen digits come back. -/
theorem readBack_int {z : Int} (hz : z.natAbs < 10 ^ 15) : readBack (z : ℚ) = z := by
  have hdouble : toDouble (z : ℚ) = z := toDouble_int (hz.trans (by norm_num))
  unfold readBack printNumber
  simp only [hdouble]
  split
  · next hint => rw [Numeral.ofInt_value, ← hint, hdouble]
  · next hint =>
    have hne : z ≠ 0 := by
      rintro rfl
      exact hint rfl
    have hvalue := formatG_int hne hz
    have htest : compareDouble (z : ℚ) z = true := by
      rw [compareDouble, decide_eq_true_eq, sub_self, abs_zero]
      positivity
    simp only [strtod_numeral, hvalue, hdouble, htest, if_true]

theorem readBack_nat {n : Nat} (hn : n < 10 ^ 15) : readBack (n : ℚ) = n := by
  have := readBack_int (z := (n : Int)) hn
  exact_mod_cast this

end CJson

end NetMon.Lib
