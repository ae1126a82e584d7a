import Mathlib.Data.Int.Log
import Mathlib.Data.Nat.Digits.Lemmas
import NetMon.Lib.CNum

/-!
# Numbers as text

* `toDouble` rounds a rational to the nearest `double`; the infinities are left out.
* A `Numeral` is the text `printf` makes of a number: `Numeral.ofInt` is `%d` and
  `formatG` is `%1.<prec>g`.
* `strtod` reads decimal text. It reads a numeral to its end (`strtod_numeral`).
-/

namespace NetMon.Lib

/-! ## Doubles -/

/-- The nearest integer, the even one of two. -/
def roundEven (q : ℚ) : Int :=
  if Int.fract q < 1 / 2 then ⌊q⌋
  else if 1 / 2 < Int.fract q then ⌊q⌋ + 1
  else if ⌊q⌋ % 2 = 0 then ⌊q⌋
  else ⌊q⌋ + 1

/-- The nearest number with 53 significant bits, none of them below `2 ^ -1074`. -/
def toDouble (q : ℚ) : ℚ :=
  if q = 0 then 0
  else
    let ulp : ℚ := 2 ^ (max (Int.log 2 |q|) (-1022) - 52)
    roundEven (q / ulp) * ulp

/-! ## Numerals -/

/-- The decimal digits of a number, the highest first. -/
def natDigits (n : Nat) : List (Fin 10) :=
  if n = 0 then [0] else ((Nat.digits 10 n).map (Fin.ofNat 10)).reverse

theorem natDigits_ne_nil (n : Nat) : natDigits n ≠ [] := by
  unfold natDigits
  split
  · exact List.cons_ne_nil _ _
  · next h =>
    rw [Ne, List.reverse_eq_nil_iff, List.map_eq_nil_iff]
    exact Nat.digits_ne_nil_iff_ne_zero.mpr h

/-- A sign, digits, the digits behind a point, and a power of ten. -/
structure Numeral where
  neg : Bool
  int : List (Fin 10)
  frac : List (Fin 10)
  exp : Option Int
  int_ne_nil : int ≠ []

def digitByte (d : Fin 10) : UInt8 := UInt8.ofNat (48 + d.val)

def digitBytes (ds : List (Fin 10)) : Bytes := ds.map digitByte

def signBytes (neg : Bool) : Bytes := if neg then [45] else []

/-- `.` and the digits behind it, if there are any. -/
def fracBytes (ds : List (Fin 10)) : Bytes := if ds = [] then [] else 46 :: digitBytes ds

/-- The digits of an exponent are two at least. -/
def expDigits (x : Int) : List (Fin 10) :=
  if x.natAbs < 10 then 0 :: natDigits x.natAbs else natDigits x.natAbs

def expBytes : Option Int → Bytes
  | none => []
  | some x => 101 :: (if x < 0 then 45 else 43) :: digitBytes (expDigits x)

namespace Numeral

def bytes (n : Numeral) : Bytes :=
  signBytes n.neg ++ (digitBytes n.int ++ (fracBytes n.frac ++ expBytes n.exp))

/-- The number of characters. -/
def width (n : Numeral) : Nat :=
  (if n.neg then 1 else 0) + n.int.length +
    (if n.frac = [] then 0 else n.frac.length + 1) +
    n.exp.elim 0 fun x => 2 + (expDigits x).length

theorem bytes_length (n : Numeral) : n.bytes.length = n.width := by
  have hsign : (signBytes n.neg).length = if n.neg then 1 else 0 := by
    unfold signBytes
    split <;> rfl
  have hfrac : (fracBytes n.frac).length = if n.frac = [] then 0 else n.frac.length + 1 := by
    unfold fracBytes
    split
    · rfl
    · rw [List.length_cons, digitBytes, List.length_map]
  have hexp : (expBytes n.exp).length = n.exp.elim 0 fun x => 2 + (expDigits x).length := by
    cases n.exp with
    | none => rfl
    | some x =>
      simp only [expBytes, List.length_cons, digitBytes, List.length_map, Option.elim_some]
      omega
  have hint : (digitBytes n.int).length = n.int.length := by rw [digitBytes, List.length_map]
  rw [bytes, width, List.length_append, List.length_append, List.length_append, hsign, hint, hfrac,
    hexp]
  omega

/-- `%d` -/
def ofInt (z : Int) : Numeral where
  neg := z < 0
  int := natDigits z.natAbs
  frac := []
  exp := none
  int_ne_nil := natDigits_ne_nil _

end Numeral

/-- The digits of `a > 0` rounded to `prec` places, as a number, and the power of ten of
the first. -/
def scientific (prec : Nat) (a : ℚ) : Nat × Int :=
  let x := Int.log 10 a
  let m := (roundEven (a / 10 ^ (x - (prec - 1)))).toNat
  if m = 10 ^ prec then (10 ^ (prec - 1), x + 1) else (m, x)

/-- The zeros behind the last digit that counts are not printed. -/
def stripZeros (ds : List (Fin 10)) : List (Fin 10) := ds.rdropWhile (· = 0)

theorem take_natDigits_ne_nil (n k : Nat) : (natDigits n).take (k + 1) ≠ [] := by
  rw [Ne, List.take_eq_nil_iff]
  have := natDigits_ne_nil n
  simp [this]

/-- `%1.<prec>g` of a number other than zero. -/
def formatG (prec : Nat) (d : ℚ) : Numeral :=
  let (m, x) := scientific prec |d|
  let ds := natDigits m
  if 0 ≤ x ∧ x < prec then
    { neg := d < 0
      int := ds.take (x.toNat + 1)
      frac := stripZeros (ds.drop (x.toNat + 1))
      exp := none
      int_ne_nil := take_natDigits_ne_nil _ _ }
  else if -4 ≤ x ∧ x < 0 then
    { neg := d < 0
      int := [0]
      frac := stripZeros (List.replicate (x.natAbs - 1) 0 ++ ds)
      exp := none
      int_ne_nil := List.cons_ne_nil _ _ }
  else
    { neg := d < 0
      int := ds.take 1
      frac := stripZeros (ds.drop 1)
      exp := some x
      int_ne_nil := take_natDigits_ne_nil _ _ }

/-! ## Reading -/

/-- The characters numerals are made of. -/
def isNumberByte (b : UInt8) : Bool :=
  isdigit b || b == 43 || b == 45 || b == 101 || b == 69 || b == 46

def scanSign : Bytes → Bool × Bytes
  | 45 :: s => (true, s)
  | 43 :: s => (false, s)
  | s => (false, s)

def scanFrac : Bytes → Bytes × Bytes
  | 46 :: s => (s.takeWhile isdigit, s.dropWhile isdigit)
  | s => ([], s)

/-- An exponent without digits is not one. -/
def scanExp : Bytes → Int × Bytes
  | [] => (0, [])
  | c :: s =>
    if c = 101 ∨ c = 69 then
      let (neg, t) := scanSign s
      let ds := t.takeWhile isdigit
      if ds = [] then (0, c :: s)
      else (if neg then -(digitsVal ds : Int) else digitsVal ds, t.dropWhile isdigit)
    else (0, c :: s)

/-- The double and what is left; `none` when there is no digit. -/
def strtod (s : Bytes) : Option (ℚ × Bytes) :=
  let (neg, s) := scanSign s
  let int := s.takeWhile isdigit
  let (frac, s) := scanFrac (s.dropWhile isdigit)
  if int = [] ∧ frac = [] then none
  else
    let (exp, s) := scanExp s
    let v : ℚ := digitsVal (int ++ frac) * 10 ^ (exp - frac.length)
    some (toDouble (if neg then -v else v), s)

/-- What a numeral stands for. -/
def Numeral.value (n : Numeral) : ℚ :=
  let x : Int := n.exp.elim 0 fun x =>
    if x < 0 then -(digitsVal (digitBytes (expDigits x)) : Int)
    else digitsVal (digitBytes (expDigits x))
  let v : ℚ := digitsVal (digitBytes n.int ++ digitBytes n.frac) * 10 ^ (x - n.frac.length)
  if n.neg then -v else v

theorem digitByte_isdigit : ∀ d : Fin 10, isdigit (digitByte d) = true := by decide

theorem digitsVal_digitBytes (ds : List (Fin 10)) :
    digitsVal (digitBytes ds) = ds.foldl (fun n d => 10 * n + d.val) 0 := by
  have hbyte : ∀ d : Fin 10, (digitByte d).toNat - 48 = d.val := by decide
  rw [digitsVal, digitBytes, List.foldl_map]
  simp only [hbyte]

/-- The digits of a number are its own. -/
theorem digitsVal_natDigits (n : Nat) : digitsVal (digitBytes (natDigits n)) = n := by
  rw [digitsVal_digitBytes, natDigits]
  split
  · next h => rw [h]; rfl
  · rw [List.foldl_reverse, List.foldr_map]
    conv_rhs => rw [← Nat.ofDigits_digits 10 n, Nat.ofDigits_eq_foldr]
    have hlt : ∀ d ∈ Nat.digits 10 n, d < 10 := fun d => Nat.digits_lt_base (by decide)
    generalize Nat.digits 10 n = l at hlt
    induction l with
    | nil => rfl
    | cons d l ih =>
      rw [List.forall_mem_cons] at hlt
      rw [List.foldr_cons, List.foldr_cons, ih hlt.2]
      have hval : (Fin.ofNat 10 d).val = d := Nat.mod_eq_of_lt hlt.1
      rw [hval]
      simp only [Nat.cast_id]
      omega

theorem natDigits_length_le {n k : Nat} (hk : 0 < k) (h : n < 10 ^ k) :
    (natDigits n).length ≤ k := by
  unfold natDigits
  split
  · exact hk
  · rw [List.length_reverse, List.length_map]
    exact (Nat.digits_length_le_iff (by decide) n).mpr h
theorem digitBytes_isdigit (ds : List (Fin 10)) : ∀ b ∈ digitBytes ds, isdigit b = true := by
  intro b hb
  obtain ⟨d, -, rfl⟩ := List.mem_map.mp hb
  exact digitByte_isdigit d

theorem isNumberByte_visible {b : UInt8} (h : isNumberByte b = true) : 32 < b := by
  unfold isNumberByte isdigit at h
  simp only [Bool.or_eq_true, Bool.and_eq_true, decide_eq_true_eq, beq_iff_eq] at h
  rcases h with ((((h | rfl) | rfl) | rfl) | rfl) | rfl
  · exact UInt8.lt_of_lt_of_le (show 32 < 48 by decide) h.1
  all_goals decide

theorem Numeral.bytes_number (n : Numeral) : ∀ b ∈ n.bytes, isNumberByte b = true := by
  have hdigits : ∀ ds, ∀ b ∈ digitBytes ds, isNumberByte b = true := by
    intro ds b hb
    unfold isNumberByte
    rw [digitBytes_isdigit ds b hb]
    rfl
  have hsign : ∀ b ∈ signBytes n.neg, isNumberByte b = true :=
    List.all_eq_true.mp (by cases n.neg <;> rfl)
  have hfrac : ∀ b ∈ fracBytes n.frac, isNumberByte b = true := by
    unfold fracBytes
    split
    · simp
    · exact List.forall_mem_cons.mpr ⟨rfl, hdigits _⟩
  have hexp : ∀ b ∈ expBytes n.exp, isNumberByte b = true := by
    cases n.exp with
    | none => simp [expBytes]
    | some x =>
      refine List.forall_mem_cons.mpr ⟨rfl, List.forall_mem_cons.mpr ⟨?_, hdigits _⟩⟩
      split <;> rfl
  simp only [Numeral.bytes, List.forall_mem_append]
  exact ⟨hsign, hdigits _, hfrac, hexp⟩

theorem digitBytes_ne_nil {ds : List (Fin 10)} (h : ds ≠ []) : digitBytes ds ≠ [] := by
  rwa [digitBytes, Ne, List.map_eq_nil_iff]

/-- A run of digits in front of something else is all that is taken. -/
theorem takeWhile_digits (ds : List (Fin 10)) {t : Bytes} (ht : ∀ b ∈ t.head?, isdigit b = false) :
    (digitBytes ds ++ t).takeWhile isdigit = digitBytes ds ∧
      (digitBytes ds ++ t).dropWhile isdigit = t := by
  rw [List.takeWhile_append_of_pos (digitBytes_isdigit ds),
    List.dropWhile_append_of_pos (digitBytes_isdigit ds)]
  cases t with
  | nil => simp
  | cons b t => simp [ht b rfl]

theorem scanSign_digit (d : Fin 10) (s : Bytes) :
    scanSign (digitByte d :: s) = (false, digitByte d :: s) := by
  have h : ∀ d : Fin 10, digitByte d ≠ 45 ∧ digitByte d ≠ 43 := by decide
  unfold scanSign
  split
  · next heq => exact absurd (List.cons.inj heq).1 (h d).1
  · next heq => exact absurd (List.cons.inj heq).1 (h d).2
  · rfl

theorem scanSign_digits {ds : List (Fin 10)} (h : ds ≠ []) (neg : Bool) (t : Bytes) :
    scanSign (signBytes neg ++ (digitBytes ds ++ t)) = (neg, digitBytes ds ++ t) := by
  cases neg with
  | true => rfl
  | false =>
    cases ds with
    | nil => exact absurd rfl h
    | cons d ds => exact scanSign_digit d _

theorem expBytes_head (x : Option Int) : ∀ b ∈ (expBytes x).head?, isdigit b = false ∧ b ≠ 46 := by
  cases x with
  | none => simp [expBytes]
  | some x => simp [expBytes, isdigit]

theorem scanFrac_bytes (ds : List (Fin 10)) (x : Option Int) :
    scanFrac (fracBytes ds ++ expBytes x) = (digitBytes ds, expBytes x) := by
  unfold fracBytes
  split
  · next h =>
    subst h
    cases x <;> rfl
  · have h := takeWhile_digits ds fun b hb => (expBytes_head x b hb).1
    show ((digitBytes ds ++ expBytes x).takeWhile isdigit,
      (digitBytes ds ++ expBytes x).dropWhile isdigit) = _
    rw [h.1, h.2]

theorem expDigits_ne_nil (x : Int) : expDigits x ≠ [] := by
  unfold expDigits
  split
  · exact List.cons_ne_nil _ _
  · exact natDigits_ne_nil _

theorem scanExp_bytes (x : Int) : scanExp (expBytes (some x)) =
    (if x < 0 then -(digitsVal (digitBytes (expDigits x)) : Int)
      else digitsVal (digitBytes (expDigits x)), []) := by
  have hne := digitBytes_ne_nil (expDigits_ne_nil x)
  have h := takeWhile_digits (expDigits x) (t := []) (by simp)
  rw [List.append_nil] at h
  unfold expBytes scanExp
  by_cases hx : x < 0
  · simp only [if_pos hx, true_or, if_true, scanSign, h, if_neg hne]
  · simp only [if_neg hx, true_or, if_true, scanSign, h, if_neg hne, Bool.false_eq_true, if_false]

/-- A numeral is read to its end. -/
theorem strtod_numeral (n : Numeral) : strtod n.bytes = some (toDouble n.value, []) := by
  have htail : ∀ b ∈ (fracBytes n.frac ++ expBytes n.exp).head?, isdigit b = false := by
    intro b hb
    unfold fracBytes at hb
    split at hb
    · exact (expBytes_head n.exp b hb).1
    · cases hb
      rfl
  obtain ⟨hint, hrest⟩ := takeWhile_digits n.int htail
  have hne := digitBytes_ne_nil n.int_ne_nil
  unfold strtod Numeral.bytes Numeral.value
  simp only [scanSign_digits n.int_ne_nil, hint, hrest, scanFrac_bytes, hne, false_and, if_false]
  cases n.exp with
  | none => simp [expBytes, scanExp, digitBytes]
  | some x => simp [scanExp_bytes, digitBytes]

end NetMon.Lib
