import Mathlib.Data.Rat.Floor
import NetMon.Lib.CStr

/-!
# Numbers in C

* `scanNumber` is the common front of `strtol` and the integer conversions of `sscanf`:
  blanks, a sign, decimal digits.
* `trunc` is what a conversion from `double` to an integer type keeps. A `double` is
  an exact rational here; out of the target's range, where C promises nothing, the
  conversion wraps.
* `decimal` is what `%u` and, behind a sign, `%d` print; a 32-bit number is read back from
  its print (`strtol_lit`).
-/

namespace NetMon.Lib

def isdigit (b : UInt8) : Bool := 48 ≤ b && b ≤ 57

/-- The value of a run of decimal digits. -/
def digitsVal (ds : Bytes) : Nat := ds.foldl (fun n b => 10 * n + (b.toNat - 48)) 0

/-- Blanks, an optional sign, and digits: the sign, the value and what is left. -/
def scanNumber (s : Bytes) : Option (Bool × Nat × Bytes) :=
  let s := s.dropWhile isspace
  let (neg, s) := match s with
    | 45 :: r => (true, r)
    | 43 :: r => (false, r)
    | r => (false, r)
  let ds := s.takeWhile isdigit
  if ds = [] then none else some (neg, digitsVal ds, s.dropWhile isdigit)

/-- `(int)strtol(s, &end, 10)` with a 32-bit `long`; `none` when `end` stays at `s`. -/
def strtol (s : CStr) : Option Int :=
  (scanNumber s.bytes).map fun (neg, n, _) =>
    max (-2147483648) (min 2147483647 (if neg then -(n : Int) else n))

/-- One `%llu` (`w` = 64) or `%lu` (`w` = 32) of a `sscanf`, and what is left: the value
saturates, and a minus sign wraps it. -/
def scanUnsigned (w : Nat) (s : Bytes) : Option (Nat × Bytes) :=
  (scanNumber s).map fun (neg, n, rest) =>
    if n < 2 ^ w then (if neg then (2 ^ w - n) % 2 ^ w else n, rest) else (2 ^ w - 1, rest)

/-- `n` conversions in a row. -/
def scanUnsigneds (w : Nat) : Nat → Bytes → Option (List Nat)
  | 0, _ => some []
  | n + 1, s => do
    let (v, rest) ← scanUnsigned w s
    let vs ← scanUnsigneds w n rest
    return v :: vs

/-! ## From `double` -/

/-- Truncation towards zero. -/
def trunc (q : ℚ) : Int := if 0 ≤ q then ⌊q⌋ else ⌈q⌉

def toUInt8 (q : ℚ) : UInt8 := UInt8.ofInt (trunc q)

def toUInt16 (q : ℚ) : UInt16 := UInt16.ofInt (trunc q)

def toUInt32 (q : ℚ) : UInt32 := UInt32.ofInt (trunc q)

def toInt8 (q : ℚ) : Int8 := Int8.ofInt (trunc q)

theorem trunc_of_nonneg {q : ℚ} (h : 0 ≤ q) : trunc q = ⌊q⌋ := if_pos h

@[simp] theorem trunc_intCast (z : Int) : trunc (z : ℚ) = z := by
  unfold trunc
  split
  · exact Int.floor_intCast z
  · exact Int.ceil_intCast z

@[simp] theorem trunc_natCast (n : Nat) : trunc (n : ℚ) = n := trunc_intCast n

/-- In range a conversion keeps the integer part. -/
theorem toUInt8_toNat {q : ℚ} (h0 : 0 ≤ q) (h : ⌊q⌋ < 2 ^ 8) : ((toUInt8 q).toNat : Int) = ⌊q⌋ := by
  have hz : 0 ≤ ⌊q⌋ := Int.floor_nonneg.mpr h0
  rw [toUInt8, trunc_of_nonneg h0, UInt8.ofInt, UInt8.toNat_ofNat']
  omega

theorem toUInt16_toNat {q : ℚ} (h0 : 0 ≤ q) (h : ⌊q⌋ < 2 ^ 16) :
    ((toUInt16 q).toNat : Int) = ⌊q⌋ := by
  have hz : 0 ≤ ⌊q⌋ := Int.floor_nonneg.mpr h0
  rw [toUInt16, trunc_of_nonneg h0, UInt16.ofInt, UInt16.toNat_ofNat']
  omega

theorem toUInt32_toNat {q : ℚ} (h0 : 0 ≤ q) (h : ⌊q⌋ < 2 ^ 32) :
    ((toUInt32 q).toNat : Int) = ⌊q⌋ := by
  have hz : 0 ≤ ⌊q⌋ := Int.floor_nonneg.mpr h0
  rw [toUInt32, trunc_of_nonneg h0, UInt32.ofInt, UInt32.toNat_ofNat']
  omega

theorem toInt8_toInt {z : Int} (h0 : -128 ≤ z) (h : z ≤ 127) : (toInt8 (z : ℚ)).toInt = z := by
  rw [toInt8, trunc_intCast]
  exact Int8.toInt_ofInt_of_le (by simpa using h0) (by omega)

/-! ## Printed numbers -/

/-- The digits of `%u`. -/
def decimal (n : Nat) : Bytes := (Nat.toDigits 10 n).map fun c => UInt8.ofNat c.toNat

theorem decimal_ne_nil (n : Nat) : decimal n ≠ [] := by simp [decimal, Nat.toDigits_ne_nil]

theorem isdigit_iff {b : UInt8} : isdigit b = true ↔ 48 ≤ b.toNat ∧ b.toNat ≤ 57 := by
  simp only [isdigit, Bool.and_eq_true, decide_eq_true_eq, UInt8.le_iff_toNat_le]
  rfl

theorem isspace_digit {b : UInt8} (h : isdigit b = true) : isspace b = false := by
  obtain ⟨h0, -⟩ := isdigit_iff.mp h
  simp only [isspace, Bool.or_eq_false_iff, Bool.and_eq_false_iff, decide_eq_false_iff_not,
    beq_eq_false_iff_ne, UInt8.le_iff_toNat_le, not_le]
  refine ⟨Or.inr (lt_of_lt_of_le (by decide) h0), ?_⟩
  rintro rfl
  exact absurd h0 (by decide)

theorem digit_byte {c : Char} (h : c.isDigit = true) :
    (UInt8.ofNat c.toNat).toNat = c.toNat ∧ isdigit (UInt8.ofNat c.toNat) = true := by
  obtain ⟨h0, h9⟩ := Char.isDigit_iff_toNat.mp h
  have hlow : 48 ≤ c.toNat := h0
  have hhigh : c.toNat ≤ 57 := h9
  have hbyte : (UInt8.ofNat c.toNat).toNat = c.toNat :=
    UInt8.toNat_ofNat_of_lt' (lt_of_le_of_lt hhigh (by decide))
  exact ⟨hbyte, isdigit_iff.mpr (by rw [hbyte]; exact ⟨hlow, hhigh⟩)⟩

theorem isdigit_decimal (n : Nat) : ∀ b ∈ decimal n, isdigit b = true := by
  intro b hb
  obtain ⟨c, hc, rfl⟩ := List.mem_map.mp hb
  exact (digit_byte (Nat.isDigit_of_mem_toDigits (by decide) (by decide) hc)).2

theorem digitsVal_decimal (n : Nat) : digitsVal (decimal n) = n := by
  have hfold : ∀ (ds : List Char) (m : Nat), (∀ c ∈ ds, c.isDigit = true) →
      (ds.map fun c => UInt8.ofNat c.toNat).foldl (fun n b => 10 * n + (b.toNat - 48)) m =
        Nat.ofDigitChars 10 ds m := by
    intro ds
    induction ds with
    | nil => exact fun _ _ => rfl
    | cons c ds ih =>
      intro m hds
      rw [List.forall_mem_cons] at hds
      rw [List.map_cons, List.foldl_cons, ih _ hds.2, (digit_byte hds.1).1]
      rfl
  exact (hfold _ 0 fun c hc => Nat.isDigit_of_mem_toDigits (by decide) (by decide) hc).trans
    Nat.ofDigitChars_ten_toDigits

theorem decimal_length_le {n k : Nat} (hk : 0 < k) (h : n < 10 ^ k) : (decimal n).length ≤ k := by
  rw [decimal, List.length_map]
  exact (Nat.length_toDigits_le_iff (by decide) hk).mpr h

theorem decimal_visible (n : Nat) : ∀ b ∈ decimal n, isspace b = false :=
  fun b hb => isspace_digit (isdigit_decimal n b hb)

/-- The bytes of a literal without a NUL in it. -/
def CStr.chars (s : String) : Bytes := s.toList.map fun c => UInt8.ofNat c.toNat

theorem CStr.lit_bytes {s : String} (h : 0 ∉ chars s) : (lit s).bytes = chars s :=
  ofBytes_of_nonul h

theorem CStr.chars_append (s t : String) : chars (s ++ t) = chars s ++ chars t := by
  rw [chars, String.toList_append, List.map_append]
  rfl

theorem CStr.chars_repr (n : Nat) : chars n.repr = decimal n := by
  rw [chars, Nat.toList_repr]
  rfl

/-- `%d` -/
theorem CStr.lit_int (z : Int) :
    (lit s!"{z}").bytes = (if z < 0 then [45] else []) ++ decimal z.natAbs := by
  have hnul : ∀ n, 0 ∉ decimal n := fun n h => absurd (isdigit_decimal n 0 h) (by decide)
  cases z with
  | ofNat n =>
    have hchars : chars s!"{Int.ofNat n}" = decimal n := chars_repr n
    rw [lit_bytes (by rw [hchars]; exact hnul n), hchars]
    simp
  | negSucc n =>
    have hchars : chars s!"{Int.negSucc n}" = 45 :: decimal (n + 1) := by
      show chars ("-" ++ (n + 1).repr) = _
      rw [chars_append, chars_repr]
      rfl
    rw [lit_bytes (by rw [hchars]; simpa using hnul (n + 1)), hchars]
    simp [Int.negSucc_lt_zero]

/-- An `int` prints at most eleven bytes. -/
theorem CStr.lit_int_length_le {z : Int} (hlow : -2147483648 ≤ z) (hhigh : z ≤ 2147483647) :
    (lit s!"{z}").length ≤ 11 := by
  have hdigits : (decimal z.natAbs).length ≤ 10 := decimal_length_le (by omega) (by omega)
  rw [CStr.length, CStr.lit_int, List.length_append]
  split
  · rw [List.length_singleton]
    omega
  · rw [List.length_nil]
    omega

/-- A sign the scanners accept. -/
def IsSign (sign : Bytes) : Prop := sign = [] ∨ sign = [43] ∨ sign = [45]

/-- Blanks, a sign and digits are read up to the first byte that is no digit. -/
theorem scanNumber_parts {gap sign ds rest : Bytes} (hgap : ∀ b ∈ gap, isspace b = true)
    (hsign : IsSign sign) (hds : ∀ b ∈ ds, isdigit b = true) (hne : ds ≠ [])
    (hrest : ∀ b ∈ rest.head?, isdigit b = false) :
    scanNumber (gap ++ (sign ++ (ds ++ rest))) = some (sign == [45], digitsVal ds, rest) := by
  obtain ⟨d, l, rfl⟩ := List.exists_cons_of_ne_nil hne
  have hd : isdigit d = true := hds d List.mem_cons_self
  have hstop : rest.takeWhile isdigit = [] ∧ rest.dropWhile isdigit = rest := by
    cases rest with
    | nil => exact ⟨rfl, rfl⟩
    | cons b rest => simp [hrest b rfl]
  have htake : ((d :: l) ++ rest).takeWhile isdigit = d :: l := by
    rw [List.takeWhile_append_of_pos hds, hstop.1, List.append_nil]
  have hdrop : ((d :: l) ++ rest).dropWhile isdigit = rest := by
    rw [List.dropWhile_append_of_pos hds, hstop.2]
  have hskip : (gap ++ (sign ++ ((d :: l) ++ rest))).dropWhile isspace =
      sign ++ ((d :: l) ++ rest) := by
    rw [List.dropWhile_append_of_pos hgap]
    rcases hsign with rfl | rfl | rfl
    · exact List.dropWhile_cons_of_neg (by simp [isspace_digit hd])
    · rfl
    · rfl
  unfold scanNumber
  rw [hskip]
  rcases hsign with rfl | rfl | rfl
  · rw [List.nil_append]
    dsimp only
    -- a digit is neither of the signs
    split
    · rename_i h
      rw [(List.cons.inj h).1] at hd
      exact absurd hd (by decide)
    · rename_i h
      rw [(List.cons.inj h).1] at hd
      exact absurd hd (by decide)
    · simp only [htake, hdrop, reduceCtorEq, if_false]
      rfl
  · simp only [List.singleton_append, htake, hdrop, reduceCtorEq, if_false]
    rfl
  · simp only [List.singleton_append, htake, hdrop, reduceCtorEq, if_false]
    rfl

theorem scanNumber_digits {ds : Bytes} (hds : ∀ b ∈ ds, isdigit b = true) (hne : ds ≠ [])
    (neg : Bool) :
    scanNumber ((if neg then [45] else []) ++ ds) = some (neg, digitsVal ds, []) := by
  have hsign : IsSign (if neg then [45] else []) := by cases neg <;> simp [IsSign]
  have hscan := scanNumber_parts (List.forall_mem_nil _) hsign hds hne
    fun b (hb : b ∈ ([] : Bytes).head?) => absurd hb (Option.not_mem_none b)
  rw [List.nil_append, List.append_nil] at hscan
  rw [hscan]
  cases neg <;> rfl

/-- A 32-bit number is read back from its print. -/
theorem strtol_lit {z : Int} (hlow : -2147483648 ≤ z) (hhigh : z ≤ 2147483647) :
    strtol (CStr.lit s!"{z}") = some z := by
  have hscan := scanNumber_digits (isdigit_decimal z.natAbs) (decimal_ne_nil z.natAbs)
    (decide (z < 0))
  rw [digitsVal_decimal] at hscan
  rw [strtol, CStr.lit_int]
  simp only [decide_eq_true_eq] at hscan
  rw [hscan, Option.map_some]
  apply congrArg some
  by_cases hz : z < 0
  · simp only [hz, decide_true, if_true]
    omega
  · simp only [hz, decide_false, Bool.false_eq_true, if_false]
    omega

/-! ## Blanks around a number -/

/-- A number ends where blanks begin. -/
theorem takeWhile_isdigit_blanks (l : Bytes) {tail : Bytes} (h : ∀ b ∈ tail, isspace b = true) :
    (l ++ tail).takeWhile isdigit = l.takeWhile isdigit := by
  induction l with
  | nil =>
    cases tail with
    | nil => rfl
    | cons b tail =>
      have hb : ¬ isdigit b = true := fun hdigit => by
        have := isspace_digit hdigit
        rw [h b List.mem_cons_self] at this
        cases this
      rw [List.nil_append, List.takeWhile_cons_of_neg hb, List.takeWhile_nil]
  | cons b l ih =>
    rw [List.cons_append, List.takeWhile_cons, List.takeWhile_cons, ih]

/-- Blanks behind a number do not change it. -/
theorem scanNumber_blanks {c tail : Bytes} (hc : c.dropWhile isspace = c) (hne : c ≠ [])
    (htail : ∀ b ∈ tail, isspace b = true) :
    (scanNumber (c ++ tail)).map (fun r => (r.1, r.2.1)) =
      (scanNumber c).map fun r => (r.1, r.2.1) := by
  obtain ⟨x, l, rfl⟩ := List.exists_cons_of_ne_nil hne
  have hx : ¬ isspace x = true := fun h => by
    rw [List.dropWhile_cons_of_pos h] at hc
    have hlen := (List.dropWhile_sublist (l := l) isspace).length_le
    rw [hc, List.length_cons] at hlen
    omega
  have hdigits := takeWhile_isdigit_blanks l htail
  have hdigits' := takeWhile_isdigit_blanks (x :: l) htail
  rw [List.cons_append] at hdigits'
  by_cases h45 : x = 45
  · subst h45
    unfold scanNumber
    rw [List.cons_append, List.dropWhile_cons_of_neg hx, List.dropWhile_cons_of_neg hx]
    simp only [hdigits]
    split <;> rfl
  · by_cases h43 : x = 43
    · subst h43
      unfold scanNumber
      rw [List.cons_append, List.dropWhile_cons_of_neg hx, List.dropWhile_cons_of_neg hx]
      simp only [hdigits]
      split <;> rfl
    · have hplain : ∀ r : Bytes, scanNumber (x :: r) =
          if (x :: r).takeWhile isdigit = [] then none
          else some (false, digitsVal ((x :: r).takeWhile isdigit), (x :: r).dropWhile isdigit) := by
        intro r
        unfold scanNumber
        rw [List.dropWhile_cons_of_neg hx]
        dsimp only
        split
        · rename_i h
          exact absurd (List.cons.inj h).1 h45
        · rename_i h
          exact absurd (List.cons.inj h).1 h43
        · rfl
      rw [List.cons_append, hplain, hplain, hdigits']
      split <;> rfl

/-- Blanks around it do not change a number. -/
theorem strtol_trim (s : CStr) : strtol s.trim = strtol s := by
  have hend : s.trim.bytes ++ (s.bytes.dropWhile isspace).rtakeWhile isspace =
      s.bytes.dropWhile isspace := List.rdropWhile_append_rtakeWhile
  have hblank : ∀ b ∈ (s.bytes.dropWhile isspace).rtakeWhile isspace, isspace b = true :=
    fun b hb => List.mem_rtakeWhile_imp hb
  have hskip : s.trim.bytes.dropWhile isspace = s.trim.bytes :=
    CStr.dropWhile_isspace_of_head? (CStr.trimmed_iff.mp s.trim_trimmed).1
  have hscan : scanNumber s.bytes = scanNumber (s.bytes.dropWhile isspace) := by
    unfold scanNumber
    rw [List.dropWhile_idempotent]
  have hcut : ∀ t : CStr, strtol t = ((scanNumber t.bytes).map fun r => (r.1, r.2.1)).map
      fun r => max (-2147483648) (min 2147483647 (if r.1 then -(r.2 : Int) else r.2)) := by
    intro t
    rw [Option.map_map]
    rfl
  rw [hcut, hcut, hscan, ← hend]
  by_cases hne : s.trim.bytes = []
  · have hnil : (s.bytes.dropWhile isspace).rtakeWhile isspace = [] := by
      rw [hne, List.nil_append] at hend
      rw [hend] at hblank ⊢
      have hfirst := List.head?_dropWhile_not isspace s.bytes
      cases hd : s.bytes.dropWhile isspace with
      | nil => rfl
      | cons b l =>
        rw [hd] at hblank hfirst
        have hb := hblank b List.mem_cons_self
        simp [hb] at hfirst
    rw [hnil, List.append_nil]
  · rw [scanNumber_blanks hskip hne hblank]
end NetMon.Lib
