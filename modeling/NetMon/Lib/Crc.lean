import Mathlib.Logic.Function.Iterate

/-!
# Cyclic redundancy checks

The shift register of a CRC over `w` bits, most significant bit first: what falls out at
the top comes back as the polynomial. A message is a list of symbols, each already moved to
its place in the register; a symbol is followed by `k` shifts.

* `shift_xor`, `shift_injective`: a shift is linear in exclusive or and loses nothing.
* `crc_xorAt`: a change to one symbol changes the CRC by the change itself, shifted on by
  the symbols behind it.
* `power n` is what a one at the bottom becomes by `n` shifts; every single bit is such a
  power (`twoPow_eq_power`), and below the order of the register they are all different
  (`power_inj`).
* `parity_shift`: a polynomial with an odd number of ones keeps the parity of the register.
-/

namespace NetMon.Lib.Crc

variable {w : Nat} (poly : BitVec w)

/-- One shift of the register. -/
def shift (c : BitVec w) : BitVec w := if c.msb then (c <<< 1) ^^^ poly else c <<< 1

/-! ## Linearity -/

theorem xor_right_comm (a b c : BitVec w) : a ^^^ b ^^^ c = a ^^^ c ^^^ b := by
  rw [BitVec.xor_assoc, BitVec.xor_comm b, ← BitVec.xor_assoc]

theorem shift_xor (a b : BitVec w) : shift poly (a ^^^ b) = shift poly a ^^^ shift poly b := by
  unfold shift
  rw [BitVec.msb_xor, BitVec.shiftLeft_xor_distrib]
  cases a.msb <;> cases b.msb
  · rfl
  · exact BitVec.xor_assoc ..
  · exact xor_right_comm ..
  · -- the polynomial comes back twice
    simp only [Bool.xor_true, Bool.not_true, Bool.false_eq_true, if_false, if_true]
    rw [BitVec.xor_assoc, BitVec.xor_comm (b <<< 1), ← BitVec.xor_assoc poly, BitVec.xor_self,
      BitVec.zero_xor]

theorem shift_zero : shift poly 0#w = 0#w := by
  have h := shift_xor poly 0#w 0#w
  rwa [BitVec.xor_self, BitVec.xor_self] at h

theorem iterate_xor (n : Nat) (a b : BitVec w) :
    (shift poly)^[n] (a ^^^ b) = (shift poly)^[n] a ^^^ (shift poly)^[n] b := by
  induction n generalizing a b with
  | zero => rfl
  | succ n ih => rw [Function.iterate_succ_apply, shift_xor, ih]; rfl

theorem iterate_zero (n : Nat) : (shift poly)^[n] 0#w = 0#w :=
  Function.iterate_fixed (shift_zero poly) n

variable {poly}

/-- The register can be shifted back as long as the polynomial ends in a one. -/
theorem shift_eq_zero (hpoly : poly.getLsbD 0 = true) {c : BitVec w} (h : shift poly c = 0#w) :
    c = 0#w := by
  have hbit : ∀ i, (shift poly c).getLsbD i = false := fun i => by rw [h, BitVec.getLsbD_zero]
  have hw : 0 < w := BitVec.lt_of_getLsbD hpoly
  unfold shift at hbit
  cases hm : c.msb with
  | true =>
    rw [hm, if_pos rfl] at hbit
    have h0 := hbit 0
    rw [BitVec.getLsbD_xor, BitVec.getLsbD_shiftLeft, hpoly] at h0
    simp at h0
  | false =>
    rw [hm, if_neg Bool.false_ne_true] at hbit
    apply BitVec.eq_of_getLsbD_eq
    intro i hi
    rw [BitVec.getLsbD_zero]
    by_cases hlast : i + 1 < w
    · have hi := hbit (i + 1)
      rw [BitVec.getLsbD_shiftLeft] at hi
      simpa [hlast] using hi
    · rw [BitVec.msb_eq_getLsbD_last] at hm
      rwa [show i = w - 1 by omega]

theorem shift_injective (hpoly : poly.getLsbD 0 = true) : Function.Injective (shift poly) := by
  intro a b h
  rw [← BitVec.xor_eq_zero_iff] at h ⊢
  rw [← shift_xor] at h
  exact shift_eq_zero hpoly h

theorem iterate_injective (hpoly : poly.getLsbD 0 = true) (n : Nat) :
    Function.Injective (shift poly)^[n] := (shift_injective hpoly).iterate n

/-! ## Messages -/

section Messages

variable (poly) (k : Nat)

/-- A symbol enters the register. -/
def enter (c a : BitVec w) : BitVec w := (shift poly)^[k] (c ^^^ a)

/-- The register after a message. -/
def crc (init : BitVec w) (msg : List (BitVec w)) : BitVec w := msg.foldl (enter poly k) init

/-- A change of the register is shifted on by every symbol. -/
theorem crc_xor_init (init d : BitVec w) (msg : List (BitVec w)) :
    crc poly k (init ^^^ d) msg = crc poly k init msg ^^^ (shift poly)^[k * msg.length] d := by
  induction msg generalizing init d with
  | nil => rfl
  | cons a msg ih =>
    have henter : enter poly k (init ^^^ d) a = enter poly k init a ^^^ (shift poly)^[k] d := by
      unfold enter
      rw [xor_right_comm, iterate_xor]
    show crc poly k (enter poly k (init ^^^ d) a) msg = _
    rw [henter, ih, ← Function.iterate_add_apply, List.length_cons, Nat.mul_succ]
    rfl

/-- A change of one symbol is shifted on by it and by the symbols behind it. -/
theorem crc_xorAt (init d : BitVec w) {msg : List (BitVec w)} {i : Nat} (hi : i < msg.length) :
    crc poly k init (msg.modify i (· ^^^ d)) =
      crc poly k init msg ^^^ (shift poly)^[k * (msg.length - i)] d := by
  induction msg generalizing init i with
  | nil => simp at hi
  | cons a msg ih =>
    cases i with
    | zero =>
      have henter : enter poly k init (a ^^^ d) = enter poly k init a ^^^ (shift poly)^[k] d := by
        unfold enter
        rw [← BitVec.xor_assoc, iterate_xor]
      show crc poly k (enter poly k init (a ^^^ d)) msg = _
      rw [henter, crc_xor_init, ← Function.iterate_add_apply, List.length_cons, Nat.sub_zero,
        Nat.mul_succ]
      rfl
    | succ i =>
      rw [List.length_cons, Nat.succ_lt_succ_iff] at hi
      rw [List.modify_succ_cons, List.length_cons, Nat.succ_sub_succ]
      exact ih (enter poly k init a) hi

end Messages

/-! ## Powers -/

variable (poly) in
/-- A one at the bottom after `n` shifts. -/
def power (n : Nat) : BitVec w := (shift poly)^[n] 1#w

theorem iterate_power (m n : Nat) : (shift poly)^[m] (power poly n) = power poly (m + n) := by
  rw [power, ← Function.iterate_add_apply]
  rfl

theorem shift_twoPow {i : Nat} (hi : i + 1 < w) :
    shift poly (BitVec.twoPow w i) = BitVec.twoPow w (i + 1) := by
  have hm : (BitVec.twoPow w i).msb = false := by
    rw [BitVec.msb_eq_getLsbD_last, BitVec.getLsbD_twoPow, decide_eq_false (by omega : ¬ i = w - 1),
      Bool.and_false]
  rw [shift, hm, if_neg Bool.false_ne_true]
  apply BitVec.eq_of_getLsbD_eq
  intro j hj
  rw [BitVec.getLsbD_shiftLeft, BitVec.getLsbD_twoPow, BitVec.getLsbD_twoPow]
  cases j with
  | zero => simp
  | succ j => simp [hi, hj, Nat.lt_of_succ_lt hi]

/-- A single bit of the register is a power. -/
theorem twoPow_eq_power {i : Nat} (hi : i < w) : BitVec.twoPow w i = power poly i := by
  induction i with
  | zero =>
    rw [BitVec.twoPow_zero]
    rfl
  | succ i ih =>
    rw [← shift_twoPow hi, ih (by omega), power, power, Function.iterate_succ_apply']

/-- Below the register's order the powers are all different. -/
theorem power_inj (hpoly : poly.getLsbD 0 = true) {N : Nat}
    (horder : ∀ d < N, power poly (d + 1) ≠ 1#w) {m n : Nat} (hm : m ≤ N) (hn : n ≤ N)
    (h : power poly m = power poly n) : m = n := by
  have hle : ∀ {a b : Nat}, a ≤ b → b ≤ N → power poly a = power poly b → a = b := by
    intro a b hab hb heq
    by_contra hne
    refine horder (b - a - 1) (by omega) (iterate_injective hpoly a ?_)
    rw [iterate_power, show a + (b - a - 1 + 1) = b by omega]
    exact heq.symm
  rcases Nat.le_total m n with hmn | hmn
  · exact hle hmn hn h
  · exact (hle hmn hm h.symm).symm

variable (poly) in
/-- The register is not `t` during `n` shifts. -/
def avoids (t : BitVec w) : Nat → BitVec w → Bool
  | 0, _ => true
  | n + 1, c => c != t && avoids t n (shift poly c)

theorem iterate_ne_of_avoids {t c : BitVec w} {n : Nat} (h : avoids poly t n c = true) :
    ∀ d < n, (shift poly)^[d] c ≠ t := by
  induction n generalizing c with
  | zero => intro d hd; omega
  | succ n ih =>
    rw [avoids, Bool.and_eq_true, bne_iff_ne] at h
    intro d hd
    cases d with
    | zero => exact h.1
    | succ d => exact ih h.2 d (by omega)

/-! ## Parity -/

/-- The parity of the lowest `n` bits. -/
def parityBelow (v : BitVec w) : Nat → Bool
  | 0 => false
  | n + 1 => v.getLsbD n ^^ parityBelow v n

/-- Whether the number of ones is odd. -/
def parity (v : BitVec w) : Bool := parityBelow v w

theorem parityBelow_xor (a b : BitVec w) (n : Nat) :
    parityBelow (a ^^^ b) n = (parityBelow a n ^^ parityBelow b n) := by
  induction n with
  | zero => rfl
  | succ n ih =>
    rw [parityBelow, parityBelow, parityBelow, ih, BitVec.getLsbD_xor]
    cases a.getLsbD n <;> cases b.getLsbD n <;> cases parityBelow a n <;> cases parityBelow b n <;>
      rfl

theorem parity_xor (a b : BitVec w) : parity (a ^^^ b) = (parity a ^^ parity b) :=
  parityBelow_xor a b w

theorem parity_zero : parity 0#w = false := by
  have h := parity_xor 0#w 0#w
  rwa [BitVec.xor_self, Bool.xor_self] at h

theorem parityBelow_shiftLeft (v : BitVec w) {n : Nat} (hn : n < w) :
    parityBelow (v <<< 1) (n + 1) = parityBelow v n := by
  induction n with
  | zero => simp [parityBelow, BitVec.getLsbD_shiftLeft]
  | succ n ih =>
    rw [parityBelow, ih (by omega), BitVec.getLsbD_shiftLeft, parityBelow]
    simp [hn]

theorem parity_shiftLeft (v : BitVec w) : parity (v <<< 1) = (parity v ^^ v.msb) := by
  cases w with
  | zero => rw [BitVec.of_length_zero (x := v)]; rfl
  | succ n =>
    rw [parity, parityBelow_shiftLeft v (Nat.lt_succ_self n), parity, parityBelow,
      BitVec.msb_eq_getLsbD_last]
    show parityBelow v n = ((v.getLsbD n ^^ parityBelow v n) ^^ v.getLsbD n)
    cases v.getLsbD n <;> cases parityBelow v n <;> rfl

/-- The bit that falls out at the top is made up for by the polynomial. -/
theorem parity_shift (hodd : parity poly = true) (c : BitVec w) :
    parity (shift poly c) = parity c := by
  unfold shift
  cases hm : c.msb with
  | true => rw [if_pos rfl, parity_xor, parity_shiftLeft, hodd, hm]; cases parity c <;> rfl
  | false => rw [if_neg Bool.false_ne_true, parity_shiftLeft, hm, Bool.xor_false]

theorem parity_iterate (hodd : parity poly = true) (n : Nat) (c : BitVec w) :
    parity ((shift poly)^[n] c) = parity c := by
  induction n generalizing c with
  | zero => rfl
  | succ n ih => rw [Function.iterate_succ_apply, ih, parity_shift hodd]

end NetMon.Lib.Crc
