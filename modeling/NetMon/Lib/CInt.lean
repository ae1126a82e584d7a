import Mathlib.Data.Int.Basic
import Mathlib.Data.List.Basic

/-!
# Checked `int`s and arrays

Arithmetic on 32-bit `int`s and accesses to an array by an `int`. A result that no `int` holds,
a division by zero and an index outside the array are undefined in C: here they are `none`.
-/

namespace NetMon.Lib

def intMin : Int := -2147483648

def intMax : Int := 2147483647

namespace CInt

/-- A value an `int` holds. -/
def check (z : Int) : Option Int := if intMin ≤ z ∧ z ≤ intMax then some z else none

def add (a b : Int) : Option Int := check (a + b)

def sub (a b : Int) : Option Int := check (a - b)

/-- `a % b` -/
def mod (a b : Int) : Option Int := if b = 0 then none else check (a.tmod b)

theorem check_eq {z : Int} (hlow : intMin ≤ z) (hhigh : z ≤ intMax) : check z = some z :=
  if_pos ⟨hlow, hhigh⟩

theorem add_eq {a b : Int} (hlow : intMin ≤ a + b) (hhigh : a + b ≤ intMax) :
    add a b = some (a + b) := check_eq hlow hhigh

theorem sub_eq {a b : Int} (hlow : intMin ≤ a - b) (hhigh : a - b ≤ intMax) :
    sub a b = some (a - b) := check_eq hlow hhigh

theorem mod_natCast {a b : Nat} (hb : 0 < b) (hint : (b : Int) ≤ intMax) :
    mod a b = some ((a % b : Nat) : Int) := by
  have hlt := Nat.mod_lt a hb
  rw [mod, if_neg (by omega), ← Int.ofNat_tmod]
  apply check_eq
  · have hmin : intMin ≤ 0 := by decide
    omega
  · omega

end CInt

namespace CArray

variable {α : Type*}

/-- `a[i]` as a value. -/
def load (a : List α) (i : Int) : Option α := if 0 ≤ i then a[i.toNat]? else none

/-- What an assignment to `a[i]`, or to a field of it, leaves. -/
def modify (a : List α) (i : Int) (f : α → α) : Option (List α) :=
  if 0 ≤ i ∧ i < a.length then some (a.modify i.toNat f) else none

/-- `a[i] = x` -/
def store (a : List α) (i : Int) (x : α) : Option (List α) := modify a i fun _ => x

theorem load_natCast (a : List α) (i : Nat) : load a i = a[i]? :=
  if_pos (Int.natCast_nonneg i)

theorem modify_natCast {a : List α} {i : Nat} (h : i < a.length) (f : α → α) :
    modify a i f = some (a.modify i f) :=
  if_pos ⟨Int.natCast_nonneg i, Int.ofNat_lt.mpr h⟩

theorem store_natCast {a : List α} {i : Nat} (h : i < a.length) (x : α) :
    store a i x = some (a.set i x) := by
  rw [store, modify_natCast h, List.set_eq_modify]

end CArray

end NetMon.Lib
