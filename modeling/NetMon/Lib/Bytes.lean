import Mathlib.Data.List.Basic
import Mathlib.Data.List.GetD
import Mathlib.Logic.Function.Basic

/-!
# Byte memory

Packed C structures are read through a pointer and written into fixed arrays.

* `View` is the memory a pointer sees: the byte at each offset. `le16`/`le32` read
  little-endian words, `slice` a run of bytes. Every reader depends only on the
  bytes it reads (`Agree` and the `_congr` lemmas).
* `u16Bytes`/`u32Bytes` lay words out; reading them back gives the word.
* `store` is what writes through a pointer make of the memory (`slice_store`).
* `Buf n` is a `uint8_t[n]`; `putAll` writes a run of bytes and `view_putAll` says
  what the buffer holds afterwards.
-/

namespace NetMon.Lib

abbrev Bytes := List UInt8

/-- A fact about every byte, checked for the numbers below 256. -/
theorem forall_byte {P : UInt8 → Prop} (h : ∀ n < 256, P (UInt8.ofNat n)) (b : UInt8) : P b := by
  have hb := h b.toNat b.toNat_lt
  rwa [UInt8.ofNat_toNat] at hb

/-- The memory behind a pointer: the byte at each offset. -/
abbrev View := Nat → UInt8

/-- A byte string as memory; it reads as zero past its end. -/
def Bytes.view (l : Bytes) : View := fun i => l.getD i 0

namespace View

/-- The view from `p` bytes further on. -/
def shift (m : View) (p : Nat) : View := fun i => m (p + i)

/-- Two memories agree on the offsets `[a, b)`. -/
def Agree (m m' : View) (a b : Nat) : Prop := ∀ i, a ≤ i → i < b → m i = m' i

theorem Agree.symm {m m' : View} {a b : Nat} (h : Agree m m' a b) : Agree m' m a b :=
  fun i ha hb => (h i ha hb).symm

theorem Agree.trans {m m' m'' : View} {a b : Nat} (h : Agree m m' a b) (h' : Agree m' m'' a b) :
    Agree m m'' a b := fun i ha hb => (h i ha hb).trans (h' i ha hb)

theorem Agree.mono {m m' : View} {a b a' b' : Nat} (h : Agree m m' a b) (ha : a ≤ a')
    (hb : b' ≤ b) : Agree m m' a' b' :=
  fun i h1 h2 => h i (by omega) (by omega)

theorem Agree.shift {m m' : View} {a b : Nat} (p : Nat) (h : Agree m m' (p + a) (p + b)) :
    Agree (m.shift p) (m'.shift p) a b :=
  fun i h1 h2 => h (p + i) (by omega) (by omega)

/-! ## Words -/

/-- The little-endian 16-bit word at offset `p`. -/
def le16 (m : View) (p : Nat) : UInt16 := UInt16.ofNat ((m p).toNat + 256 * (m (p + 1)).toNat)

/-- The little-endian 32-bit word at offset `p`. -/
def le32 (m : View) (p : Nat) : UInt32 :=
  UInt32.ofNat ((m p).toNat + 256 * (m (p + 1)).toNat + 65536 * (m (p + 2)).toNat +
    16777216 * (m (p + 3)).toNat)

theorem le16_congr {m m' : View} {p : Nat} (h : Agree m m' p (p + 2)) : m.le16 p = m'.le16 p := by
  unfold le16
  rw [h p (by omega) (by omega), h (p + 1) (by omega) (by omega)]

theorem le32_congr {m m' : View} {p : Nat} (h : Agree m m' p (p + 4)) : m.le32 p = m'.le32 p := by
  unfold le32
  rw [h p (by omega) (by omega), h (p + 1) (by omega) (by omega), h (p + 2) (by omega) (by omega),
    h (p + 3) (by omega) (by omega)]

theorem le16_toNat (m : View) (p : Nat) :
    (m.le16 p).toNat = (m p).toNat + 256 * (m (p + 1)).toNat := by
  have h0 := (m p).toNat_lt
  have h1 := (m (p + 1)).toNat_lt
  unfold le16
  rw [UInt16.toNat_ofNat', Nat.mod_eq_of_lt (by omega)]

/-! ## Runs of bytes -/

/-- The `n` bytes from offset `p`. -/
def slice (m : View) (p n : Nat) : Bytes := (List.range n).map fun i => m (p + i)

@[simp] theorem slice_length (m : View) (p n : Nat) : (m.slice p n).length = n := by
  simp [slice]

theorem slice_succ (m : View) (p n : Nat) : m.slice p (n + 1) = m p :: m.slice (p + 1) n := by
  unfold slice
  rw [List.range_succ_eq_map, List.map_cons, List.map_map]
  refine congrArg (m p :: ·) (List.map_congr_left fun i _ => ?_)
  exact congrArg m (Nat.add_right_comm p 1 i).symm

theorem slice_getElem? (m : View) (p : Nat) {n i : Nat} (h : i < n) :
    (m.slice p n)[i]? = some (m (p + i)) := by
  rw [slice, List.getElem?_map, List.getElem?_range h, Option.map_some]

theorem take_slice (m : View) (p : Nat) {n k : Nat} (h : k ≤ n) :
    (m.slice p n).take k = m.slice p k := by
  rw [slice, slice, ← List.map_take, List.take_range, Nat.min_eq_left h]

theorem slice_congr {m m' : View} {p n : Nat} (h : Agree m m' p (p + n)) :
    m.slice p n = m'.slice p n := by
  unfold slice
  apply List.map_congr_left
  intro i hi
  rw [List.mem_range] at hi
  exact h (p + i) (by omega) (by omega)

theorem slice_view (l : Bytes) {p n : Nat} (h : p + n ≤ l.length) :
    l.view.slice p n = (l.drop p).take n := by
  apply List.ext_getElem
  · simp only [slice_length, List.length_take, List.length_drop]; omega
  · intro i h1 h2
    simp only [slice_length] at h1
    simp only [slice, List.getElem_map, List.getElem_range, List.getElem_take, List.getElem_drop,
      Bytes.view]
    exact List.getD_eq_getElem _ _ (by omega)

end View

theorem Bytes.view_append_left {a : Bytes} (b : Bytes) {i : Nat} (h : i < a.length) :
    Bytes.view (a ++ b) i = a.view i := by
  unfold Bytes.view
  rw [List.getD_append _ _ _ _ h]

theorem Bytes.view_append_right (a b : Bytes) (i : Nat) :
    Bytes.view (a ++ b) (a.length + i) = b.view i := by
  unfold Bytes.view
  rw [List.getD_append_right _ _ _ _ (by omega), Nat.add_sub_cancel_left]

theorem Bytes.agree_append (a b : Bytes) : View.Agree (Bytes.view (a ++ b)) a.view 0 a.length :=
  fun _ _ h => Bytes.view_append_left b h

/-- In a concatenation of records of `k` bytes, record `i` starts at `k * i`. -/
theorem Bytes.view_flatMap {α : Type*} {f : α → Bytes} {k : Nat} (hk : ∀ x, (f x).length = k)
    (l : List α) {i : Nat} (hi : i < l.length) :
    View.Agree ((Bytes.view (l.flatMap f)).shift (k * i)) (f l[i]).view 0 k := by
  induction l generalizing i with
  | nil => simp at hi
  | cons x xs ih =>
    intro j _ hj
    rw [List.flatMap_cons]
    cases i with
    | zero =>
      simp only [View.shift, Nat.mul_zero, Nat.zero_add, List.getElem_cons_zero]
      exact Bytes.view_append_left _ (by rw [hk]; exact hj)
    | succ i =>
      have := ih (i := i) (by simpa using hi) j (by omega) hj
      simp only [View.shift, List.getElem_cons_succ] at this ⊢
      rw [← this, show k * (i + 1) + j = (f x).length + (k * i + j) by rw [hk, Nat.mul_succ]; omega]
      exact Bytes.view_append_right _ _ _

/-! ## Laying words out -/

def u16Bytes (v : UInt16) : Bytes := [UInt8.ofNat (v.toNat % 256), UInt8.ofNat (v.toNat / 256)]

def u32Bytes (v : UInt32) : Bytes :=
  [UInt8.ofNat (v.toNat % 256), UInt8.ofNat (v.toNat / 256 % 256),
    UInt8.ofNat (v.toNat / 65536 % 256), UInt8.ofNat (v.toNat / 16777216)]

@[simp] theorem u16Bytes_length (v : UInt16) : (u16Bytes v).length = 2 := rfl

@[simp] theorem u32Bytes_length (v : UInt32) : (u32Bytes v).length = 4 := rfl

private theorem byte_toNat {n : Nat} (h : n < 256) : (UInt8.ofNat n).toNat = n := by
  rw [UInt8.toNat_ofNat', Nat.mod_eq_of_lt (by omega)]

theorem u16Bytes_le16 (v : UInt16) : (u16Bytes v).view.le16 0 = v := by
  have h := v.toNat_lt
  apply UInt16.toNat_inj.mp
  rw [View.le16_toNat]
  show (UInt8.ofNat (v.toNat % 256)).toNat + 256 * (UInt8.ofNat (v.toNat / 256)).toNat = _
  rw [byte_toNat (by omega), byte_toNat (by omega)]
  omega

theorem u32Bytes_le32 (v : UInt32) : (u32Bytes v).view.le32 0 = v := by
  have h := v.toNat_lt
  apply UInt32.toNat_inj.mp
  show (UInt32.ofNat ((UInt8.ofNat (v.toNat % 256)).toNat +
    256 * (UInt8.ofNat (v.toNat / 256 % 256)).toNat +
    65536 * (UInt8.ofNat (v.toNat / 65536 % 256)).toNat +
    16777216 * (UInt8.ofNat (v.toNat / 16777216)).toNat)).toNat = _
  rw [byte_toNat (by omega), byte_toNat (by omega), byte_toNat (by omega), byte_toNat (by omega),
    UInt32.toNat_ofNat', Nat.mod_eq_of_lt (by omega)]
  omega

/-! ## Writes -/

namespace View

/-- The memory after writes through the pointer, each a byte and where it goes. -/
def store (m : View) (ws : List (UInt8 × Nat)) : View :=
  ws.foldl (fun m w => Function.update m w.2 w.1) m

theorem store_of_notMem {m : View} {ws : List (UInt8 × Nat)} {i : Nat}
    (h : ∀ w ∈ ws, w.2 ≠ i) : m.store ws i = m i := by
  induction ws generalizing m with
  | nil => rfl
  | cons w ws ih =>
    rw [List.forall_mem_cons] at h
    exact (ih h.2).trans (Function.update_of_ne (Ne.symm h.1) ..)

/-- Written one behind the other, the bytes are there. -/
theorem slice_store (m : View) (l : Bytes) (p : Nat) :
    (m.store (l.zipIdx p)).slice p l.length = l := by
  induction l generalizing m p with
  | nil => rfl
  | cons b l ih =>
    have hstep : m.store ((b :: l).zipIdx p) =
        store (Function.update m p b) (l.zipIdx (p + 1)) := rfl
    have hfirst : store (Function.update m p b) (l.zipIdx (p + 1)) p = b := by
      rw [store_of_notMem fun w hw => ?_]
      · exact Function.update_self ..
      · have := List.le_snd_of_mem_zipIdx hw
        omega
    rw [hstep, List.length_cons, slice_succ, hfirst, ih]

end View

/-! ## Fixed buffers -/

/-- A `uint8_t[n]`. -/
abbrev Buf (n : Nat) := Vector UInt8 n

namespace Buf

variable {n : Nat}

/-- The buffer as memory. -/
def view (b : Buf n) : View := fun i => b[i]?.getD 0

/-- `b[i] = v`. -/
def put (b : Buf n) (i : Nat) (v : UInt8) : Buf n := b.setIfInBounds i v

/-- Successive writes from position `p` on. -/
def putAll (b : Buf n) (p : Nat) : Bytes → Buf n
  | [] => b
  | v :: vs => putAll (b.put p v) (p + 1) vs

theorem view_put (b : Buf n) {p : Nat} (v : UInt8) (hp : p < n) (i : Nat) :
    (b.put p v).view i = if i = p then v else b.view i := by
  unfold view put
  rw [Vector.getElem?_setIfInBounds]
  by_cases h : p = i
  · subst h; simp [hp]
  · simp [h, Ne.symm h]

theorem putAll_append (b : Buf n) (p : Nat) (xs ys : Bytes) :
    b.putAll p (xs ++ ys) = (b.putAll p xs).putAll (p + xs.length) ys := by
  induction xs generalizing b p with
  | nil => rfl
  | cons x xs ih =>
    simp only [List.cons_append, putAll, ih, List.length_cons]
    congr 1
    omega

theorem view_putAll (b : Buf n) {p : Nat} (xs : Bytes) (h : p + xs.length ≤ n) (i : Nat) :
    (b.putAll p xs).view i =
      if p ≤ i ∧ i < p + xs.length then xs.view (i - p) else b.view i := by
  induction xs generalizing b p with
  | nil => simp only [putAll, List.length_nil]; rw [if_neg (by omega)]
  | cons x xs ih =>
    simp only [List.length_cons] at h
    rw [putAll, ih (b.put p x) (by omega), view_put b x (by omega)]
    simp only [List.length_cons]
    by_cases hi : p + 1 ≤ i ∧ i < p + 1 + xs.length
    · rw [if_pos hi, if_pos (by omega), show i - p = (i - (p + 1)) + 1 by omega]
      rfl
    · rw [if_neg hi]
      by_cases he : i = p
      · subst he
        rw [if_pos rfl, if_pos (by omega), Nat.sub_self]
        rfl
      · rw [if_neg he, if_neg (by omega)]

/-- A buffer written from its start holds what was written. -/
theorem agree_putAll (b : Buf n) (xs : Bytes) (h : xs.length ≤ n) :
    View.Agree (b.putAll 0 xs).view xs.view 0 xs.length := by
  intro i _ hi
  rw [view_putAll b xs (by omega), if_pos (by omega), Nat.sub_zero]

end Buf

end NetMon.Lib
