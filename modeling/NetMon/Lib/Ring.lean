import Mathlib.Data.List.DropRight
import Mathlib.Data.List.Rotate

/-!
# Ring buffers

An array written at a head index that wraps, and the count of the slots written so far.
The bounds the code relies on are fields, so a ring outside them cannot be built.

`slots` is what an array walk sees, `recent` the same entries from the oldest to the newest.
After any pushes `recent` is the last `cap` entries pushed (`foldl_push_recent`), and the
slots are in that order exactly when turning them by the head changes nothing
(`map_slots_eq_iff`). A loop over the positions reads `recent` (`Packed.walk_eq`).
-/

namespace NetMon.Lib

structure Ring (α : Type*) (cap : Nat) where
  buf : Vector α cap
  head : Nat
  count : Nat
  head_lt : head < cap
  count_le : count ≤ cap
  deriving DecidableEq

namespace Ring

variable {α : Type*} {cap : Nat}

/-- All slots cleared. -/
def fresh (x : α) (hcap : 0 < cap) : Ring α cap where
  buf := Vector.replicate cap x
  head := 0
  count := 0
  head_lt := hcap
  count_le := Nat.zero_le cap

/-- A ring without entries, whatever its slots hold. -/
def empty (buf : Vector α cap) (hcap : 0 < cap) : Ring α cap where
  buf := buf
  head := 0
  count := 0
  head_lt := hcap
  count_le := Nat.zero_le cap

def clear (r : Ring α cap) : Ring α cap := empty r.buf (Nat.zero_lt_of_lt r.head_lt)

def push (r : Ring α cap) (x : α) : Ring α cap where
  buf := r.buf.set r.head x r.head_lt
  head := (r.head + 1) % cap
  count := if r.count < cap then r.count + 1 else r.count
  head_lt := Nat.mod_lt _ (Nat.zero_lt_of_lt r.head_lt)
  count_le := by
    have := r.count_le
    split <;> omega

/-- The same change in every slot. -/
def map (f : α → α) (r : Ring α cap) : Ring α cap := { r with buf := r.buf.map f }

/-- The slots in use, in memory order. -/
def slots (r : Ring α cap) : List α := r.buf.toList.take r.count

theorem map_slots (f : α → α) (r : Ring α cap) : (r.map f).slots = r.slots.map f := by
  rw [slots, slots, List.map_take]
  exact congrArg _ (Vector.toList_map ..)

theorem fresh_slots (x : α) (hcap : 0 < cap) : (fresh x hcap).slots = [] := rfl

theorem slots_length (r : Ring α cap) : r.slots.length = r.count := by
  have := r.count_le
  simp only [slots, List.length_take, Vector.length_toList]
  omega

/-! ## The order of the entries -/

/-- Until the ring is full the head is behind the slots in use. -/
def Packed (r : Ring α cap) : Prop := r.count < cap → r.head = r.count

/-- The entries from the oldest to the newest. -/
def recent (r : Ring α cap) : List α := r.slots.rotate r.head

theorem push_head (r : Ring α cap) (x : α) : (r.push x).head = (r.head + 1) % cap := rfl

theorem fresh_packed (x : α) (hcap : 0 < cap) : (fresh x hcap).Packed := fun _ => rfl

theorem push_packed {r : Ring α cap} (h : r.Packed) (x : α) : (r.push x).Packed := by
  intro hlt
  have hcount := r.count_le
  have hhead := r.head_lt
  simp only [push] at hlt ⊢
  split at hlt
  · next hroom => rw [h hroom, if_pos hroom, Nat.mod_eq_of_lt hlt]
  · omega

theorem map_packed {r : Ring α cap} (h : r.Packed) (f : α → α) : (r.map f).Packed := h

theorem map_recent (r : Ring α cap) (f : α → α) : (r.map f).recent = r.recent.map f := by
  rw [recent, map_slots, recent, List.map_rotate]
  rfl

/-- The slots hold the same entries in the order of the memory. -/
theorem recent_perm (r : Ring α cap) : r.recent.Perm r.slots := List.rotate_perm _ _

theorem recent_length (r : Ring α cap) : r.recent.length = r.count :=
  r.recent_perm.length_eq.trans r.slots_length

theorem recent_length_le (r : Ring α cap) : r.recent.length ≤ cap := by
  rw [recent_length]
  exact r.count_le

/-- While there is room the slots are in order. -/
theorem Packed.recent {r : Ring α cap} (h : r.Packed) (hroom : r.count < cap) :
    r.recent = r.slots := by
  rw [Ring.recent, h hroom, ← slots_length, List.rotate_length]

theorem slots_of_full {r : Ring α cap} (hfull : ¬ r.count < cap) : r.slots = r.buf.toList := by
  apply List.take_of_length_le
  rw [Vector.length_toList]
  omega

/-- The array after a push, the new entry between what stands before the head and behind it. -/
theorem push_buf (r : Ring α cap) (x : α) : (r.push x).buf.toList =
    (r.buf.toList.take r.head ++ [x]) ++ r.buf.toList.drop (r.head + 1) := by
  have hhead := r.head_lt
  rw [push, Vector.toList_set, List.set_eq_take_append_cons_drop,
    if_pos (by rw [Vector.length_toList]; exact hhead), List.append_assoc, List.singleton_append]

/-- A ring with room takes the new entry behind its slots. -/
theorem push_recent_of_room {r : Ring α cap} (h : r.Packed) (hroom : r.count < cap) (x : α) :
    (r.push x).recent = r.slots ++ [x] := by
  have hslots : (r.push x).slots = r.slots ++ [x] := by
    rw [slots, push_buf, List.take_left', slots, h hroom]
    simp only [push, if_pos hroom, List.length_append, List.length_take, Vector.length_toList,
      List.length_singleton, h hroom]
    omega
  rw [← hslots]
  by_cases hlast : r.count + 1 < cap
  · exact (push_packed h x).recent (by simpa only [push, if_pos hroom] using hlast)
  · have hwrap : (r.push x).head = 0 := by
      rw [push_head, h hroom, show r.count + 1 = cap by omega, Nat.mod_self]
    rw [recent, hwrap, List.rotate_zero]

/-- A full ring gives the slot of its oldest entry to the new one. -/
theorem push_recent_of_full {r : Ring α cap} (hfull : ¬ r.count < cap) (x : α) :
    (r.push x).recent = r.recent.tail ++ [x] := by
  have hlen : r.buf.toList.length = cap := Vector.length_toList
  have hhead : r.head < r.buf.toList.length := r.head_lt.trans_eq hlen.symm
  have hfull' : ¬ (r.push x).count < cap := by simpa only [push, if_neg hfull] using hfull
  have hpre : (r.buf.toList.take r.head ++ [x]).length = r.head + 1 := by simp; omega
  have hold : r.recent = r.buf.toList.drop r.head ++ r.buf.toList.take r.head := by
    rw [recent, slots_of_full hfull, List.rotate_eq_drop_append_take (by omega)]
  have hnew : (r.push x).recent =
      r.buf.toList.drop (r.head + 1) ++ (r.buf.toList.take r.head ++ [x]) := by
    have hturn := List.rotate_mod (r.push x).buf.toList (r.head + 1)
    rw [Vector.length_toList] at hturn
    rw [recent, slots_of_full hfull', push_head, hturn, push_buf,
      List.rotate_eq_drop_append_take (by rw [List.length_append, hpre]; omega),
      List.drop_left' hpre, List.take_left' hpre]
  rw [hnew, hold, List.drop_eq_getElem_cons hhead, List.cons_append, List.tail_cons,
    List.append_assoc]

/-- A push appends the newest entry and forgets the oldest when the ring is full. -/
theorem push_recent {r : Ring α cap} (h : r.Packed) (x : α) :
    (r.push x).recent = (r.recent ++ [x]).rtake cap := by
  have hlen := r.recent_length
  by_cases hroom : r.count < cap
  · rw [push_recent_of_room h hroom, h.recent hroom, List.rtake, List.length_append, slots_length,
      List.length_singleton, Nat.sub_eq_zero_of_le hroom, List.drop_zero]
  · have hcount : r.count = cap := le_antisymm r.count_le (not_lt.mp hroom)
    have hpos : 0 < r.recent.length := by have := r.head_lt; omega
    obtain ⟨y, ys, hys⟩ := List.exists_cons_of_length_pos hpos
    rw [push_recent_of_full hroom, List.rtake, List.length_append, List.length_singleton, hlen,
      hcount, Nat.add_sub_cancel_left, hys]
    rfl

theorem empty_packed (buf : Vector α cap) (hcap : 0 < cap) : (empty buf hcap).Packed := fun _ => rfl

theorem foldl_push_packed {r : Ring α cap} (h : r.Packed) (xs : List α) :
    (xs.foldl push r).Packed := by
  induction xs generalizing r with
  | nil => exact h
  | cons x xs ih => exact ih (push_packed h x)

theorem map_rtake {β : Type*} (f : α → β) (l : List α) (n : Nat) :
    (l.rtake n).map f = (l.map f).rtake n := by
  rw [List.rtake, List.rtake, List.map_drop, List.length_map]

theorem rtake_append_rtake (l m : List α) (n : Nat) :
    (l.rtake n ++ m).rtake n = (l ++ m).rtake n := by
  have hdrop : l.rtake n ++ m = (l ++ m).drop (l.length - n) :=
    (List.drop_append_of_le_length (Nat.sub_le ..)).symm
  rw [hdrop, List.rtake, List.rtake, List.drop_drop, List.length_drop, List.length_append]
  congr 1
  omega

/-- After any pushes the ring holds the last entries pushed. -/
theorem foldl_push_recent {r : Ring α cap} (h : r.Packed) (xs : List α) :
    (xs.foldl push r).recent = (r.recent ++ xs).rtake cap := by
  induction xs generalizing r with
  | nil =>
    rw [List.append_nil, List.rtake, Nat.sub_eq_zero_of_le r.recent_length_le]
    rfl
  | cons x xs ih =>
    rw [List.foldl_cons, ih (push_packed h x), push_recent h, rtake_append_rtake,
      ← List.append_cons]

/-- The array walk shows the entries in the order of their pushes exactly when turning that
order by the head changes nothing. -/
theorem map_slots_eq_iff {β : Type*} (f : α → β) (r : Ring α cap) :
    r.slots.map f = r.recent.map f ↔ (r.recent.map f).rotate r.head = r.recent.map f := by
  rw [recent, List.map_rotate, List.rotate_eq_rotate]
  exact eq_comm

/-! ## Reading by position -/

/-- `(head - count + j + capacity) % capacity` -/
def readIdx (r : Ring α cap) (j : Nat) : Nat :=
  (((r.head : Int) - r.count + j + cap).tmod cap).toNat

theorem readIdx_eq (r : Ring α cap) (j : Nat) :
    r.readIdx j = (r.head + (cap - r.count) + j) % cap := by
  have hcount := r.count_le
  have hsum : (r.head : Int) - r.count + j + cap =
      ((r.head + (cap - r.count) + j : Nat) : Int) := by
    omega
  rw [readIdx, hsum, ← Int.ofNat_tmod, Int.toNat_natCast]

theorem readIdx_lt (r : Ring α cap) (j : Nat) : r.readIdx j < cap := by
  rw [readIdx_eq]
  exact Nat.mod_lt _ (Nat.zero_lt_of_lt r.head_lt)

/-- A packed ring is read from its oldest entry on. -/
theorem Packed.getElem?_recent {r : Ring α cap} (h : r.Packed) {j : Nat} (hj : j < r.count) :
    r.recent[j]? = r.buf.toList[r.readIdx j]? := by
  have hcount := r.count_le
  rw [readIdx_eq]
  by_cases hroom : r.count < cap
  · rw [h.recent hroom, slots, List.getElem?_take_of_lt hj, h hroom,
      show r.count + (cap - r.count) + j = cap + j by omega, Nat.add_mod_left,
      Nat.mod_eq_of_lt (hj.trans_le hcount)]
  · have hlen : r.buf.toList.length = cap := Vector.length_toList
    rw [Ring.recent, slots_of_full hroom, List.getElem?_rotate (by omega), hlen,
      show r.head + (cap - r.count) + j = j + r.head by omega]

/-- What a loop over the positions reads. -/
def walk (r : Ring α cap) : List α :=
  (List.range r.count).map fun j =>
    have hidx := r.readIdx_lt j
    r.buf[r.readIdx j]

theorem Packed.walk_eq {r : Ring α cap} (h : r.Packed) : r.walk = r.recent := by
  have hlen := r.recent_length
  apply List.ext_getElem?
  intro j
  by_cases hj : j < r.count
  · rw [h.getElem?_recent hj, walk, List.getElem?_map, List.getElem?_range hj, Option.map_some]
    simp
  · rw [List.getElem?_eq_none (by simp [walk]; omega), List.getElem?_eq_none (by omega)]

end Ring

end NetMon.Lib
