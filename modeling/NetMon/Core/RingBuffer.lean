import NetMon.Lib.BoundedQueue

/-!
# The ring buffer

`ring_buffer.c`, with the undefined steps of its C as `none`: an `int` that overflows, a
remainder by zero, an index outside the array. A buffer over an array of `capacity` floats takes
none of them, and shows the last `capacity` values pushed (`ringBuffer_slides`).
-/

namespace NetMon.Core

open NetMon.Lib

/-- `ring_buffer_t`; `data` may be null. -/
structure RingBuffer (α : Type) where
  data : Option (List α)
  capacity : Int
  head : Int
  count : Int

variable {α : Type}

def ringBufferInit (backingArray : Option (List α)) (capacity : Int) : RingBuffer α where
  data := backingArray
  capacity := capacity
  head := 0
  count := 0

def ringBufferPush (rb : RingBuffer α) (value : α) : Option (RingBuffer α) :=
  match rb.data with
  | none => some rb
  | some data =>
    if rb.capacity ≤ 0 then some rb
    else do
      let data ← CArray.store data rb.head value
      let head ← CInt.mod (← CInt.add rb.head 1) rb.capacity
      let rb := { rb with data := some data, head := head }
      if rb.count < rb.capacity then do
        let count ← CInt.add rb.count 1
        return { rb with count := count }
      else return rb

/-- The slot of entry `index`; index 0 is the oldest entry. -/
def ringBufferPos (rb : RingBuffer α) (index : Int) : Option Int := do
  let start ← CInt.mod (← CInt.add (← CInt.sub rb.head rb.count) rb.capacity) rb.capacity
  CInt.mod (← CInt.add start index) rb.capacity

def ringBufferGet [Zero α] (rb : RingBuffer α) (index : Int) : Option α :=
  match rb.data with
  | none => some 0
  | some data =>
    if index < 0 ∨ index ≥ rb.count then some 0
    else do CArray.load data (← ringBufferPos rb index)

def ringBufferClear (rb : RingBuffer α) : RingBuffer α := { rb with head := 0, count := 0 }

def ringBufferFull (rb : RingBuffer α) : Bool := rb.count ≥ rb.capacity

def ringBufferEmpty (rb : RingBuffer α) : Bool := rb.count = 0

/-- One call of its users. -/
def ringBufferApply (rb : RingBuffer α) : QueueOp α → Option (RingBuffer α)
  | .push value => ringBufferPush rb value
  | .clear => some (ringBufferClear rb)

/-! ## The ring it keeps -/

/-- A ring as `ring_buffer_t`. -/
def RingBuffer.ofRing {cap : Nat} (r : Ring α cap) : RingBuffer α where
  data := some r.buf.toList
  capacity := cap
  head := r.head
  count := r.count

section Ring

variable {cap : Nat} (hint : 2 * (cap : Int) ≤ intMax) (r : Ring α cap)

include hint

theorem ringBufferPush_ofRing (value : α) :
    ringBufferPush (.ofRing r) value = some (.ofRing (r.push value)) := by
  have hhead := r.head_lt
  have hstore : CArray.store r.buf.toList r.head value = some (r.push value).buf.toList := by
    rw [CArray.store_natCast (by rw [Vector.length_toList]; exact hhead), Ring.push,
      Vector.toList_set]
  have hcap : ¬ (cap : Int) ≤ 0 := by omega
  simp only [ringBufferPush, RingBuffer.ofRing, if_neg hcap, hstore, r.head_add_one hint,
    r.head_turn hint, r.count_add_one hint, Option.bind_eq_bind, Option.bind_some, Int.ofNat_lt]
  by_cases hroom : r.count < cap
  · rw [if_pos hroom]
    simp only [Ring.push, if_pos hroom]
    rfl
  · rw [if_neg hroom]
    simp only [Ring.push, if_neg hroom]
    rfl

/-- The two remainders are the one the chart readers take. -/
theorem ringBufferPos_ofRing {j : Nat} (hj : j < r.count) :
    ringBufferPos (.ofRing r) j = some ((r.readIdx j : Nat) : Int) := by
  have hhead := r.head_lt
  have hcount := r.count_le
  have hmin : intMin = -2147483648 := rfl
  have hmax : intMax = 2147483647 := rfl
  have hfrom : CInt.add ((r.head : Int) - r.count) cap =
      some ((r.head + (cap - r.count) : Nat) : Int) := by
    rw [CInt.add_eq (by omega) (by omega)]
    congr 1
    omega
  have hstart := CInt.mod_natCast (a := r.head + (cap - r.count)) (b := cap) (by omega) (by omega)
  have hlt := Nat.mod_lt (r.head + (cap - r.count)) (show cap > 0 by omega)
  have hsum : CInt.add ((r.head + (cap - r.count)) % cap : Nat) j =
      some (((r.head + (cap - r.count)) % cap + j : Nat) : Int) :=
    CInt.add_eq (by omega) (by omega)
  have hturn := CInt.mod_natCast (a := (r.head + (cap - r.count)) % cap + j) (b := cap) (by omega)
    (by omega)
  simp only [ringBufferPos, RingBuffer.ofRing, r.head_sub_count hint, hfrom, hstart, hsum, hturn,
    Option.bind_eq_bind, Option.bind_some]
  rw [r.readIdx_eq, Nat.mod_add_mod]

theorem ringBufferGet_ofRing [Zero α] {j : Nat} (hj : j < r.count) :
    ringBufferGet (.ofRing r) j = r.buf.toList[r.readIdx j]? := by
  have hin : ¬ ((j : Int) < 0 ∨ (j : Int) ≥ r.count) := by omega
  have hpos := ringBufferPos_ofRing hint r hj
  unfold ringBufferGet
  simp only [hpos, Option.bind_eq_bind, Option.bind_some]
  show (if (j : Int) < 0 ∨ (j : Int) ≥ r.count then _ else _) = _
  rw [if_neg hin, CArray.load_natCast]

/-- The calls do to the buffer what the operations do to the ring. -/
theorem foldlM_ringBufferApply (ops : List (QueueOp α)) :
    ops.foldlM ringBufferApply (.ofRing r) = some (.ofRing (ops.foldl Ring.apply r)) := by
  apply Ring.foldlM_of_step
  intro r op
  cases op with
  | push value => exact ringBufferPush_ofRing hint r value
  | clear => rfl

end Ring

/-- The buffer is full when its ring is. -/
theorem ringBufferFull_ofRing {cap : Nat} (r : Ring α cap) :
    ringBufferFull (.ofRing r) = true ↔ r.recent.length = cap := by
  have hcount := r.count_le
  rw [r.recent_length]
  show decide ((r.count : Int) ≥ cap) = true ↔ _
  rw [decide_eq_true_iff]
  omega

theorem ringBufferEmpty_ofRing {cap : Nat} (r : Ring α cap) :
    ringBufferEmpty (.ofRing r) = true ↔ r.recent = [] := by
  rw [← List.length_eq_zero_iff, r.recent_length]
  show decide ((r.count : Int) = 0) = true ↔ _
  rw [decide_eq_true_iff]
  omega

/-- The window a ring buffer shows. -/
theorem ringBuffer_slides [Zero α] {cap : Nat} (hcap : 0 < cap) (hint : 2 * (cap : Int) ≤ intMax)
    {backing : List α} (hbacking : backing.length = cap) (ops : List (QueueOp α)) :
    ∃ rb, ops.foldlM ringBufferApply (ringBufferInit (some backing) cap) = some rb ∧
      SlidingWindow cap (sinceClear ops) rb.head rb.count (ringBufferPos rb)
        (ringBufferGet rb) := by
  obtain ⟨buf, rfl⟩ := exists_vector hbacking
  obtain ⟨hpacked, hrecent⟩ := Ring.foldl_apply_recent buf hcap ops
  refine ⟨_, foldlM_ringBufferApply hint (Ring.empty buf hcap) ops, ?_⟩
  apply Ring.slidingWindow hpacked hrecent
  · exact fun j hj => ringBufferPos_ofRing hint _ hj
  · exact fun j hj => ringBufferGet_ofRing hint _ hj

end NetMon.Core
