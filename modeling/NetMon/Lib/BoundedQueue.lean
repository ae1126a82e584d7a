import NetMon.Lib.CInt
import NetMon.Lib.Ring

/-!
# Bounded queues

A queue of at most `cap` entries that forgets its oldest one to take another. It holds the last
`cap` of the entries pushed since it was last cleared (`foldl_apply_items`). A packed ring is
such a queue (`Ring.foldl_apply_queue`).

`SlidingWindow` is what a program sees of one through an array and its `int`s.
-/

namespace NetMon.Lib

variable {α : Type*} {cap : Nat}

inductive QueueOp (α : Type*) where
  | push (x : α)
  | clear

structure BoundedQueue (α : Type*) (cap : Nat) where
  items : List α
  bounded : items.length ≤ cap

/-- What a queue without a bound holds after an operation. -/
def QueueOp.append (xs : List α) : QueueOp α → List α
  | .push x => xs ++ [x]
  | .clear => []

/-- The entries pushed since the last clear. -/
def sinceClear (ops : List (QueueOp α)) : List α := ops.foldl QueueOp.append []

namespace BoundedQueue

def empty : BoundedQueue α cap := ⟨[], Nat.zero_le cap⟩

def push (q : BoundedQueue α cap) (x : α) : BoundedQueue α cap where
  items := (q.items ++ [x]).rtake cap
  bounded := by
    rw [List.rtake, List.length_drop]
    omega

def apply (q : BoundedQueue α cap) : QueueOp α → BoundedQueue α cap
  | .push x => q.push x
  | .clear => empty

theorem apply_items {q : BoundedQueue α cap} {xs : List α} (h : q.items = xs.rtake cap)
    (op : QueueOp α) : (q.apply op).items = (op.append xs).rtake cap := by
  cases op with
  | push x =>
    show (q.items ++ [x]).rtake cap = (xs ++ [x]).rtake cap
    rw [h, Ring.rtake_append_rtake]
  | clear => exact List.drop_nil.symm

/-- The queue is a window on what was pushed. -/
theorem foldl_apply_items (ops : List (QueueOp α)) :
    (ops.foldl apply (empty : BoundedQueue α cap)).items = (sinceClear ops).rtake cap := by
  suffices h : ∀ (q : BoundedQueue α cap) (xs : List α), q.items = xs.rtake cap →
      (ops.foldl apply q).items = (ops.foldl QueueOp.append xs).rtake cap from
    h empty [] List.drop_nil.symm
  induction ops with
  | nil => exact fun _ _ h => h
  | cons op ops ih => exact fun q xs h => ih _ _ (apply_items h op)

end BoundedQueue

/-! ## Rings -/

namespace Ring

def apply (r : Ring α cap) : QueueOp α → Ring α cap
  | .push x => r.push x
  | .clear => r.clear

def queue (r : Ring α cap) : BoundedQueue α cap := ⟨r.recent, r.recent_length_le⟩

theorem apply_packed {r : Ring α cap} (h : r.Packed) : ∀ op : QueueOp α, (r.apply op).Packed
  | .push x => push_packed h x
  | .clear => empty_packed _ _

theorem apply_queue {r : Ring α cap} (h : r.Packed) :
    ∀ op : QueueOp α, (r.apply op).queue = r.queue.apply op
  | .push x => by
    have hpush := push_recent h x
    simp only [queue, apply, BoundedQueue.apply, BoundedQueue.push, hpush]
  | .clear => rfl

/-- A ring behaves as the queue of its recent entries. -/
theorem foldl_apply_queue {r : Ring α cap} (h : r.Packed) (ops : List (QueueOp α)) :
    (ops.foldl apply r).Packed ∧
      (ops.foldl apply r).queue = ops.foldl BoundedQueue.apply r.queue := by
  induction ops generalizing r with
  | nil => exact ⟨h, rfl⟩
  | cons op ops ih =>
    rw [List.foldl_cons, List.foldl_cons, ← apply_queue h op]
    exact ih (apply_packed h op)

/-- From empty on it holds the last entries pushed since the last clear. -/
theorem foldl_apply_recent (buf : Vector α cap) (hcap : 0 < cap) (ops : List (QueueOp α)) :
    (ops.foldl apply (empty buf hcap)).Packed ∧
      (ops.foldl apply (empty buf hcap)).recent = (sinceClear ops).rtake cap := by
  obtain ⟨hpacked, hqueue⟩ := foldl_apply_queue (empty_packed buf hcap) ops
  exact ⟨hpacked, (congrArg BoundedQueue.items hqueue).trans (BoundedQueue.foldl_apply_items ops)⟩

/-- A program whose every step does to its view of a ring what the operation does to the ring
runs with the ring. -/
theorem foldlM_of_step {β : Type} {view : Ring α cap → β} {step : β → QueueOp α → Option β}
    (hstep : ∀ r op, step (view r) op = some (view (r.apply op))) (r : Ring α cap)
    (ops : List (QueueOp α)) : ops.foldlM step (view r) = some (view (ops.foldl apply r)) := by
  induction ops generalizing r with
  | nil => rfl
  | cons op ops ih =>
    rw [List.foldlM_cons, hstep, List.foldl_cons, ← ih]
    rfl

end Ring

/-! ## Windows in memory -/

section Ints

variable (hint : 2 * (cap : Int) ≤ intMax) (r : Ring α cap)

include hint

theorem Ring.head_add_one : CInt.add r.head 1 = some ((r.head + 1 : Nat) : Int) := by
  have hhead := r.head_lt
  have hmin : intMin ≤ 0 := by decide
  exact CInt.add_eq (by omega) (by omega)

theorem Ring.head_turn :
    CInt.mod (r.head + 1 : Nat) cap = some (((r.head + 1) % cap : Nat) : Int) := by
  have hhead := r.head_lt
  exact CInt.mod_natCast (by omega) (by omega)

theorem Ring.count_add_one : CInt.add r.count 1 = some ((r.count + 1 : Nat) : Int) := by
  have hhead := r.head_lt
  have hcount := r.count_le
  have hmin : intMin ≤ 0 := by decide
  exact CInt.add_eq (by omega) (by omega)

/-- A reader goes back by the count first, which may be below the array. -/
theorem Ring.head_sub_count : CInt.sub r.head r.count = some ((r.head : Int) - r.count) := by
  have hhead := r.head_lt
  have hcount := r.count_le
  have hmin : intMin = -2147483648 := rfl
  have hmax : intMax = 2147483647 := rfl
  exact CInt.sub_eq (by omega) (by omega)

end Ints

/-- An array of `cap` slots with a head and a count shows the last of the entries pushed: `index`
computes the slot of a position, the oldest entry being at 0, and `get` reads there. -/
structure SlidingWindow (cap : Nat) (pushed : List α) (head count : Int)
    (index : Int → Option Int) (get : Int → Option α) : Prop where
  head_mem : 0 ≤ head ∧ head < cap
  count_mem : 0 ≤ count ∧ count ≤ cap
  count_eq : count = min pushed.length cap
  index_mem : ∀ j, 0 ≤ j → j < count → ∃ i, index j = some i ∧ 0 ≤ i ∧ i < cap
  get_eq : ∀ j : Nat, (j : Int) < count →
    ∃ x, get j = some x ∧ (pushed.rtake count.toNat)[j]? = some x

theorem exists_vector {l : List α} (h : l.length = cap) : ∃ v : Vector α cap, v.toList = l :=
  ⟨⟨l.toArray, by rw [List.size_toArray, h]⟩, rfl⟩

theorem rtake_min_length (l : List α) (n : Nat) : l.rtake (min l.length n) = l.rtake n := by
  rw [List.rtake, List.rtake]
  congr 1
  omega

/-- A ring shows its window to code that computes and reads `readIdx`. -/
theorem Ring.slidingWindow {r : Ring α cap} (h : r.Packed) {pushed : List α}
    (hrecent : r.recent = pushed.rtake cap) {index : Int → Option Int} {get : Int → Option α}
    (hindex : ∀ j : Nat, j < r.count → index j = some ((r.readIdx j : Nat) : Int))
    (hget : ∀ j : Nat, j < r.count → get j = r.buf.toList[r.readIdx j]?) :
    SlidingWindow cap pushed r.head r.count index get := by
  have hhead := r.head_lt
  have hcount := r.count_le
  have hlen : r.count = min pushed.length cap := by
    have hlength := congrArg List.length hrecent
    rw [recent_length, List.rtake, List.length_drop] at hlength
    omega
  refine ⟨by omega, by omega, by omega, ?_, ?_⟩
  · intro j h0 hj
    obtain ⟨k, rfl⟩ := Int.eq_ofNat_of_zero_le h0
    have hlt := r.readIdx_lt k
    exact ⟨_, hindex k (by omega), by omega, by omega⟩
  · intro j hj
    have hjr : j < r.recent.length := by
      rw [recent_length]
      omega
    refine ⟨r.recent[j], ?_, ?_⟩
    · rw [hget j (by omega), ← h.getElem?_recent (by omega), List.getElem?_eq_getElem hjr]
    · rw [Int.toNat_natCast, hlen, rtake_min_length, ← hrecent, List.getElem?_eq_getElem hjr]

end NetMon.Lib
