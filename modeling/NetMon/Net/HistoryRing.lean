import NetMon.Core.RingBuffer
import NetMon.Net.Collector

/-!
# The history arrays

`history_push` works on an array and on a head and a count behind pointers; the chart loops
compute the slot of a position anew each time. Like the ring buffer's own functions, the two
never leave the array and show the last `capacity` samples pushed (`rings_slide`).
-/

namespace NetMon.Net

open NetMon.Lib NetMon.Core

/-- A row's array in `g_short_history` or `g_long_history`, with its head and count. -/
structure HistoryArray where
  buf : List NetHistorySample
  head : Int
  count : Int

def historyPush (h : HistoryArray) (capacity : Int) (rx tx : ℚ) : Option HistoryArray := do
  let buf ← CArray.modify h.buf h.head fun s => { s with rxBps := rx }
  let buf ← CArray.modify buf h.head fun s => { s with txBps := tx }
  let head ← CInt.mod (← CInt.add h.head 1) capacity
  if h.count < capacity then do
    let count ← CInt.add h.count 1
    return ⟨buf, head, count⟩
  else return ⟨buf, head, h.count⟩

/-- `(head - count + j + capacity) % capacity` -/
def chartIdx (h : HistoryArray) (capacity j : Int) : Option Int := do
  let back ← CInt.sub h.head h.count
  let pos ← CInt.add back j
  CInt.mod (← CInt.add pos capacity) capacity

/-- `hist[idx]` -/
def chartRead (h : HistoryArray) (capacity j : Int) : Option NetHistorySample :=
  (chartIdx h capacity j).bind (CArray.load h.buf)

/-- A push, or the zeros in head and count that the start finds. -/
def historyApply (capacity : Int) (h : HistoryArray) :
    QueueOp NetHistorySample → Option HistoryArray
  | .push s => historyPush h capacity s.rxBps s.txBps
  | .clear => some { h with head := 0, count := 0 }

/-! ## The rings of the collector -/

/-- The array, head and count that a ring of the collector stands for. -/
def HistoryArray.ofRing {cap : Nat} (r : Ring NetHistorySample cap) : HistoryArray where
  buf := r.buf.toList
  head := r.head
  count := r.count

section Ring

variable {cap : Nat} (hint : 2 * (cap : Int) ≤ intMax) (r : Ring NetHistorySample cap)

include hint

theorem historyPush_ofRing (s : NetHistorySample) :
    historyPush (.ofRing r) cap s.rxBps s.txBps = some (.ofRing (r.push s)) := by
  have hhead := r.head_lt
  have hlen : r.head < r.buf.toList.length := by rwa [Vector.length_toList]
  have hrx := CArray.modify_natCast hlen fun x => { x with rxBps := s.rxBps }
  have htx := CArray.modify_natCast
    (a := r.buf.toList.modify r.head fun x => { x with rxBps := s.rxBps })
    (by rwa [List.length_modify]) fun x => { x with txBps := s.txBps }
  -- the two fields are all of the sample
  have hboth : (r.buf.toList.modify r.head fun x => { x with rxBps := s.rxBps }).modify r.head
      (fun x => { x with txBps := s.txBps }) = (r.push s).buf.toList := by
    rw [List.modify_modify_eq, Ring.push, Vector.toList_set, List.set_eq_modify]
    rfl
  simp only [historyPush, HistoryArray.ofRing, hrx, htx, hboth, r.head_add_one hint,
    r.head_turn hint, r.count_add_one hint, Option.bind_eq_bind, Option.bind_some, Int.ofNat_lt]
  by_cases hroom : r.count < cap
  · rw [if_pos hroom]
    simp only [Ring.push, if_pos hroom]
    rfl
  · rw [if_neg hroom]
    simp only [Ring.push, if_neg hroom]
    rfl

theorem chartIdx_ofRing {j : Nat} (hj : j < r.count) :
    chartIdx (.ofRing r) cap j = some ((r.readIdx j : Nat) : Int) := by
  have hhead := r.head_lt
  have hcount := r.count_le
  have hmin : intMin = -2147483648 := rfl
  have hmax : intMax = 2147483647 := rfl
  have hpos : CInt.add ((r.head : Int) - r.count) j = some ((r.head : Int) - r.count + j) :=
    CInt.add_eq (by omega) (by omega)
  have hsum : CInt.add ((r.head : Int) - r.count + j) cap =
      some ((r.head + (cap - r.count) + j : Nat) : Int) := by
    rw [CInt.add_eq (by omega) (by omega)]
    congr 1
    omega
  have hturn := CInt.mod_natCast (a := r.head + (cap - r.count) + j) (b := cap) (by omega)
    (by omega)
  simp only [chartIdx, HistoryArray.ofRing, r.head_sub_count hint, hpos, hsum, hturn,
    Option.bind_eq_bind, Option.bind_some]
  rw [r.readIdx_eq]

theorem chartRead_ofRing {j : Nat} (hj : j < r.count) :
    chartRead (.ofRing r) cap j = r.buf.toList[r.readIdx j]? := by
  rw [chartRead, chartIdx_ofRing hint r hj, Option.bind_some, CArray.load_natCast]
  rfl

/-- The loops over the positions read what the charts plot. -/
theorem mapM_chartRead :
    (List.range r.count).mapM (fun j => chartRead (.ofRing r) cap (j : Nat)) = some r.walk := by
  have hread : ∀ js : List Nat, (∀ j ∈ js, j < r.count) →
      js.mapM (fun j => chartRead (.ofRing r) cap (j : Nat)) = some (js.map fun j =>
        have hidx := r.readIdx_lt j
        r.buf[r.readIdx j]) := by
    intro js
    induction js with
    | nil => exact fun _ => rfl
    | cons j js ih =>
      intro hjs
      rw [List.forall_mem_cons] at hjs
      have hidx := r.readIdx_lt j
      have hj : chartRead (.ofRing r) cap j = some r.buf[r.readIdx j] := by
        rw [chartRead_ofRing hint r hjs.1]
        simp
      rw [List.mapM_cons, hj, ih hjs.2]
      rfl
  exact hread _ fun j hj => List.mem_range.mp hj

theorem foldlM_historyApply (ops : List (QueueOp NetHistorySample)) :
    ops.foldlM (historyApply cap) (.ofRing r) = some (.ofRing (ops.foldl Ring.apply r)) := by
  apply Ring.foldlM_of_step
  intro r op
  cases op with
  | push s => exact historyPush_ofRing hint r s
  | clear => rfl

end Ring

theorem history_slides {cap : Nat} (hcap : 0 < cap) (hint : 2 * (cap : Int) ≤ intMax)
    {buf : List NetHistorySample} (hbuf : buf.length = cap)
    (ops : List (QueueOp NetHistorySample)) :
    ∃ h, ops.foldlM (historyApply cap) ⟨buf, 0, 0⟩ = some h ∧
      SlidingWindow cap (sinceClear ops) h.head h.count (chartIdx h cap) (chartRead h cap) := by
  obtain ⟨slots, rfl⟩ := exists_vector hbuf
  obtain ⟨hpacked, hrecent⟩ := Ring.foldl_apply_recent slots hcap ops
  refine ⟨_, foldlM_historyApply hint (Ring.empty slots hcap) ops, ?_⟩
  apply Ring.slidingWindow hpacked hrecent
  · exact fun j hj => chartIdx_ofRing hint _ hj
  · exact fun j hj => chartRead_ofRing hint _ hj

/-- A chart loop reads all of the window, from the oldest sample on. -/
theorem history_plotted {cap : Nat} (hcap : 0 < cap) (hint : 2 * (cap : Int) ≤ intMax)
    {buf : List NetHistorySample} (hbuf : buf.length = cap)
    (ops : List (QueueOp NetHistorySample)) :
    ∃ h, ops.foldlM (historyApply cap) ⟨buf, 0, 0⟩ = some h ∧
      (List.range h.count.toNat).mapM (fun j => chartRead h cap (j : Nat)) =
        some ((sinceClear ops).rtake cap) := by
  obtain ⟨slots, rfl⟩ := exists_vector hbuf
  obtain ⟨hpacked, hrecent⟩ := Ring.foldl_apply_recent slots hcap ops
  refine ⟨_, foldlM_historyApply hint (Ring.empty slots hcap) ops, ?_⟩
  rw [← hrecent, ← hpacked.walk_eq]
  exact mapM_chartRead hint _

/-- **Rings slide.** Whatever is pushed and cleared, both implementations hold the last
`capacity` values pushed since the last clear, read them from the oldest on, and never compute a
slot outside the array. -/
theorem rings_slide {α : Type} [Zero α] {cap : Nat} (hcap : 0 < cap)
    (hint : 2 * (cap : Int) ≤ intMax) :
    (∀ (backing : List α) (ops : List (QueueOp α)), backing.length = cap →
      ∃ rb, ops.foldlM ringBufferApply (ringBufferInit (some backing) cap) = some rb ∧
        SlidingWindow cap (sinceClear ops) rb.head rb.count (ringBufferPos rb)
          (ringBufferGet rb)) ∧
    ∀ (buf : List NetHistorySample) (ops : List (QueueOp NetHistorySample)), buf.length = cap →
      ∃ h, ops.foldlM (historyApply cap) ⟨buf, 0, 0⟩ = some h ∧
        SlidingWindow cap (sinceClear ops) h.head h.count (chartIdx h cap) (chartRead h cap) := by
  constructor
  · exact fun backing ops hlen => ringBuffer_slides hcap hint hlen ops
  · exact fun buf ops hlen => history_slides hcap hint hlen ops

/-- Three pushes into two slots, and one behind a clear. -/
theorem rings_slide_two :
    (∃ rb, [.push 1, .push 2, .push 3].foldlM ringBufferApply (ringBufferInit (some [0, 0]) 2) =
        some rb ∧
      SlidingWindow 2 [1, 2, (3 : ℚ)] rb.head rb.count (ringBufferPos rb) (ringBufferGet rb)) ∧
    ∃ h, [.push ⟨1, 1⟩, .clear, .push ⟨2, 5⟩].foldlM (historyApply 2)
        ⟨[default, default], 0, 0⟩ = some h ∧
      SlidingWindow 2 [⟨2, 5⟩] h.head h.count (chartIdx h 2) (chartRead h 2) :=
  have hboth := @rings_slide ℚ _ 2 (by decide) (by decide)
  ⟨hboth.1 [0, 0] [.push 1, .push 2, .push 3] rfl,
    hboth.2 [default, default] [.push ⟨1, 1⟩, .clear, .push ⟨2, 5⟩] rfl⟩

end NetMon.Net
