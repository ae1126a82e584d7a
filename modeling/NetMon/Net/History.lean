import Mathlib.Tactic.Linarith
import Mathlib.Tactic.Ring
import NetMon.Net.Rates

/-!
# Short and long history

Every sample a fast tick computes goes to its row's short history and into the row's
minute accumulators; every 60th fast tick the accumulators of the table's rows go to the
long history as averages. `recorder` is the collector emitting these pushes, row by row;
the rings are what was pushed into them (`recorder_rings`).

* `acc_fastTimerCb`: a tick changes an accumulator by what it pushes.
* `long_silent`, `long_flush`: long samples come with the 60th tick and only then.
-/

namespace NetMon.Net

open NetMon.Lib NetMon.Core

/-- A `history_push`. -/
inductive HistoryPush where
  | short (row : Nat) (sample : NetHistorySample)
  | long (row : Nat) (sample : NetHistorySample)
  deriving DecidableEq

/-- The samples pushed to row `k`'s short history. -/
def shortOf (k : Nat) (ps : List HistoryPush) : List NetHistorySample :=
  ps.filterMap fun
    | .short row x => if row = k then some x else none
    | .long _ _ => none

/-- The samples pushed to row `k`'s long history. -/
def longOf (k : Nat) (ps : List HistoryPush) : List NetHistorySample :=
  ps.filterMap fun
    | .short _ _ => none
    | .long row x => if row = k then some x else none

theorem shortOf_append (k : Nat) (ps qs : List HistoryPush) :
    shortOf k (ps ++ qs) = shortOf k ps ++ shortOf k qs := List.filterMap_append

theorem longOf_append (k : Nat) (ps qs : List HistoryPush) :
    longOf k (ps ++ qs) = longOf k ps ++ longOf k qs := List.filterMap_append

/-- The collector as the flush finds it: the tick's rates are in. -/
def sampled (c : Collector) (f : FastInput) : Collector := computeRates f (updateSysinfo f c)

/-- The minute average of a row. -/
def minuteAverage (c : Collector) (k : Nat) : NetHistorySample :=
  ⟨c.minuteRxAcc k / 60, c.minuteTxAcc k / 60⟩

/-- The next fast tick completes a minute. -/
def Completes (c : Collector) : Prop := c.minuteSampleCount + 1 ≥ 60

instance (c : Collector) : Decidable (Completes c) := inferInstanceAs (Decidable (_ ≥ _))

/-- The pushes of the flush, if the tick completes a minute. -/
def flushPushes (c : Collector) : List HistoryPush :=
  if Completes c then
    (List.range c.state.numIfaces.toNat).map fun k => .long k (minuteAverage c k)
  else []

/-- The pushes of a fast tick, in order. -/
def fastPushes (c : Collector) (f : FastInput) : List HistoryPush :=
  (ratesAt c f).map (fun s =>
    .short s.row (historySample (ratesOf s.base s.cur (elapsed f.now c.prevTime)))) ++
    flushPushes (sampled c f)

/-- The collector, emitting its history pushes. -/
def recorder : Machine Collector Tick HistoryPush where
  step := collector.step
  out c t :=
    match t with
    | .fast f => fastPushes c f
    | _ => []

def NetHistorySample.bps (x : NetHistorySample) : Direction → ℚ
  | .rx => x.rxBps
  | .tx => x.txBps

/-- The row's minute accumulator. -/
def Collector.minuteAcc (c : Collector) (k : Nat) : Direction → ℚ
  | .rx => c.minuteRxAcc k
  | .tx => c.minuteTxAcc k

/-! ## The flush -/

theorem foldl_flushMinute (n : Nat) (c : Collector) (k : Nat) :
    ((List.range n).foldl flushMinute c).longHistory k =
        (if k < n then (c.longHistory k).push (minuteAverage c k) else c.longHistory k) ∧
      ((List.range n).foldl flushMinute c).minuteRxAcc k =
        (if k < n then 0 else c.minuteRxAcc k) ∧
      ((List.range n).foldl flushMinute c).minuteTxAcc k =
        (if k < n then 0 else c.minuteTxAcc k) := by
  induction n generalizing k with
  | zero => exact ⟨rfl, rfl, rfl⟩
  | succ n ih =>
    rw [List.range_succ, List.foldl_append, List.foldl_cons, List.foldl_nil]
    by_cases hk : k = n
    · subst hk
      obtain ⟨hlong, hrx, htx⟩ := ih k
      rw [if_neg (Nat.lt_irrefl k)] at hlong hrx htx
      simp only [flushMinute, Function.update_self, hlong, hrx, htx]
      rw [if_pos (Nat.lt_succ_self k), if_pos (Nat.lt_succ_self k), if_pos (Nat.lt_succ_self k)]
      exact ⟨rfl, rfl, rfl⟩
    · simp only [flushMinute, Function.update_of_ne hk, ih]
      simp only [show k < n + 1 ↔ k < n by omega, and_self]

theorem filterMap_range_single {α : Type*} (g : Nat → α) (n k : Nat) :
    (List.range n).filterMap (fun i => if i = k then some (g i) else none) =
      if k < n then [g k] else [] := by
  induction n with
  | zero => rfl
  | succ n ih =>
    rw [List.range_succ, List.filterMap_append, ih]
    rcases Nat.lt_trichotomy k n with hlt | heq | hgt
    · simp [hlt, Nat.lt_succ_of_lt hlt, Nat.ne_of_gt hlt]
    · simp [heq]
    · simp [Nat.lt_asymm hgt, Nat.ne_of_lt hgt, show ¬ k < n + 1 by omega]

/-- A flush pushes one average for every row of the table. -/
theorem longOf_flushPushes (c : Collector) (k : Nat) : longOf k (flushPushes c) =
    if Completes c ∧ (k : Int) < c.state.numIfaces then [minuteAverage c k] else [] := by
  unfold flushPushes
  by_cases hc : Completes c
  · rw [if_pos hc, longOf, List.filterMap_map]
    apply (filterMap_range_single (minuteAverage c) _ k).trans
    simp only [Int.lt_toNat, hc, true_and]
  · rw [if_neg hc, if_neg fun h => hc h.1]
    rfl

theorem shortOf_flushPushes (c : Collector) (k : Nat) : shortOf k (flushPushes c) = [] := by
  unfold flushPushes
  split
  · rw [shortOf, List.filterMap_map, List.filterMap_eq_nil_iff]
    exact fun _ _ => rfl
  · rfl

/-- What the minute's end does to a row. -/
theorem updateLongHistory_row (c : Collector) (k : Nat) :
    (updateLongHistory c).longHistory k =
        (longOf k (flushPushes c)).foldl Ring.push (c.longHistory k) ∧
      ∀ d, (updateLongHistory c).minuteAcc k d =
        c.minuteAcc k d - 60 * ((longOf k (flushPushes c)).map (·.bps d)).sum := by
  rw [longOf_flushPushes]
  unfold updateLongHistory
  by_cases hc : Completes c
  · obtain ⟨hlong, hrx, htx⟩ := foldl_flushMinute c.state.numIfaces.toNat
      { c with minuteSampleCount := c.minuteSampleCount + 1 } k
    rw [if_pos (show c.minuteSampleCount + 1 ≥ 60 from hc)]
    by_cases hk : (k : Int) < c.state.numIfaces
    · rw [if_pos (Int.lt_toNat.mpr hk)] at hlong hrx htx
      rw [if_pos ⟨hc, hk⟩]
      refine ⟨hlong, fun d => ?_⟩
      cases d with
      | rx =>
        apply hrx.trans
        simp [Collector.minuteAcc, NetHistorySample.bps, minuteAverage]
        ring
      | tx =>
        apply htx.trans
        simp [Collector.minuteAcc, NetHistorySample.bps, minuteAverage]
        ring
    · rw [if_neg fun h => hk (Int.lt_toNat.mp h)] at hlong hrx htx
      rw [if_neg fun h => hk h.2]
      refine ⟨hlong, fun d => ?_⟩
      cases d with
      | rx => exact hrx.trans (by simp [Collector.minuteAcc])
      | tx => exact htx.trans (by simp [Collector.minuteAcc])
  · rw [if_neg (show ¬ c.minuteSampleCount + 1 ≥ 60 from hc), if_neg fun h => hc h.1]
    exact ⟨rfl, fun d => by cases d <;> simp [Collector.minuteAcc]⟩

theorem updateLongHistory_count (c : Collector) : (updateLongHistory c).minuteSampleCount =
    if Completes c then 0 else c.minuteSampleCount + 1 := by
  unfold updateLongHistory
  simp only
  by_cases hc : Completes c
  · rw [if_pos hc, if_pos (show c.minuteSampleCount + 1 ≥ 60 from hc)]
  · rw [if_neg hc, if_neg (show ¬ c.minuteSampleCount + 1 ≥ 60 from hc)]

/-! ## The samples of a tick -/

theorem applySample_row (dt : ℚ) (c : Collector) (s : RateSample) (k : Nat) (d : Direction) :
    (applySample dt c s).minuteAcc k d = c.minuteAcc k d +
      if s.row = k then (historySample (ratesOf s.base s.cur dt)).bps d else 0 := by
  by_cases h : s.row = k
  · subst h
    rw [if_pos rfl]
    cases d <;> simp only [Collector.minuteAcc, applySample, Function.update_self] <;> rfl
  · rw [if_neg h, add_zero]
    cases d <;> simp only [Collector.minuteAcc, applySample, Function.update_of_ne (Ne.symm h)]

theorem foldl_applySample_row (dt : ℚ) (ss : List RateSample) (c : Collector) (k : Nat) :
    (∀ d, (ss.foldl (applySample dt) c).minuteAcc k d = c.minuteAcc k d +
      ((ss.filter (·.row = k)).map fun s =>
        (historySample (ratesOf s.base s.cur dt)).bps d).sum) ∧
    (ss.foldl (applySample dt) c).longHistory = c.longHistory ∧
    (ss.foldl (applySample dt) c).minuteSampleCount = c.minuteSampleCount := by
  induction ss generalizing c with
  | nil => exact ⟨fun d => by simp, rfl, rfl⟩
  | cons s ss ih =>
    obtain ⟨hacc, hlong, hcount⟩ := ih (applySample dt c s)
    refine ⟨fun d => ?_, hlong, hcount⟩
    rw [List.foldl_cons, hacc, applySample_row, List.filter_cons]
    by_cases h : s.row = k
    · simp [h, add_assoc]
    · simp [h]

theorem shortOf_fastPushes (c : Collector) (f : FastInput) (k : Nat) :
    shortOf k (fastPushes c f) = ((ratesAt c f).filter (·.row = k)).map fun s =>
      historySample (ratesOf s.base s.cur (elapsed f.now c.prevTime)) := by
  rw [fastPushes, shortOf_append, shortOf_flushPushes, List.append_nil, shortOf,
    List.filterMap_map, ← List.filterMap_eq_map, List.filterMap_filter]
  apply List.filterMap_congr
  intro s _
  simp only [Function.comp_apply, decide_eq_true_eq]

theorem longOf_fastPushes (c : Collector) (f : FastInput) (k : Nat) :
    longOf k (fastPushes c f) = longOf k (flushPushes (sampled c f)) := by
  rw [fastPushes, longOf_append, longOf, List.filterMap_map]
  apply List.append_left_eq_self.mpr
  rw [List.filterMap_eq_nil_iff]
  exact fun _ _ => rfl

/-- A fast tick changes an accumulator by the short samples it pushes, less sixty times the
long ones. -/
theorem acc_fastTimerCb (c : Collector) (f : FastInput) (k : Nat) (d : Direction) :
    (fastTimerCb c f).minuteAcc k d = c.minuteAcc k d +
      (((shortOf k (fastPushes c f)).map (·.bps d)).sum -
        60 * ((longOf k (fastPushes c f)).map (·.bps d)).sum) := by
  have hflush := (updateLongHistory_row (sampled c f) k).2 d
  have hsampled : (sampled c f).minuteAcc k d = c.minuteAcc k d +
      ((shortOf k (fastPushes c f)).map (·.bps d)).sum := by
    rw [shortOf_fastPushes, List.map_map, sampled, computeRates_eq, ratesAt_updateSysinfo]
    have hrow := (foldl_applySample_row (elapsed f.now c.prevTime) (ratesAt c f)
      (updateSysinfo f c) k).1 d
    have hsys : (updateSysinfo f c).minuteAcc k d = c.minuteAcc k d := by cases d <;> rfl
    rw [hsys] at hrow
    exact hrow
  have hlast : (fastTimerCb c f).minuteAcc k d =
      (updateLongHistory (sampled c f)).minuteAcc k d := by cases d <;> rfl
  rw [hlast, hflush, hsampled, longOf_fastPushes]
  ring

theorem foldl_apply_history (dt : ℚ) (ss : List RateSample) (t : Traffic) :
    (ss.foldl (Traffic.apply dt) t).history =
      (ss.map fun s => historySample (ratesOf s.base s.cur dt)).foldl Ring.push t.history := by
  induction ss generalizing t with
  | nil => rfl
  | cons s ss ih => rw [List.foldl_cons, ih]; rfl

/-- The rings after a fast tick. -/
theorem rings_fastTimerCb (c : Collector) (f : FastInput) (k : Nat) :
    (fastTimerCb c f).shortHistory k =
        (shortOf k (fastPushes c f)).foldl Ring.push (c.shortHistory k) ∧
      (fastTimerCb c f).longHistory k =
        (longOf k (fastPushes c f)).foldl Ring.push (c.longHistory k) := by
  constructor
  · have htraffic := congrArg Traffic.history (traffic_fastTimerCb c f k)
    rw [foldl_apply_history, ← shortOf_fastPushes] at htraffic
    exact htraffic
  · have hflush := (updateLongHistory_row (sampled c f) k).1
    have hsampled : (sampled c f).longHistory k = c.longHistory k := by
      rw [sampled, computeRates_eq]
      exact congrFun (foldl_applySample_row _ _ (updateSysinfo f c) k).2.1 k
    rw [hsampled, ← longOf_fastPushes] at hflush
    exact hflush

theorem sampled_count (c : Collector) (f : FastInput) :
    (sampled c f).minuteSampleCount = c.minuteSampleCount := by
  rw [sampled, computeRates_eq]
  exact (foldl_applySample_row _ _ (updateSysinfo f c) 0).2.2

theorem sampled_numIfaces (c : Collector) (f : FastInput) :
    (sampled c f).state.numIfaces = c.state.numIfaces := by
  rw [sampled, computeRates_eq]
  exact (foldl_applySample_sameTable _ _ (updateSysinfo f c)).numIfaces.trans
    (updateSysinfo_ifaces f c).1

theorem completes_sampled (c : Collector) (f : FastInput) :
    Completes (sampled c f) ↔ Completes c := by
  rw [Completes, sampled_count, Completes]

theorem count_fastTimerCb (c : Collector) (f : FastInput) : (fastTimerCb c f).minuteSampleCount =
    if Completes c then 0 else c.minuteSampleCount + 1 := by
  have hcount := updateLongHistory_count (sampled c f)
  simp only [completes_sampled, sampled_count] at hcount
  exact hcount

/-- What the histories are made of, which the other ticks leave alone. -/
theorem other_ticks (c : Collector) {t : Tick} (h : ∀ f, t ≠ .fast f) :
    (∀ k d, (collector.step c t).minuteAcc k d = c.minuteAcc k d) ∧
      (collector.step c t).shortHistory = c.shortHistory ∧
      (collector.step c t).longHistory = c.longHistory ∧
      (collector.step c t).minuteSampleCount = c.minuteSampleCount := by
  cases t with
  | fast f => exact absurd rfl (h f)
  | medium m =>
    obtain ⟨idx, infra, alerts, hmedium⟩ := mediumTimerCb_frame c m
    have hstep : collector.step c (.medium m) = mediumTimerCb c m := rfl
    rw [hstep, hmedium]
    exact ⟨fun k d => by cases d <;> rfl, rfl, rfl, rfl⟩
  | slow i =>
    have hstep : collector.step c (.slow i) = slowTimerCb c i := rfl
    obtain ⟨tick, wan, hslow⟩ := slowTimerCb_frame c i
    rw [hstep, hslow]
    exact ⟨fun k d => by cases d <;> rfl, rfl, rfl, rfl⟩

/-! ## Runs -/

/-- What a push adds to a row's accumulator. -/
def weight (k : Nat) (d : Direction) : HistoryPush → ℚ
  | .short row x => if row = k then x.bps d else 0
  | .long row x => if row = k then -(60 * x.bps d) else 0

theorem sum_weight (k : Nat) (d : Direction) (ps : List HistoryPush) :
    (ps.map (weight k d)).sum =
      ((shortOf k ps).map (·.bps d)).sum - 60 * ((longOf k ps).map (·.bps d)).sum := by
  induction ps with
  | nil => simp [shortOf, longOf]
  | cons p ps ih =>
    rw [List.map_cons, List.sum_cons, ih]
    cases p with
    | short row x =>
      by_cases h : row = k
      · simp [weight, shortOf, longOf, h]
        ring
      · simp [weight, shortOf, longOf, h]
    | long row x =>
      by_cases h : row = k
      · simp [weight, shortOf, longOf, h]
        ring
      · simp [weight, shortOf, longOf, h]

/-- Every tick adds the weight of its pushes to the accumulators. -/
theorem acc_step (k : Nat) (d : Direction) (c : Collector) (t : Tick) :
    (recorder.step c t).minuteAcc k d =
      c.minuteAcc k d + ((recorder.out c t).map (weight k d)).sum := by
  have hother : (∀ f, t ≠ .fast f) → recorder.out c t = [] →
      (recorder.step c t).minuteAcc k d =
        c.minuteAcc k d + ((recorder.out c t).map (weight k d)).sum := by
    intro h hout
    rw [hout, List.map_nil, List.sum_nil, add_zero]
    exact (other_ticks c h).1 k d
  cases t with
  | fast f =>
    rw [sum_weight]
    exact acc_fastTimerCb c f k d
  | medium m => exact hother (fun _ h => by cases h) rfl
  | slow i => exact hother (fun _ h => by cases h) rfl

/-- The rings are what was pushed into them. -/
theorem recorder_rings (c : Collector) (ticks : List Tick) (k : Nat) :
    (recorder.exec c ticks).shortHistory k =
        (shortOf k (recorder.trace c ticks)).foldl Ring.push (c.shortHistory k) ∧
      (recorder.exec c ticks).longHistory k =
        (longOf k (recorder.trace c ticks)).foldl Ring.push (c.longHistory k) := by
  induction ticks generalizing c with
  | nil => exact ⟨rfl, rfl⟩
  | cons t ts ih =>
    have hstep : (recorder.step c t).shortHistory k =
          (shortOf k (recorder.out c t)).foldl Ring.push (c.shortHistory k) ∧
        (recorder.step c t).longHistory k =
          (longOf k (recorder.out c t)).foldl Ring.push (c.longHistory k) := by
      cases t with
      | fast f => exact rings_fastTimerCb c f k
      | medium m =>
        obtain ⟨_, hshort, hlong, _⟩ := other_ticks c (t := .medium m) (fun _ h => by cases h)
        exact ⟨congrFun hshort k, congrFun hlong k⟩
      | slow i =>
        obtain ⟨_, hshort, hlong, _⟩ := other_ticks c (t := .slow i) (fun _ h => by cases h)
        exact ⟨congrFun hshort k, congrFun hlong k⟩
    obtain ⟨hshort, hlong⟩ := ih (recorder.step c t)
    rw [hstep.1] at hshort
    rw [hstep.2] at hlong
    rw [Machine.exec_cons, Machine.trace_cons, shortOf_append, longOf_append, List.foldl_append,
      List.foldl_append]
    exact ⟨hshort, hlong⟩

/-! ## The sixtieth tick -/

/-- The number of fast ticks. -/
def fastTicks (ticks : List Tick) : Nat := ticks.countP fun
  | .fast _ => true
  | _ => false

/-- Before the minute is complete nothing goes to the long history. -/
theorem long_silent {c : Collector} {ticks : List Tick}
    (h : c.minuteSampleCount + fastTicks ticks < 60) :
    (recorder.exec c ticks).minuteSampleCount = c.minuteSampleCount + fastTicks ticks ∧
      ∀ k, longOf k (recorder.trace c ticks) = [] := by
  induction ticks generalizing c with
  | nil => exact ⟨rfl, fun _ => rfl⟩
  | cons t ts ih =>
    have hother : (∀ f, t ≠ .fast f) → recorder.out c t = [] → fastTicks (t :: ts) = fastTicks ts →
        (recorder.exec c (t :: ts)).minuteSampleCount = c.minuteSampleCount + fastTicks (t :: ts) ∧
          ∀ k, longOf k (recorder.trace c (t :: ts)) = [] := by
      intro hne hout hticks
      have hcount : (recorder.step c t).minuteSampleCount = c.minuteSampleCount :=
        (other_ticks c hne).2.2.2
      rw [hticks] at h ⊢
      rw [Machine.trace_cons, hout, List.nil_append, Machine.exec_cons, ← hcount]
      exact ih (by rw [hcount]; exact h)
    cases t with
    | fast f =>
      have hticks : fastTicks (.fast f :: ts) = fastTicks ts + 1 := List.countP_cons_of_pos rfl
      rw [hticks] at h ⊢
      have hopen : ¬ Completes c := by unfold Completes; omega
      have hcount : (recorder.step c (.fast f)).minuteSampleCount = c.minuteSampleCount + 1 :=
        (count_fastTimerCb c f).trans (if_neg hopen)
      obtain ⟨hlast, hsilent⟩ := ih (c := recorder.step c (.fast f)) (by rw [hcount]; omega)
      refine ⟨by rw [Machine.exec_cons, hlast, hcount]; omega, fun k => ?_⟩
      have hnone : longOf k (recorder.out c (.fast f)) = [] := by
        show longOf k (fastPushes c f) = []
        rw [longOf_fastPushes, longOf_flushPushes, if_neg]
        exact fun hc => hopen ((completes_sampled c f).mp hc.1)
      rw [Machine.trace_cons, longOf_append, hnone, hsilent k, List.append_nil]
    | medium m => exact hother (fun _ h => by cases h) rfl rfl
    | slow i => exact hother (fun _ h => by cases h) rfl rfl

/-- The tick that completes the minute. -/
theorem long_flush {c : Collector} (h : c.minuteSampleCount = 59) (f : FastInput) :
    (recorder.step c (.fast f)).minuteSampleCount = 0 ∧
      ∀ k, longOf k (recorder.out c (.fast f)) =
        if (k : Int) < c.state.numIfaces then [minuteAverage (sampled c f) k] else [] := by
  have hc : Completes c := by unfold Completes; omega
  refine ⟨(count_fastTimerCb c f).trans (if_pos hc), fun k => ?_⟩
  show longOf k (fastPushes c f) = _
  simp only [longOf_fastPushes, longOf_flushPushes, completes_sampled, hc, true_and,
    sampled_numIfaces]

/-- The fast tick behind `n` others. -/
theorem split_fastTick {ticks : List Tick} {n : Nat} (h : n < fastTicks ticks) :
    ∃ u f v, ticks = u ++ .fast f :: v ∧ fastTicks u = n := by
  induction ticks generalizing n with
  | nil => exact absurd h (Nat.not_lt_zero n)
  | cons t ts ih =>
    have hother : fastTicks (t :: ts) = fastTicks ts → (∀ u, fastTicks (t :: u) = fastTicks u) →
        ∃ u f v, t :: ts = u ++ .fast f :: v ∧ fastTicks u = n := by
      intro hts hcons
      obtain ⟨u, f, v, rfl, hu⟩ := ih (n := n) (by omega)
      exact ⟨t :: u, f, v, rfl, (hcons u).trans hu⟩
    cases t with
    | fast f =>
      cases n with
      | zero => exact ⟨[], f, ts, rfl, rfl⟩
      | succ n =>
        have hticks : ∀ us, fastTicks (.fast f :: us) = fastTicks us + 1 :=
          fun us => List.countP_cons_of_pos rfl
        rw [hticks] at h
        obtain ⟨u, g, v, rfl, hu⟩ := ih (Nat.lt_of_succ_lt_succ h)
        exact ⟨.fast f :: u, g, v, rfl, by rw [hticks, hu]⟩
    | medium m => exact hother rfl fun _ => rfl
    | slow i => exact hother rfl fun _ => rfl

theorem count_lt (cfg : Config) (b : BootInput) (ticks : List Tick) :
    (recorder.exec (netCollectorInit cfg b) ticks).minuteSampleCount < 60 := by
  refine recorder.exec_inv (P := fun c => c.minuteSampleCount < 60) (fun c t hc => ?_)
    (show 0 < 60 by decide) ticks
  cases t with
  | fast f =>
    show (fastTimerCb c f).minuteSampleCount < 60
    rw [count_fastTimerCb]
    by_cases hmin : Completes c
    · rw [if_pos hmin]
      decide
    · rw [if_neg hmin]
      unfold Completes at hmin
      omega
  | medium m =>
    exact (other_ticks c (t := .medium m) (fun _ h => by cases h)).2.2.2 ▸ hc
  | slow i =>
    exact (other_ticks c (t := .slow i) (fun _ h => by cases h)).2.2.2 ▸ hc

/-- Sixty fast ticks in a row complete one minute, which gives every row of the table then one
long sample. -/
theorem long_per_minute {c : Collector} (hc : c.minuteSampleCount < 60) {ticks : List Tick}
    (h : fastTicks ticks = 60) : ∃ u f v, ticks = u ++ .fast f :: v ∧
      ∀ k : Nat, longOf k (recorder.trace c ticks) =
        if (k : Int) < (recorder.exec c u).state.numIfaces then
          [minuteAverage (sampled (recorder.exec c u) f) k] else [] := by
  have hlt : 59 - c.minuteSampleCount < fastTicks ticks := by omega
  obtain ⟨u, f, v, rfl, hu⟩ := split_fastTick hlt
  refine ⟨u, f, v, rfl, fun k => ?_⟩
  have hv : fastTicks v = c.minuteSampleCount := by
    have hsplit : fastTicks (u ++ .fast f :: v) = fastTicks u + (fastTicks v + 1) :=
      List.countP_append.trans (congrArg _ (List.countP_cons_of_pos rfl))
    omega
  have hu59 : c.minuteSampleCount + fastTicks u < 60 := by omega
  obtain ⟨hcount, hbefore⟩ := long_silent hu59
  obtain ⟨hzero, hflush⟩ := long_flush (c := recorder.exec c u) (by omega) f
  have hv59 :
      (recorder.step (recorder.exec c u) (.fast f)).minuteSampleCount + fastTicks v < 60 := by
    omega
  obtain ⟨_, hafter⟩ := long_silent hv59
  rw [Machine.trace_append, Machine.trace_cons, longOf_append, longOf_append, hbefore k, hflush k,
    hafter k, List.nil_append, List.append_nil]

/-- **Conservation.** In every run the rings of a row are what was pushed into them; sixty times
what went to its long history, plus what is in its accumulator, is what went to its short history;
and any sixty fast ticks in a row give every row that is in the table at their flush exactly one
long sample. -/
theorem history_conserved (cfg : Config) (b : BootInput) (ticks : List Tick) :
    (∀ k : Nat,
      (recorder.exec (netCollectorInit cfg b) ticks).shortHistory k =
        (shortOf k (recorder.trace (netCollectorInit cfg b) ticks)).foldl Ring.push
          (Ring.fresh default shortHistory_pos) ∧
      (recorder.exec (netCollectorInit cfg b) ticks).longHistory k =
        (longOf k (recorder.trace (netCollectorInit cfg b) ticks)).foldl Ring.push
          (Ring.fresh default longHistory_pos)) ∧
    (∀ (k : Nat) (d : Direction),
      60 * ((longOf k (recorder.trace (netCollectorInit cfg b) ticks)).map (·.bps d)).sum +
          (recorder.exec (netCollectorInit cfg b) ticks).minuteAcc k d =
        ((shortOf k (recorder.trace (netCollectorInit cfg b) ticks)).map (·.bps d)).sum) ∧
    ∀ later : List Tick, fastTicks later = 60 → ∃ u f v, later = u ++ .fast f :: v ∧
      ∀ k : Nat,
        (longOf k (recorder.trace (recorder.exec (netCollectorInit cfg b) ticks) later)).length =
          if (k : Int) < (recorder.exec (netCollectorInit cfg b) (ticks ++ u)).state.numIfaces
          then 1 else 0 := by
  refine ⟨fun k => recorder_rings (netCollectorInit cfg b) ticks k, ?_, ?_⟩
  · intro k d
    have hbalance := recorder.balance_exec (φ := fun c => c.minuteAcc k d) (acc_step k d)
      (netCollectorInit cfg b) ticks
    have hzero : (netCollectorInit cfg b).minuteAcc k d = 0 := by cases d <;> rfl
    rw [sum_weight, hzero] at hbalance
    linarith only [hbalance]
  · intro later h
    obtain ⟨u, f, v, hsplit, hlong⟩ := long_per_minute (count_lt cfg b ticks) h
    refine ⟨u, f, v, hsplit, fun k => ?_⟩
    rw [hlong k, Machine.exec_append]
    split <;> rfl

end NetMon.Net
