import NetMon.Net.Collector

/-!
# Rates and their baselines

A fast tick looks each current row up in the interface table and, under the same bound
`num_ifaces`, in `g_prev_stats`. But `g_prev_stats` holds the rows of the preceding fast
tick in its first slots, as many as there were, and rows of older ticks behind them.

* `remembers_run`: what the collector knows of the preceding fast tick.
* `findPrev_of_row`, `length_le_of_findPrev`: what the second search finds.
* `traffic_fastTimerCb`: what a fast tick records for a table row.
-/

namespace NetMon.Net

open NetMon.Lib NetMon.Core

/-! ## The preceding fast tick -/

/-- The tick before, given the last fast tick before that. -/
def nextFast (last : Option FastInput) : Tick → Option FastInput
  | .fast f => some f
  | _ => last

/-- The last fast tick of a run. -/
def lastFast (ticks : List Tick) : Option FastInput := ticks.foldl nextFast none

/-- The row a reading has for a name. -/
def rowOf (rows : List NetStats) (name : IfaceName) : Option NetStats :=
  rows.find? fun r => r.name = name

/-- The place of that row. -/
def indexOf (rows : List NetStats) (name : IfaceName) : Nat :=
  rows.findIdx fun r => r.name = name

/-- What the collector remembers of the preceding fast tick. -/
def Remembers (last : Option FastInput) (c : Collector) : Prop :=
  match last with
  | none => c.prevValid = false
  | some f => c.prevValid = true ∧ c.prevTime = f.now ∧ ∃ old, c.prevStats = overwrite old f.reading

theorem Remembers.of_eq {last : Option FastInput} {c c' : Collector} (h : Remembers last c)
    (hv : c'.prevValid = c.prevValid) (ht : c'.prevTime = c.prevTime)
    (hs : c'.prevStats = c.prevStats) : Remembers last c' := by
  unfold Remembers at h ⊢
  rw [hv, ht, hs]
  exact h

theorem remembers_step {last : Option FastInput} {c : Collector} (h : Remembers last c) (t : Tick) :
    Remembers (nextFast last t) (collector.step c t) := by
  cases t with
  | fast f => exact ⟨rfl, rfl, _, rfl⟩
  | medium m =>
    obtain ⟨idx, infra, alerts, hmedium⟩ := mediumTimerCb_frame c m
    show Remembers last (mediumTimerCb c m)
    rw [hmedium]
    exact h.of_eq rfl rfl rfl
  | slow i =>
    show Remembers last (slowTimerCb c i)
    obtain ⟨tick, wan, hslow⟩ := slowTimerCb_frame c i
    rw [hslow]
    exact h.of_eq rfl rfl rfl

theorem remembers_exec {last : Option FastInput} {c : Collector} (h : Remembers last c)
    (ticks : List Tick) : Remembers (ticks.foldl nextFast last) (collector.exec c ticks) := by
  induction ticks generalizing last c with
  | nil => exact h
  | cons t ts ih => exact ih (remembers_step h t)

/-- In every run the collector remembers the last fast tick. -/
theorem remembers_run (cfg : Config) (b : BootInput) (ticks : List Tick) :
    Remembers (lastFast ticks) (collector.exec (netCollectorInit cfg b) ticks) := by
  have hinit : Remembers none (netCollectorInit cfg b) := rfl
  exact remembers_exec hinit ticks

/-! ## Looking a baseline up -/

theorem findPrev_eq_some {c : Collector} {name : IfaceName} {j : Nat} :
    findPrev c name = some j ↔ (j : Int) < c.state.numIfaces ∧ (c.prevStats j).name = name ∧
      ∀ i : Nat, i < j → (c.prevStats i).name ≠ name :=
  search_eq_some (f := fun i => (c.prevStats i).name)

theorem findPrev_eq_none {c : Collector} {name : IfaceName} : findPrev c name = none ↔
    ∀ j : Nat, (j : Int) < c.state.numIfaces → (c.prevStats j).name ≠ name :=
  search_eq_none (f := fun i => (c.prevStats i).name)

theorem overwrite_eq {rows : List NetStats} {j : Nat} {r : NetStats} (old : Nat → NetStats)
    (h : rows[j]? = some r) : overwrite old rows j = r := by
  rw [overwrite, List.getD_eq_getElem?_getD, h, Option.getD_some]

theorem rowOf_name {rows : List NetStats} {name : IfaceName} {r : NetStats}
    (h : rowOf rows name = some r) : r.name = name := by
  simpa using List.find?_some h

theorem rowOf_getElem? {rows : List NetStats} {name : IfaceName} {r : NetStats}
    (h : rowOf rows name = some r) : rows[indexOf rows name]? = some r := by
  rw [← h, rowOf, List.find?_eq_getElem?_findIdx]
  rfl

/-- Below the index of a name's row, the preceding reading has no row of the name. -/
theorem overwrite_before {rows : List NetStats} {name : IfaceName} {r : NetStats}
    (old : Nat → NetStats) (h : rowOf rows name = some r) {i : Nat}
    (hi : i < indexOf rows name) : (overwrite old rows i).name ≠ name := by
  have hlt : i < rows.length :=
    Nat.lt_trans hi (List.getElem?_eq_some_iff.mp (rowOf_getElem? h)).1
  rw [overwrite_eq old (List.getElem?_eq_getElem hlt)]
  simpa using List.not_of_lt_findIdx hi

/-- A row of the preceding reading is found exactly within the table's row count. -/
theorem findPrev_of_row {c : Collector} {old : Nat → NetStats} {rows : List NetStats}
    {name : IfaceName} {r : NetStats} (hc : c.prevStats = overwrite old rows)
    (h : rowOf rows name = some r) : findPrev c name =
      if (indexOf rows name : Int) < c.state.numIfaces then some (indexOf rows name) else none := by
  by_cases hlt : (indexOf rows name : Int) < c.state.numIfaces
  · rw [if_pos hlt]
    refine findPrev_eq_some.mpr ⟨hlt, ?_, fun i hi => ?_⟩
    · rw [hc, overwrite_eq old (rowOf_getElem? h)]
      exact rowOf_name h
    · rw [hc]
      exact overwrite_before old h hi
  · rw [if_neg hlt]
    apply findPrev_eq_none.mpr
    intro j hj
    rw [hc]
    exact overwrite_before old h (by omega)

/-- A name the preceding reading does not have is only found behind that reading. -/
theorem length_le_of_findPrev {c : Collector} {old : Nat → NetStats} {rows : List NetStats}
    {name : IfaceName} {j : Nat} (hc : c.prevStats = overwrite old rows)
    (h : rowOf rows name = none) (hj : findPrev c name = some j) : rows.length ≤ j := by
  by_contra hlt
  have hname := (findPrev_eq_some.mp hj).2.1
  rw [hc, overwrite_eq old (List.getElem?_eq_getElem (not_le.mp hlt))] at hname
  exact absurd hname (by simpa using List.find?_eq_none.mp h _ (List.getElem_mem _))

/-! ## What a fast tick does to a row -/

/-- What the rate loop keeps for a table row. -/
structure Traffic where
  rates : NetRates
  rxBytesToday : UInt64
  txBytesToday : UInt64
  history : Ring NetHistorySample 60
  deriving DecidableEq

def traffic (c : Collector) (k : Nat) : Traffic where
  rates := (c.state.ifaces k).rates
  rxBytesToday := (c.state.ifaces k).rxBytesToday
  txBytesToday := (c.state.ifaces k).txBytesToday
  history := c.shortHistory k

/-- New rates, the byte deltas on the daily totals, and one more history sample. -/
def Traffic.record (t : Traffic) (rates : NetRates) (base cur : NetStats) : Traffic where
  rates := rates
  rxBytesToday := t.rxBytesToday + (cur.rxBytes - base.rxBytes)
  txBytesToday := t.txBytesToday + (cur.txBytes - base.txBytes)
  history := t.history.push (historySample rates)

/-- A sample as the loop records it. -/
def Traffic.apply (dt : ℚ) (t : Traffic) (s : RateSample) : Traffic :=
  t.record (ratesOf s.base s.cur dt) s.base s.cur

theorem traffic_congr {c c' : Collector} {k : Nat} (hi : c'.state.ifaces k = c.state.ifaces k)
    (hh : c'.shortHistory = c.shortHistory) : traffic c' k = traffic c k := by
  unfold traffic
  rw [hi, hh]

theorem traffic_applySample (dt : ℚ) (c : Collector) (s : RateSample) (k : Nat) :
    traffic (applySample dt c s) k =
      if s.row = k then (traffic c k).apply dt s else traffic c k := by
  by_cases h : s.row = k
  · subst h
    rw [if_pos rfl]
    simp only [traffic, applySample, NetState.setIface_self, Function.update_self]
    rfl
  · have hk : (k : Int) ≠ s.row := fun he => h (by omega)
    rw [if_neg h]
    simp only [traffic, applySample, NetState.setIface_of_ne hk,
      Function.update_of_ne (Ne.symm h)]

theorem traffic_foldl_applySample (dt : ℚ) (ss : List RateSample) (c : Collector) (k : Nat) :
    traffic (ss.foldl (applySample dt) c) k =
      (ss.filter (·.row = k)).foldl (Traffic.apply dt) (traffic c k) := by
  induction ss generalizing c with
  | nil => rfl
  | cons s ss ih =>
    rw [List.foldl_cons, ih, traffic_applySample, List.filter_cons]
    by_cases h : s.row = k
    · simp [h]
    · simp [h]

theorem traffic_storeStats (rows : List NetStats) (c : Collector) (k : Nat) :
    traffic { c with state := rows.foldl storeStats c.state } k = traffic c k := by
  induction rows generalizing c with
  | nil => rfl
  | cons r rs ih =>
    have hstep : traffic { c with state := storeStats c.state r } k = traffic c k := by
      simp only [traffic, storeStats]
      split
      · next j _ =>
        by_cases h : (k : Int) = j
        · simp only [h, NetState.setIface_self]
        · simp only [NetState.setIface_of_ne h]
      · rfl
    rw [List.foldl_cons, ← hstep]
    exact ih { c with state := storeStats c.state r }

theorem ratesAt_updateSysinfo (c : Collector) (f : FastInput) :
    ratesAt (updateSysinfo f c) f = ratesAt c f := by
  have h := updateSysinfo_ifaces f c
  have ht : SameTable c.state (updateSysinfo f c).state := ⟨h.1, fun k => by rw [h.2]⟩
  rw [ratesAt_eq, ratesAt_eq, sampleFor_congr ht rfl]
  rfl

/-- A fast tick records, in order, the samples it computes for the row. -/
theorem traffic_fastTimerCb (c : Collector) (f : FastInput) (k : Nat) :
    traffic (fastTimerCb c f) k =
      ((ratesAt c f).filter (·.row = k)).foldl (Traffic.apply (elapsed f.now c.prevTime))
        (traffic c k) := by
  have hstore : traffic (fastTimerCb c f) k =
      traffic (updateLongHistory (computeRates f (updateSysinfo f c))) k :=
    traffic_storeStats f.reading (updateLongHistory (computeRates f (updateSysinfo f c))) k
  have hlong : traffic (updateLongHistory (computeRates f (updateSysinfo f c))) k =
      traffic (computeRates f (updateSysinfo f c)) k := by
    obtain ⟨long, rx, tx, n, hframe⟩ := updateLongHistory_frame (computeRates f (updateSysinfo f c))
    rw [hframe]
    rfl
  have hsys : traffic (updateSysinfo f c) k = traffic c k :=
    traffic_congr (congrFun (updateSysinfo_ifaces f c).2 k) rfl
  rw [hstore, hlong, computeRates_eq, traffic_foldl_applySample, ratesAt_updateSysinfo, hsys]
  rfl

/-! ## Small runs -/

/-- A start with these devices addressed. -/
def bootWith (names : List String) : BootInput := ⟨some (names.map ifReqNamed), none, ⟨0, 0⟩⟩

/-- A fast tick that reads this `/proc/net/dev`. -/
def fastAt (sec : Int) (text : String) : FastInput :=
  ⟨some (CStr.lit text).bytes, ⟨sec, 0⟩, none, none⟩

/-- A row with these byte counters. -/
def statsOf (name : String) (rx tx : UInt64) : NetStats :=
  { (default : NetStats) with
    name := CharArray.copy 16 (CStr.lit name), rxBytes := rx, txBytes := tx }

end NetMon.Net
