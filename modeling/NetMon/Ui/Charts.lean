import Mathlib.Algebra.Order.Field.Rat
import Mathlib.Tactic.Linarith
import Mathlib.Tactic.NormNum
import NetMon.Lib.RunningMax
import NetMon.Net.Collector

/-!
# The traffic charts

The traffic, dashboard and interface screens plot a history in KiB per second. A point is an
`lv_coord_t` of 16 bits, and the axis ends a tenth above the greatest of them.

`charts_iff`: nothing is clipped exactly when no rate reaches 29789 KiB per second.
-/

namespace NetMon.Ui

open NetMon.Lib NetMon.Core NetMon.Net

/-- The conversion of a `float` to `lv_coord_t`. What it gives where the integer part does not
fit, C leaves open. -/
structure ToCoord where
  conv : ℚ → Int16
  exact : ∀ q, -2 ^ 15 ≤ trunc q → trunc q < 2 ^ 15 → (conv q).toInt = trunc q

/-- What a screen passes to the chart: the end of the axis, before it becomes an `lv_coord_t`,
and the points of the two series. -/
structure ChartCalls where
  axisMax : Int
  rx : List Int16
  tx : List Int16

variable (coord : ToCoord)

def rxCoord (s : NetHistorySample) : Int16 := coord.conv (s.rxBps / 1024)

def txCoord (s : NetHistorySample) : Int16 := coord.conv (s.txBps / 1024)

/-- The loop for `max_val`. -/
def maxVal (hist : List NetHistorySample) : Int16 :=
  hist.foldl (fun m s =>
    let m := if rxCoord coord s > m then rxCoord coord s else m
    if txCoord coord s > m then txCoord coord s else m) 1

/-- The part of the three updates behind `if (hist && count > 0)`. -/
def drawChart {cap : Nat} (hist : Ring NetHistorySample cap) : Option ChartCalls :=
  if hist.count > 0 then
    let maxVal := (maxVal coord hist.walk).toInt
    some {
      axisMax := maxVal + maxVal.tdiv 10 + 1
      rx := hist.walk.map (rxCoord coord)
      tx := hist.walk.map (txCoord coord) }
  else none

def netGetShortHistory (c : Collector) (ifaceIdx : Int) : Option (Ring NetHistorySample 60) :=
  if ifaceIdx < 0 ∨ ifaceIdx ≥ appMaxInterfaces then none else some (c.shortHistory ifaceIdx.toNat)

def netGetLongHistory (c : Collector) (ifaceIdx : Int) : Option (Ring NetHistorySample 1440) :=
  if ifaceIdx < 0 ∨ ifaceIdx ≥ appMaxInterfaces then none else some (c.longHistory ifaceIdx.toNat)

/-- The history `ui_traffic_update` plots for its `g_selected_iface`. -/
def trafficHistory (c : Collector) (selected : Int) : Option (Ring NetHistorySample 1440) :=
  if selected ≥ c.state.numIfaces then
    if c.state.numIfaces = 0 then none else netGetLongHistory c 0
  else netGetLongHistory c selected

/-- The history `ui_interface_update` plots for its `g_iface_idx`. -/
def interfaceHistory (c : Collector) (ifaceIdx : Int) : Option (Ring NetHistorySample 60) :=
  if ifaceIdx ≥ c.state.numIfaces then none else netGetShortHistory c ifaceIdx

/-- The history `ui_dashboard_update` plots on a card. -/
def dashboardHistory (c : Collector) (card : Nat) : Option (Ring NetHistorySample 60) :=
  netGetShortHistory c card

def uiTrafficChart (c : Collector) (selected : Int) : Option ChartCalls :=
  (trafficHistory c selected).bind (drawChart coord)

def uiInterfaceChart (c : Collector) (ifaceIdx : Int) : Option ChartCalls :=
  (interfaceHistory c ifaceIdx).bind (drawChart coord)

def uiDashboardChart (c : Collector) (card : Nat) : Option ChartCalls :=
  (dashboardHistory c card).bind (drawChart coord)

/-! ## Exact charts -/

/-- The chart shows every sample, rounded down, below the end of its axis. -/
structure ChartExact (calls : ChartCalls) (hist : List NetHistorySample) : Prop where
  rx : calls.rx.map Int16.toInt = hist.map fun s => ⌊s.rxBps / 1024⌋
  tx : calls.tx.map Int16.toInt = hist.map fun s => ⌊s.txBps / 1024⌋
  representable : calls.axisMax < 2 ^ 15
  above : ∀ v ∈ calls.rx ++ calls.tx, v.toInt < calls.axisMax

/-- All rates are below 29789 KiB per second. -/
def Below (hist : List NetHistorySample) : Prop :=
  ∀ s ∈ hist, s.rxBps < 29789 * 1024 ∧ s.txBps < 29789 * 1024

/-- No rate is negative. -/
def NonNeg (hist : List NetHistorySample) : Prop := ∀ s ∈ hist, 0 ≤ s.rxBps ∧ 0 ≤ s.txBps

/-- A chart plots at most one history. -/
def ExactFor {cap : Nat} (hist : Option (Ring NetHistorySample cap)) (calls : Option ChartCalls) :
    Prop :=
  ∀ r ∈ hist, ∀ drawn ∈ calls, ChartExact drawn r.walk

structure ChartsExact (c : Collector) : Prop where
  traffic : ∀ selected, ExactFor (trafficHistory c selected) (uiTrafficChart coord c selected)
  interface : ∀ ifaceIdx, ExactFor (interfaceHistory c ifaceIdx) (uiInterfaceChart coord c ifaceIdx)
  dashboard : ∀ card, ExactFor (dashboardHistory c card) (uiDashboardChart coord c card)

/-- What is plotted has this property. -/
structure Plotted (P : List NetHistorySample → Prop) (c : Collector) : Prop where
  traffic : ∀ selected, ∀ r ∈ trafficHistory c selected, P r.walk
  interface : ∀ ifaceIdx, ∀ r ∈ interfaceHistory c ifaceIdx, P r.walk
  dashboard : ∀ card, ∀ r ∈ dashboardHistory c card, P r.walk

/-! ## One chart -/

/-- The points of both series, in the order of the loop. -/
def points (hist : List NetHistorySample) : List Int16 :=
  hist.flatMap fun s => [rxCoord coord s, txCoord coord s]

theorem maxVal_toInt (hist : List NetHistorySample) :
    (maxVal coord hist).toInt = ((points coord hist).map Int16.toInt).foldl max 1 := by
  have hgt : ∀ x m : Int16, x > m ↔ m.toInt < x.toInt := fun _ _ => Int16.lt_iff_toInt_lt
  have hloop := foldl_gt_key hgt (points coord hist) 1
  rw [points, List.foldl_flatMap] at hloop
  exact hloop

theorem mem_points {hist : List NetHistorySample} {v : Int16} : v ∈ points coord hist ↔
    v ∈ hist.map (rxCoord coord) ++ hist.map (txCoord coord) := by
  simp only [points, List.mem_flatMap, List.mem_append, List.mem_map, List.mem_cons,
    List.not_mem_nil, or_false]
  constructor
  · rintro ⟨s, hs, rfl | rfl⟩
    · exact .inl ⟨s, hs, rfl⟩
    · exact .inr ⟨s, hs, rfl⟩
  · rintro (⟨s, hs, rfl⟩ | ⟨s, hs, rfl⟩)
    · exact ⟨s, hs, .inl rfl⟩
    · exact ⟨s, hs, .inr rfl⟩

/-- A rate below the bound is converted exactly, to at most 29788. -/
theorem conv_of_below {q : ℚ} (h0 : 0 ≤ q) (h : q < 29789 * 1024) :
    (coord.conv (q / 1024)).toInt = ⌊q / 1024⌋ ∧ ⌊q / 1024⌋ ≤ 29788 := by
  have hq : 0 ≤ q / 1024 := by linarith
  have hfloor : ⌊q / 1024⌋ < 29789 := Int.floor_lt.mpr (by push_cast; linarith)
  have hnonneg := Int.floor_nonneg.mpr hq
  refine ⟨?_, by omega⟩
  rw [coord.exact _ (by rw [trunc_of_nonneg hq]; omega) (by rw [trunc_of_nonneg hq]; omega),
    trunc_of_nonneg hq]

theorem below_of_floor {q : ℚ} (h : ⌊q / 1024⌋ ≤ 29788) : q < 29789 * 1024 := by
  have hlt : q / 1024 < 29789 := by
    have := Int.floor_lt (a := q / 1024) (z := 29789) |>.mp (by omega)
    exact_mod_cast this
  linarith

variable {coord}

/-- A chart is exact exactly when its history is below the bound. -/
theorem drawChart_exact_iff {cap : Nat} {r : Ring NetHistorySample cap} {calls : ChartCalls}
    (hdraw : calls ∈ drawChart coord r) (hnonneg : NonNeg r.walk) :
    ChartExact calls r.walk ↔ Below r.walk := by
  obtain ⟨-, hcalls⟩ := Option.ite_none_right_eq_some.mp hdraw
  obtain rfl := Option.some.inj hcalls
  have hle : ∀ b : Int, (maxVal coord r.walk).toInt ≤ b ↔
      1 ≤ b ∧ ∀ v ∈ points coord r.walk, v.toInt ≤ b := by
    intro b
    rw [maxVal_toInt, foldl_max_le_iff, List.forall_mem_map]
  have hone := ((hle _).mp le_rfl).1
  have hdiv : (maxVal coord r.walk).toInt.tdiv 10 = (maxVal coord r.walk).toInt / 10 :=
    Int.tdiv_eq_ediv_of_nonneg (by omega)
  constructor
  · rintro ⟨hrx, htx, haxis, -⟩ s hs
    -- the axis ends below `2 ^ 15` only for a maximum of at most 29788
    have hmax : (maxVal coord r.walk).toInt ≤ 29788 := by
      simp only [hdiv] at haxis
      omega
    have hpoints := ((hle _).mp hmax).2
    rw [List.map_map] at hrx htx
    have hrx' := List.map_inj_left.mp hrx s hs
    have htx' := List.map_inj_left.mp htx s hs
    refine ⟨below_of_floor ?_, below_of_floor ?_⟩
    · rw [← hrx']
      exact hpoints _ ((mem_points coord).mpr (List.mem_append_left _ (List.mem_map_of_mem hs)))
    · rw [← htx']
      exact hpoints _ ((mem_points coord).mpr (List.mem_append_right _ (List.mem_map_of_mem hs)))
  · intro hbelow
    have hrx := fun s hs => conv_of_below coord (hnonneg s hs).1 (hbelow s hs).1
    have htx := fun s hs => conv_of_below coord (hnonneg s hs).2 (hbelow s hs).2
    have hmax : (maxVal coord r.walk).toInt ≤ 29788 := by
      refine (hle _).mpr ⟨by decide, fun v hv => ?_⟩
      obtain ⟨s, hs, hv⟩ := List.mem_flatMap.mp hv
      rcases List.mem_pair.mp hv with rfl | rfl
      · exact (hrx s hs).1.trans_le (hrx s hs).2
      · exact (htx s hs).1.trans_le (htx s hs).2
    refine ⟨?_, ?_, ?_, fun v hv => ?_⟩
    · rw [List.map_map]
      exact List.map_congr_left fun s hs => (hrx s hs).1
    · rw [List.map_map]
      exact List.map_congr_left fun s hs => (htx s hs).1
    · simp only [hdiv]
      omega
    · have hv' := ((hle _).mp le_rfl).2 v ((mem_points coord).mpr hv)
      simp only [hdiv]
      omega

variable (coord)

theorem exactFor_iff {cap : Nat} {hist : Option (Ring NetHistorySample cap)}
    (hnonneg : ∀ r ∈ hist, NonNeg r.walk) :
    ExactFor hist (hist.bind (drawChart coord)) ↔ ∀ r ∈ hist, Below r.walk := by
  apply forall₂_congr
  intro r hr
  rw [Option.mem_def.mp hr, Option.bind_some]
  by_cases hcount : r.count > 0
  · have hdraw : drawChart coord r = some _ := if_pos hcount
    rw [hdraw]
    simp only [Option.mem_some_iff, forall_eq']
    exact drawChart_exact_iff hdraw (hnonneg r hr)
  · have hdraw : drawChart coord r = none := if_neg hcount
    have hwalk : r.walk = [] := by
      rw [Ring.walk, Nat.eq_zero_of_not_pos hcount]
      rfl
    rw [hdraw, hwalk]
    exact ⟨fun _ => List.forall_mem_nil _, fun _ _ h => by cases h⟩

/-- **Charts neither clip nor wrap** exactly when no plotted rate reaches 29789 KiB per second. -/
theorem charts_iff (c : Collector) (hnonneg : Plotted NonNeg c) :
    ChartsExact coord c ↔ Plotted Below c := by
  have htraffic := fun selected => exactFor_iff coord (hnonneg.traffic selected)
  have hinterface := fun ifaceIdx => exactFor_iff coord (hnonneg.interface ifaceIdx)
  have hdashboard := fun card => exactFor_iff coord (hnonneg.dashboard card)
  constructor
  · rintro ⟨ht, hi, hd⟩
    exact ⟨fun x => (htraffic x).mp (ht x), fun x => (hinterface x).mp (hi x),
      fun x => (hdashboard x).mp (hd x)⟩
  · rintro ⟨ht, hi, hd⟩
    exact ⟨fun x => (htraffic x).mpr (ht x), fun x => (hinterface x).mpr (hi x),
      fun x => (hdashboard x).mpr (hd x)⟩

/-- The conversion that wraps. -/
def wrapCoord : ToCoord where
  conv q := Int16.ofInt (trunc q)
  exact _ hlow hhigh := Int16.toInt_ofInt_of_le hlow hhigh

/-- A collector that has seen one sample of each interface. -/
def oneSample (s : NetHistorySample) : Collector :=
  { netCollectorInit Config.empty ⟨none, none, ⟨0, 0⟩⟩ with
    shortHistory := fun _ => (Ring.fresh default (by decide)).push s }

theorem oneSample_plotted {P : List NetHistorySample → Prop} {s : NetHistorySample} (hnil : P [])
    (hone : P [s]) : Plotted P (oneSample s) := by
  have hshort : ∀ i, ∀ r ∈ netGetShortHistory (oneSample s) i, P r.walk := by
    intro i r hr
    obtain ⟨-, hr⟩ := Option.ite_none_left_eq_some.mp hr
    obtain rfl := Option.some.inj hr
    have hwalk : ((oneSample s).shortHistory i.toNat).walk = [s] := by
      simp [oneSample, Ring.walk, Ring.readIdx_eq, Ring.push, Ring.fresh]
    exact hwalk ▸ hone
  have hlong : ∀ i, ∀ r ∈ netGetLongHistory (oneSample s) i, P r.walk := by
    intro i r hr
    obtain ⟨-, hr⟩ := Option.ite_none_left_eq_some.mp hr
    obtain rfl := Option.some.inj hr
    exact hnil
  refine ⟨fun selected r hr => ?_, fun ifaceIdx r hr => ?_, fun card => hshort card⟩
  · unfold trafficHistory at hr
    split at hr
    · exact hlong 0 r (Option.ite_none_left_eq_some.mp hr).2
    · exact hlong selected r hr
  · exact hshort ifaceIdx r (Option.ite_none_left_eq_some.mp hr).2

/-- 8 Mbit/s are plotted. -/
theorem charts_slow : ChartsExact wrapCoord (oneSample ⟨1000000, 0⟩) :=
  (charts_iff wrapCoord (oneSample ⟨1000000, 0⟩)
    (oneSample_plotted (List.forall_mem_nil _) (by simp [NonNeg]))).mpr
      (oneSample_plotted (List.forall_mem_nil _) (by norm_num [Below]))

/-- 400 Mbit/s are not. -/
theorem fast_clipped : ¬ ∀ (coord : ToCoord) (c : Collector), Plotted (fun hist => ∀ s ∈ hist,
    (0 ≤ s.rxBps ∧ s.rxBps ≤ 1250000000) ∧ 0 ≤ s.txBps ∧ s.txBps ≤ 1250000000) c →
      ChartsExact coord c := by
  intro h
  have hexact := (h wrapCoord (oneSample ⟨50000000, 0⟩)
    (oneSample_plotted (List.forall_mem_nil _) (by norm_num))).dashboard 0
  have hbelow := (exactFor_iff _ (oneSample_plotted (P := NonNeg) (List.forall_mem_nil _)
    (by simp [NonNeg]) |>.dashboard 0)).mp hexact _ rfl
  have hrate := (hbelow ⟨50000000, 0⟩ List.mem_cons_self).1
  norm_num at hrate

end NetMon.Ui
