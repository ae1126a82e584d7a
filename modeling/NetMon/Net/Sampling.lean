import Mathlib.Algebra.Order.Field.Rat
import NetMon.Net.Rates

/-!
# When an interface gets its sample

For an interface that is in the table and in the readings of two successive fast ticks,
`sampled_iff` says when the second tick records the exact rates, the byte deltas and one
history sample. The search for the baseline ends at the table's row count, so a device
listed further down in `/proc/net/dev` than the table is long gets nothing.
-/

namespace NetMon.Net

open NetMon.Lib NetMon.Core

/-- The difference of two counters over the time between them. -/
def exactRate (cur base : UInt64) (dt : ℚ) : ℚ := ((cur.toNat : ℚ) - base.toNat) / dt

def exactRates (base cur : NetStats) (dt : ℚ) : NetRates where
  rxBytesPerSec := exactRate cur.rxBytes base.rxBytes dt
  txBytesPerSec := exactRate cur.txBytes base.txBytes dt
  rxPacketsPerSec := exactRate cur.rxPackets base.rxPackets dt
  txPacketsPerSec := exactRate cur.txPackets base.txPackets dt
  rxErrorsPerSec := exactRate cur.rxErrors base.rxErrors dt
  txErrorsPerSec := exactRate cur.txErrors base.txErrors dt

/-- From `c` to `c'` the row got the exact rates, the byte deltas and one sample. -/
def Sampled (c c' : Collector) (k : Nat) (base cur : NetStats) (dt : ℚ) : Prop :=
  traffic c' k = (traffic c k).record (exactRates base cur dt) base cur

instance (c c' : Collector) (k : Nat) (base cur : NetStats) (dt : ℚ) :
    Decidable (Sampled c c' k base cur dt) :=
  inferInstanceAs (Decidable (traffic c' k = _))

/-- No counter a rate is made of went down. -/
structure NoReset (base cur : NetStats) : Prop where
  rxBytes : base.rxBytes ≤ cur.rxBytes
  txBytes : base.txBytes ≤ cur.txBytes
  rxPackets : base.rxPackets ≤ cur.rxPackets
  txPackets : base.txPackets ≤ cur.txPackets
  rxErrors : base.rxErrors ≤ cur.rxErrors
  txErrors : base.txErrors ≤ cur.txErrors

/-! ## Exact rates -/

/-- The unsigned difference is the difference exactly when the counter did not go down. -/
theorem rateOf_eq_exact {cur base : UInt64} {dt : ℚ} (hdt : 0 < dt) :
    rateOf cur base dt = exactRate cur base dt ↔ base ≤ cur := by
  have hc := cur.toNat_lt
  have hb := base.toNat_lt
  have hsub : (cur - base).toNat = (2 ^ 64 - base.toNat + cur.toNat) % 2 ^ 64 :=
    UInt64.toNat_sub cur base
  have hcast : ((cur - base).toNat : ℚ) = (cur.toNat : ℚ) - base.toNat ↔
      ((cur - base).toNat : Int) = cur.toNat - base.toNat := by
    rw [← Int.cast_inj (α := ℚ), Int.cast_sub, Int.cast_natCast, Int.cast_natCast,
      Int.cast_natCast]
  unfold rateOf exactRate
  rw [div_left_inj' hdt.ne', hcast, UInt64.le_iff_toNat_le, hsub]
  omega

theorem ratesOf_eq_exact {base cur : NetStats} {dt : ℚ} (hdt : 0 < dt) :
    ratesOf base cur dt = exactRates base cur dt ↔ NoReset base cur := by
  unfold ratesOf exactRates
  rw [NetRates.mk.injEq, rateOf_eq_exact hdt, rateOf_eq_exact hdt, rateOf_eq_exact hdt,
    rateOf_eq_exact hdt, rateOf_eq_exact hdt, rateOf_eq_exact hdt]
  exact ⟨fun ⟨h1, h2, h3, h4, h5, h6⟩ => ⟨h1, h2, h3, h4, h5, h6⟩,
    fun h => ⟨h.1, h.2, h.3, h.4, h.5, h.6⟩⟩

theorem Traffic.record_inj {t : Traffic} {r r' : NetRates} {base cur : NetStats} :
    t.record r base cur = t.record r' base cur ↔ r = r' :=
  ⟨fun h => congrArg Traffic.rates h, fun h => by rw [h]⟩

/-! ## How many samples a row gets -/

theorem Traffic.apply_head (dt : ℚ) (ss : List RateSample) (t : Traffic) :
    (ss.foldl (Traffic.apply dt) t).history.head = (t.history.head + ss.length) % 60 := by
  induction ss generalizing t with
  | nil => exact (Nat.mod_eq_of_lt t.history.head_lt).symm
  | cons s ss ih =>
    have hpush : (t.apply dt s).history.head = (t.history.head + 1) % 60 := rfl
    rw [List.foldl_cons, ih, hpush, List.length_cons]
    omega

/-- A row that got no or several samples did not get one. -/
theorem not_record_of_length {dt : ℚ} (ss : List RateSample) (hlen : ss.length ≠ 1)
    (hle : ss.length ≤ 8) (t : Traffic) (r : NetRates) (base cur : NetStats) :
    ss.foldl (Traffic.apply dt) t ≠ t.record r base cur := by
  intro h
  have hhead := congrArg (fun t => t.history.head) h
  have hlt := t.history.head_lt
  have hpush : (t.record r base cur).history.head = (t.history.head + 1) % 60 := rfl
  simp only [Traffic.apply_head, hpush] at hhead
  omega

/-- The samples of a row are its name's rows, each against the baseline found for it. -/
theorem samples_of_row {c : Collector} {name : IfaceName} {k : Nat}
    (hk : c.state.findIface name = some k) (rows : List NetStats) :
    (rows.filterMap (sampleFor c)).filter (·.row = k) =
      (findPrev c name).elim [] fun j =>
        (rows.filter (·.name = name)).map fun r => ⟨k, c.prevStats j, r⟩ := by
  induction rows with
  | nil => cases findPrev c name <;> rfl
  | cons r rs ih =>
    by_cases hr : r.name = name
    · have hs : sampleFor c r = (findPrev c name).map fun j => ⟨k, c.prevStats j, r⟩ := by
        unfold sampleFor
        rw [hr, hk]
        cases findPrev c name <;> rfl
      cases hj : findPrev c name with
      | none =>
        rw [hj] at hs ih
        rw [List.filterMap_cons_none hs, ih]
        rfl
      | some j =>
        rw [hj] at hs ih
        rw [List.filterMap_cons_some hs, List.filter_cons, List.filter_cons, ih]
        simp [hr]
    · have hother : ∀ s, sampleFor c r = some s → s.row ≠ k := by
        intro s hs hrow
        have h1 := (NetState.findIface_eq_some.mp (sampleFor_row hs).1).2.1
        have h2 := (NetState.findIface_eq_some.mp hk).2.1
        exact hr (by rw [← h1, hrow, h2])
      have hfilter : (r :: rs).filter (·.name = name) = rs.filter (·.name = name) := by
        rw [List.filter_cons]
        simp [hr]
      rw [hfilter, ← ih]
      cases hs : sampleFor c r with
      | none => rw [List.filterMap_cons_none hs]
      | some s =>
        rw [List.filterMap_cons_some hs, List.filter_cons]
        simp [hother s hs]

/-- A row that is not the first of its name gets no sample. -/
theorem samples_of_shadowed {c : Collector} {k : Nat}
    (hk : c.state.findIface (c.state.ifaces k).info.name ≠ some k) (rows : List NetStats) :
    (rows.filterMap (sampleFor c)).filter (·.row = k) = [] := by
  rw [List.filter_eq_nil_iff]
  intro s hs
  obtain ⟨r, _, hr⟩ := List.mem_filterMap.mp hs
  simp only [decide_eq_true_eq]
  intro hrow
  have hfind := (sampleFor_row hr).1
  have hname := (NetState.findIface_eq_some.mp hfind).2.1
  rw [hrow] at hfind hname
  exact hk (hname ▸ hfind)

theorem filter_of_once {rows : List NetStats} {name : IfaceName} {q : NetStats}
    (hq : rowOf rows name = some q) (honce : (rows.filter (·.name = name)).length = 1) :
    rows.filter (·.name = name) = [q] := by
  obtain ⟨x, hx⟩ := List.length_eq_one_iff.mp honce
  have hhead : (rows.filter (·.name = name)).head? = some q := by
    rw [List.head?_filter]
    exact hq
  rw [hx] at hhead ⊢
  rw [Option.some.inj hhead]

/-- Where the baseline is found, the row is recorded as it should be exactly when the
reading lists its device once and no counter went down. -/
theorem recorded_iff {dt : ℚ} (hdt : 0 < dt) {rows : List NetStats} {name : IfaceName} {k : Nat}
    {base cur : NetStats} (hcur : rowOf rows name = some cur)
    (hlen : (rows.filter (·.name = name)).length ≤ 8) (t : Traffic) :
    ((rows.filter (·.name = name)).map fun r => ⟨k, base, r⟩).foldl (Traffic.apply dt) t =
        t.record (exactRates base cur dt) base cur ↔
      (rows.filter (·.name = name)).length = 1 ∧ NoReset base cur := by
  by_cases honce : (rows.filter (·.name = name)).length = 1
  · rw [and_iff_right honce, filter_of_once hcur honce, List.map_singleton, List.foldl_cons,
      List.foldl_nil]
    unfold Traffic.apply
    rw [Traffic.record_inj, ratesOf_eq_exact hdt]
  · refine iff_of_false (not_record_of_length _ ?_ ?_ _ _ _ _) fun h => honce h.1
    · rwa [List.length_map]
    · rwa [List.length_map]

/-- What a fast tick records for a row when it remembers a tick before it. -/
theorem traffic_second {c : Collector} {a b : FastInput} (hmem : Remembers (some a) c)
    (hdt : 0 < elapsed b.now a.now) (k : Nat) : traffic (collector.step c (.fast b)) k =
      ((b.reading.filterMap (sampleFor c)).filter (·.row = k)).foldl
        (Traffic.apply (elapsed b.now a.now)) (traffic c k) := by
  obtain ⟨hvalid, htime, _⟩ := hmem
  have hrates : ratesAt c b = b.reading.filterMap (sampleFor c) := by
    rw [ratesAt_eq, if_pos ⟨hvalid, by rw [htime]; exact hdt⟩]
  rw [← hrates, ← htime]
  exact traffic_fastTimerCb c b k

/-! ## The main result -/

/-- What it takes for the row to be sampled: it is the first of its name, its device stood
in the earlier reading within the table's row count and stands in the later one once, and
none of its counters went down. -/
structure Samplable (c : Collector) (before after : List NetStats) (k : Nat)
    (base cur : NetStats) : Prop where
  first : c.state.findIface (c.state.ifaces k).info.name = some k
  found : (indexOf before (c.state.ifaces k).info.name : Int) < c.state.numIfaces
  once : (after.filter (·.name = (c.state.ifaces k).info.name)).length = 1
  grown : NoReset base cur

/-- **Rate samples.** In every run, for successive fast ticks `a` and `b` with time between
them and a table row whose device is in both readings, the second tick samples the row
exactly when it is samplable. -/
theorem sampled_iff (cfg : Config) (boot : BootInput) (ticks : List Tick) (a b : FastInput)
    (k : Nat) (base cur : NetStats) (c : Collector)
    (hc : c = collector.exec (netCollectorInit cfg boot) ticks)
    (hlast : lastFast ticks = some a) (hdt : 0 < elapsed b.now a.now)
    (hbase : rowOf a.reading (c.state.ifaces k).info.name = some base)
    (hcur : rowOf b.reading (c.state.ifaces k).info.name = some cur) :
    Sampled c (collector.step c (.fast b)) k base cur (elapsed b.now a.now) ↔
      Samplable c a.reading b.reading k base cur := by
  have hmem : Remembers (lastFast ticks) c := hc ▸ remembers_run cfg boot ticks
  rw [hlast] at hmem
  have htraffic := traffic_second hmem hdt k
  obtain ⟨_, _, old, hprev⟩ := hmem
  have hfound := findPrev_of_row (c := c) hprev hbase
  have hlen : (b.reading.filter (·.name = (c.state.ifaces k).info.name)).length ≤ 8 :=
    (List.length_filter_le _ _).trans (parseProcNetDev_length _ _)
  unfold Sampled
  rw [htraffic]
  by_cases hfirst : c.state.findIface (c.state.ifaces k).info.name = some k
  · rw [samples_of_row hfirst, hfound]
    by_cases hidx : (indexOf a.reading (c.state.ifaces k).info.name : Int) < c.state.numIfaces
    · have hbaseline : c.prevStats (indexOf a.reading (c.state.ifaces k).info.name) = base := by
        rw [hprev]
        exact overwrite_eq old (rowOf_getElem? hbase)
      rw [if_pos hidx, Option.elim_some, hbaseline, recorded_iff hdt hcur hlen]
      exact ⟨fun h => ⟨hfirst, hidx, h.1, h.2⟩, fun h => ⟨h.once, h.grown⟩⟩
    · -- the search ends before the baseline: no sample
      rw [if_neg hidx, Option.elim_none]
      refine iff_of_false ?_ fun h => hidx h.found
      exact not_record_of_length [] (by simp) (by simp) _ _ _ _
  · rw [samples_of_shadowed hfirst]
    refine iff_of_false ?_ fun h => hfirst h.first
    exact not_record_of_length [] (by simp) (by simp) _ _ _ _

/-! ## Two machines -/

def eth0First : FastInput := fastAt 1 "\n\neth0:100 0 0 0 0 0 0 0 10 0 0 0 0 0 0 0\n"

def eth0Second : FastInput := fastAt 2 "\n\neth0:500 0 0 0 0 0 0 0 30 0 0 0 0 0 0 0\n"

theorem sampled_eth0 :
    let c := collector.exec (netCollectorInit Config.empty (bootWith ["eth0"])) [.fast eth0First]
    Sampled c (collector.step c (.fast eth0Second)) 0 (statsOf "eth0" 100 10)
      (statsOf "eth0" 500 30) (elapsed ⟨2, 0⟩ ⟨1, 0⟩) :=
  (sampled_iff Config.empty (bootWith ["eth0"]) [.fast eth0First] eth0First eth0Second 0
    (statsOf "eth0" 100 10) (statsOf "eth0" 500 30) _ rfl rfl (by decide +kernel)
    (by decide +kernel) (by decide +kernel)).mpr
    ⟨by decide +kernel, by decide +kernel, by decide +kernel,
      by constructor <;> decide +kernel⟩

def docker0First : FastInput := fastAt 1
  "\n\ndocker0:0 0 0 0 0 0 0 0 0 0 0 0 0 0 0 0\neth0:100 0 0 0 0 0 0 0 10 0 0 0 0 0 0 0\n"

def docker0Second : FastInput := fastAt 2
  "\n\ndocker0:0 0 0 0 0 0 0 0 0 0 0 0 0 0 0 0\neth0:500 0 0 0 0 0 0 0 30 0 0 0 0 0 0 0\n"

/-- A device without an address listed in front of `eth0` keeps `eth0` from being sampled. -/
theorem eth0_behind_docker0_missed :
    let c := collector.exec (netCollectorInit Config.empty (bootWith ["eth0"]))
      [.fast docker0First]
    c.state.numIfaces = 1 ∧ c.prevValid = true ∧
    rowOf docker0First.reading (c.state.ifaces 0).info.name = some (statsOf "eth0" 100 10) ∧
    rowOf docker0Second.reading (c.state.ifaces 0).info.name = some (statsOf "eth0" 500 30) ∧
    0 < elapsed docker0Second.now docker0First.now ∧
    ¬ Sampled c (collector.step c (.fast docker0Second)) 0 (statsOf "eth0" 100 10)
      (statsOf "eth0" 500 30) (elapsed docker0Second.now docker0First.now) := by
  decide +kernel

end NetMon.Net
