import NetMon.Net.Rates

/-!
# Where baselines come from

A rate should be taken against the preceding fast tick. The rows of that tick stand in
the first slots of `g_prev_stats`; a device absent there can still be found in a slot
behind them, filled at a tick with more rows. `baselines_iff` says that this is the only
way a stale baseline is used.
-/

namespace NetMon.Net

open NetMon.Lib NetMon.Core

/-- Every sample of the tick is taken against the row the preceding fast tick `last` read
for the device, over the time since that tick, and a table row whose device was absent
there keeps its rates, totals and history. -/
structure FreshBaselines (c : Collector) (f : FastInput) (last : Option FastInput) : Prop where
  base : ∀ s ∈ ratesAt c f, ∃ a ∈ last, rowOf a.reading s.cur.name = some s.base ∧
    c.prevTime = a.now
  absent : ∀ k : Nat, (k : Int) < c.state.numIfaces →
    (∀ a ∈ last, rowOf a.reading (c.state.ifaces k).info.name = none) →
    traffic (collector.step c (.fast f)) k = traffic c k

/-- No device that the table and the tick's reading list but the preceding reading does
not has a row left behind that reading, below the table's row count. -/
def NoStaleRow (c : Collector) (f : FastInput) (last : Option FastInput) : Prop :=
  ∀ a ∈ last, 0 < elapsed f.now a.now →
    ∀ cur ∈ f.reading, c.state.findIface cur.name ≠ none → rowOf a.reading cur.name = none →
      ∀ j : Nat, a.reading.length ≤ j → (j : Int) < c.state.numIfaces →
        (c.prevStats j).name ≠ cur.name

/-- Once the samples are fresh, a row whose device was absent has none. -/
theorem freshBaselines_of_base {c : Collector} {f : FastInput} {last : Option FastInput}
    (h : ∀ s ∈ ratesAt c f, ∃ a ∈ last, rowOf a.reading s.cur.name = some s.base ∧
      c.prevTime = a.now) : FreshBaselines c f last := by
  refine ⟨h, fun k _ habsent => ?_⟩
  have hnone : (ratesAt c f).filter (·.row = k) = [] := by
    rw [List.filter_eq_nil_iff]
    intro s hs
    simp only [decide_eq_true_eq]
    intro hrow
    obtain ⟨_, cur, _, hcur⟩ := mem_ratesAt.mp hs
    obtain ⟨hfind, hscur, _⟩ := sampleFor_row hcur
    have hname := (NetState.findIface_eq_some.mp hfind).2.1
    rw [hrow] at hname
    obtain ⟨a, ha, hbase, _⟩ := h s hs
    rw [hscur, ← hname, habsent a ha] at hbase
    cases hbase
  have hstep := traffic_fastTimerCb c f k
  rw [hnone] at hstep
  exact hstep

/-- A collector without a preceding tick takes no samples. -/
theorem freshBaselines_first {c : Collector} {f : FastInput} (hc : Remembers none c) :
    FreshBaselines c f none := by
  have hvalid : c.prevValid = false := hc
  have hnil : ratesAt c f = [] := by rw [ratesAt_eq, hvalid, if_neg (by simp)]
  apply freshBaselines_of_base
  intro s hs
  rw [hnil] at hs
  cases hs

/-- A stale row would make the search succeed, and a sample would be taken without a fresh
baseline. -/
theorem noStaleRow_of_fresh {c : Collector} {f a : FastInput} (hc : Remembers (some a) c)
    (hfresh : FreshBaselines c f (some a)) : NoStaleRow c f (some a) := by
  obtain ⟨hvalid, htime, -⟩ := hc
  intro a' ha' hdt cur hcur hrow hnone j hj hjn hname
  obtain rfl := Option.mem_some_iff.mp ha'
  obtain ⟨row, hrow⟩ := Option.ne_none_iff_exists'.mp hrow
  obtain ⟨i, hi⟩ : ∃ i, findPrev c cur.name = some i := by
    rw [← Option.ne_none_iff_exists']
    intro h
    exact findPrev_eq_none.mp h j hjn hname
  have hs : sampleFor c cur = some ⟨row, c.prevStats i, cur⟩ := by
    simp only [sampleFor, hrow, hi]
    rfl
  obtain ⟨b, hb, hbase, -⟩ :=
    hfresh.base _ (mem_ratesAt.mpr ⟨⟨hvalid, htime ▸ hdt⟩, cur, hcur, hs⟩)
  obtain rfl := Option.mem_some_iff.mp hb
  rw [hnone] at hbase
  cases hbase

theorem fresh_of_noStaleRow {c : Collector} {f a : FastInput} (hc : Remembers (some a) c)
    (hstale : NoStaleRow c f (some a)) : FreshBaselines c f (some a) := by
  obtain ⟨-, htime, old, hprev⟩ := hc
  refine freshBaselines_of_base fun s hs => ⟨a, rfl, ?_, htime⟩
  obtain ⟨⟨-, hdt⟩, cur, hcur, hsample⟩ := mem_ratesAt.mp hs
  obtain ⟨hrow, hscur, j, hj, hbase⟩ := sampleFor_row hsample
  rw [hscur, hbase]
  cases hp : rowOf a.reading cur.name with
  | none =>
    have hlen := length_le_of_findPrev hprev hp hj
    obtain ⟨hjn, hname, -⟩ := findPrev_eq_some.mp hj
    exact absurd hname
      (hstale a rfl (htime ▸ hdt) cur hcur (by rw [hrow]; simp) hp j hlen hjn)
  | some p =>
    rw [findPrev_of_row hprev hp] at hj
    split at hj
    · rw [← Option.some.inj hj, hprev, overwrite_eq old (rowOf_getElem? hp)]
    · cases hj

/-- A collector that remembers the preceding tick uses fresh baselines exactly when no
stale row is in reach. -/
theorem freshBaselines_iff {c : Collector} {f : FastInput} {last : Option FastInput}
    (hc : Remembers last c) : FreshBaselines c f last ↔ NoStaleRow c f last := by
  cases last with
  | none => exact iff_of_true (freshBaselines_first hc) fun a ha => by cases ha
  | some a => exact ⟨noStaleRow_of_fresh hc, fresh_of_noStaleRow hc⟩

/-- **Baselines.** At every fast tick of every run the samples are taken against the
preceding fast tick, and devices absent there get none, exactly when no stale row is in
reach. -/
theorem baselines_iff (cfg : Config) (boot : BootInput) (ticks : List Tick) (f : FastInput) :
    FreshBaselines (collector.exec (netCollectorInit cfg boot) ticks) f (lastFast ticks) ↔
      NoStaleRow (collector.exec (netCollectorInit cfg boot) ticks) f (lastFast ticks) :=
  freshBaselines_iff (remembers_run cfg boot ticks)

/-- A device that is listed, missing and listed again. -/
def wlan0Flaps : List FastInput :=
  [fastAt 1 "\n\neth0:0 0 0 0 0 0 0 0 0 0 0 0 0 0 0 0\nwlan0:7 0 0 0 0 0 0 0 0 0 0 0 0 0 0 0\n",
    fastAt 2 "\n\neth0:0 0 0 0 0 0 0 0 0 0 0 0 0 0 0 0\n"]

def wlan0Back : FastInput := fastAt 3
  "\n\neth0:0 0 0 0 0 0 0 0 0 0 0 0 0 0 0 0\nwlan0:9 0 0 0 0 0 0 0 0 0 0 0 0 0 0 0\n"

/-- Back after a tick's absence, the device gets a rate against the tick before that. -/
theorem wlan0_back_stale : ¬ FreshBaselines
    (collector.exec (netCollectorInit Config.empty (bootWith ["eth0", "wlan0"]))
      (wlan0Flaps.map .fast)) wlan0Back (lastFast (wlan0Flaps.map .fast)) := by
  intro h
  obtain ⟨a, ha, hbase, _⟩ :=
    h.base ⟨1, statsOf "wlan0" 7 0, statsOf "wlan0" 9 0⟩ (by decide +kernel)
  obtain rfl := Option.mem_some_iff.mp ha
  revert hbase
  decide +kernel

end NetMon.Net
