import NetMon.Net.Collector

/-!
# The bounds of the interface table

`net_collector_init` stores the return value of the enumeration in `num_ifaces`, and the
slow callback appends at that index. A successful enumeration establishes
`0 <= num_ifaces <= 8` and every callback keeps it; a failed one stores -1, where the
next successful enumeration appends (`table_bounds_iff`).
-/

namespace NetMon.Net

open NetMon.Lib NetMon.Core

def TableOk (s : NetState) : Prop := 0 ≤ s.numIfaces ∧ s.numIfaces ≤ appMaxInterfaces

/-- A slot of the table. -/
def InTable (i : Int) : Prop := 0 ≤ i ∧ i < appMaxInterfaces

instance (i : Int) : Decidable (InTable i) :=
  inferInstanceAs (Decidable (0 ≤ i ∧ i < appMaxInterfaces))

theorem SameTable.tableOk {s s' : NetState} (h : SameTable s s') (hs : TableOk s) :
    TableOk s' := by
  unfold TableOk
  rw [h.numIfaces]
  exact hs

theorem inTable_of_range {n : Nat} (hn : (n : Int) ≤ appMaxInterfaces) :
    ∀ i ∈ (List.range n).map (Nat.cast : Nat → Int), InTable i := by
  intro i hi
  obtain ⟨k, hk, rfl⟩ := List.mem_map.mp hi
  rw [List.mem_range] at hk
  exact ⟨by omega, by omega⟩

theorem inTable_of_rows {s : NetState} (hs : TableOk s) :
    ∀ i ∈ (List.range s.numIfaces.toNat).map (Nat.cast : Nat → Int), InTable i := by
  obtain ⟨h0, h8⟩ := hs
  exact inTable_of_range (by omega)

/-- A lookup stays inside the rows. -/
theorem scanned_inTable {s : NetState} (hs : TableOk s) (name : IfaceName) :
    ∀ i ∈ scanned s name, InTable i := by
  unfold scanned
  split
  · next k hk =>
    have hlt := (NetState.findIface_eq_some.mp hk).1
    have h8 := hs.2
    exact inTable_of_range (by omega)
  · exact inTable_of_rows hs

/-! ## The merge of a slow tick -/

theorem mergeIface_tableOk {s : NetState} (hs : TableOk s) (info : NetIfaceInfo) :
    TableOk (mergeIface s info) := by
  unfold mergeIface
  split
  · exact hs
  · by_cases h : s.numIfaces < appMaxInterfaces
    · rw [if_pos h]
      have h0 := hs.1
      exact ⟨show 0 ≤ s.numIfaces + 1 by omega, show s.numIfaces + 1 ≤ _ by omega⟩
    · rw [if_neg h]
      exact hs

theorem mergeLoop_inTable {s : NetState} (hs : TableOk s) (info : NetIfaceInfo) :
    ∀ i ∈ mergeLoop.out s info, InTable i := by
  intro i hi
  rcases List.mem_append.mp hi with hi | hi
  · exact scanned_inTable hs info.name i hi
  · by_cases h : s.findIface info.name = none ∧ s.numIfaces < appMaxInterfaces
    · rw [if_pos h] at hi
      rw [List.mem_singleton.mp hi]
      exact ⟨hs.1, h.2⟩
    · rw [if_neg h] at hi
      cases hi

theorem slowTimerCb_numIfaces (c : Collector) (i : SlowInput) :
    (slowTimerCb c i).state.numIfaces = (mergeLoop.exec c.state i.listed).numIfaces := by
  obtain ⟨tick, wan, hslow⟩ := slowTimerCb_frame c i
  rw [hslow]

/-! ## The callbacks -/

theorem step_tableOk (c : Collector) (t : Tick) (hc : TableOk c.state) :
    TableOk (collector.step c t).state := by
  cases t with
  | fast f => exact (fastTimerCb_sameTable c f).tableOk hc
  | medium m => exact (mediumTimerCb_sameTable c m).tableOk hc
  | slow i =>
    have hmerge : TableOk (mergeLoop.exec c.state i.listed) :=
      mergeLoop.exec_inv (P := TableOk) (fun s info hs => mergeIface_tableOk hs info) hc i.listed
    show TableOk (slowTimerCb c i).state
    unfold TableOk
    rw [slowTimerCb_numIfaces]
    exact hmerge

theorem out_inTable (c : Collector) (t : Tick) (hc : TableOk c.state) :
    ∀ i ∈ collector.out c t, InTable i := by
  cases t with
  | fast f => intro i hi; cases hi
  | medium m => intro i hi; cases hi
  | slow i =>
    exact mergeLoop.trace_inv (fun s info hs => mergeIface_tableOk hs info)
      (fun s info hs => mergeLoop_inTable hs info) hc i.listed

/-! ## The start -/

theorem netCollectorInit_sameTable (cfg : Config) (b : BootInput) :
    SameTable (initIfaces b (loadInfraConfig cfg NetState.zero)) (netCollectorInit cfg b).state :=
  SameTable.foldl storeStats_sameTable _ _

theorem netCollectorInit_numIfaces (cfg : Config) (b : BootInput) :
    (netCollectorInit cfg b).state.numIfaces = b.count :=
  (netCollectorInit_sameTable cfg b).numIfaces

/-- The start stores a count in bounds exactly when its enumeration succeeds. -/
theorem init_tableOk_iff (cfg : Config) (b : BootInput) :
    TableOk (netCollectorInit cfg b).state ↔ b.ifconf.isSome := by
  unfold TableOk
  rw [netCollectorInit_numIfaces]
  unfold BootInput.count
  cases hb : b.ifconf with
  | none => simp [netEnumerateInterfaces]
  | some reqs =>
    have hlist : netEnumerateInterfaces (some reqs) appMaxInterfaces = some _ := rfl
    have hlen := netEnumerateInterfaces_length hlist
    simp only [Option.isSome_some, iff_true]
    exact ⟨Int.natCast_nonneg _, Int.ofNat_le.mpr hlen⟩

theorem initAccesses_inTable (cfg : Config) (b : BootInput)
    (h : TableOk (netCollectorInit cfg b).state) : ∀ i ∈ initAccesses cfg b, InTable i := by
  have hs : TableOk (initIfaces b (loadInfraConfig cfg NetState.zero)) := by
    unfold TableOk at h ⊢
    rwa [(netCollectorInit_sameTable cfg b).numIfaces] at h
  have hlen : (((netEnumerateInterfaces b.ifconf appMaxInterfaces).getD []).length : Int) ≤
      appMaxInterfaces := by
    cases he : netEnumerateInterfaces b.ifconf appMaxInterfaces with
    | none => exact Int.natCast_nonneg _
    | some list => exact Int.ofNat_le.mpr (netEnumerateInterfaces_length he)
  intro i hi
  unfold initAccesses at hi
  simp only [List.mem_append] at hi
  rcases hi with (hi | hi) | hi
  · exact inTable_of_range hlen i hi
  · split at hi
    · exact inTable_of_rows hs i hi
    · cases hi
  · obtain ⟨st, _, hi⟩ := List.mem_flatMap.mp hi
    exact scanned_inTable hs st.name i hi

/-- **The table's bounds.** Through every run `num_ifaces` stays within the table and the
start and the slow callback touch its slots alone, exactly when the enumeration at the
start succeeded. -/
theorem table_bounds_iff (cfg : Config) (b : BootInput) (ticks : List Tick) :
    (TableOk (netCollectorInit cfg b).state ∧
      collector.After (fun c => TableOk c.state) (netCollectorInit cfg b) ticks ∧
      ∀ i ∈ initAccesses cfg b ++ collector.trace (netCollectorInit cfg b) ticks, InTable i) ↔
    b.ifconf.isSome := by
  rw [← init_tableOk_iff cfg b]
  refine ⟨fun h => h.1, fun h => ⟨h, ?_, fun i hi => ?_⟩⟩
  · exact collector.after_of_inv step_tableOk h ticks
  · rcases List.mem_append.mp hi with hi | hi
    · exact initAccesses_inTable cfg b h i hi
    · exact collector.trace_inv (P := fun c => TableOk c.state) step_tableOk out_inTable h ticks
        i hi

/-- Started while no socket could be opened, the collector appends the first interface it
is told of in front of the table. -/
theorem failed_start_writes_below : ¬ ∀ i ∈ collector.trace
    (netCollectorInit Config.empty ⟨none, none, ⟨0, 0⟩⟩)
    [.slow ⟨some [ifReqNamed "eth0"], (true, 1), default, id⟩], InTable i := by
  decide +kernel

end NetMon.Net
