import Mathlib.Data.List.Nodup
import NetMon.Net.Bounds
import NetMon.Net.Rates

/-!
# The names in the interface table

The slow callback updates the row of a listed name and appends a row only for a name that
has none, so it keeps the names distinct (`mergeIface_distinct`). `net_collector_init`
copies what the kernel lists, and `SIOCGIFCONF` lists an interface once per address
(`uniqueNames_iff_boot`).
-/

namespace NetMon.Net

open NetMon.Lib NetMon.Core

/-- The names of the rows in use. -/
def NetState.names (s : NetState) : List IfaceName := s.rows.map (·.info.name)

/-- No two rows have one name, and a lookup of a row's name finds that row. -/
structure UniqueNames (s : NetState) : Prop where
  distinct : s.names.Nodup
  found : ∀ k : Nat, (k : Int) < s.numIfaces → s.findIface (s.ifaces k).info.name = some k

/-- The names the start's enumeration goes through: the first eight entries of the answer
that are not `lo`. -/
def BootInput.names (b : BootInput) : List IfaceName :=
  (((b.ifconf.getD []).filter fun r => r.name.str ≠ CStr.lit "lo").take appMaxInterfaces).map
    (·.name)

theorem NetState.names_eq (s : NetState) :
    s.names = (List.range s.numIfaces.toNat).map fun i : Nat => (s.ifaces i).info.name := by
  rw [names, rows, List.map_map]
  rfl

/-- Rows of one name are one row. -/
def DistinctRows (s : NetState) : Prop := ∀ i j : Nat, (i : Int) < s.numIfaces →
  (j : Int) < s.numIfaces → (s.ifaces i).info.name = (s.ifaces j).info.name → i = j

theorem names_nodup {s : NetState} : s.names.Nodup ↔ DistinctRows s := by
  rw [NetState.names_eq, List.nodup_map_iff_inj_on List.nodup_range]
  simp only [List.mem_range, Int.lt_toNat]
  exact ⟨fun h i j hi hj => h i hi j hj, fun h i hi j hj => h i j hi hj⟩

theorem uniqueNames_iff {s : NetState} : UniqueNames s ↔ DistinctRows s := by
  refine ⟨fun h => names_nodup.mp h.distinct, fun h => ⟨names_nodup.mpr h, fun k hk => ?_⟩⟩
  refine NetState.findIface_eq_some.mpr ⟨hk, rfl, fun j hj heq => ?_⟩
  exact absurd (h j k (by omega) hk heq) (Nat.ne_of_lt hj)

theorem SameTable.names {s s' : NetState} (h : SameTable s s') : s'.names = s.names := by
  rw [NetState.names_eq, NetState.names_eq, h.numIfaces]
  simp only [h.info]

/-! ## The merge of a slow tick -/

theorem mergeIface_found {s : NetState} {info : NetIfaceInfo} {j : Nat}
    (h : s.findIface info.name = some j) :
    mergeIface s info = s.setIface j fun st => { st with info := info } := by
  unfold mergeIface
  rw [h]

theorem mergeIface_full {s : NetState} {info : NetIfaceInfo} (h : s.findIface info.name = none)
    (hfull : ¬ s.numIfaces < appMaxInterfaces) : mergeIface s info = s := by
  unfold mergeIface
  rw [h]
  exact if_neg hfull

theorem mergeIface_added {s : NetState} {info : NetIfaceInfo} (h : s.findIface info.name = none)
    (hroom : s.numIfaces < appMaxInterfaces) : (mergeIface s info).numIfaces = s.numIfaces + 1 ∧
      (mergeIface s info).ifaces = Function.update s.ifaces s.numIfaces
        { (default : NetIfaceState) with info := info } := by
  unfold mergeIface
  rw [h]
  simp only [if_pos hroom, NetState.setIface, true_and]

/-- A row in use keeps its name. -/
theorem mergeIface_name (s : NetState) (info : NetIfaceInfo) {k : Int} (hk : k < s.numIfaces) :
    ((mergeIface s info).ifaces k).info.name = (s.ifaces k).info.name := by
  cases hfind : s.findIface info.name with
  | some j =>
    rw [mergeIface_found hfind]
    rcases eq_or_ne k j with rfl | hne
    · rw [NetState.setIface_self]
      exact (NetState.findIface_eq_some.mp hfind).2.1.symm
    · rw [NetState.setIface_of_ne hne]
  | none =>
    by_cases hroom : s.numIfaces < appMaxInterfaces
    · rw [(mergeIface_added hfind hroom).2, Function.update_of_ne (by omega)]
    · rw [mergeIface_full hfind hroom]

/-- What is appended was not found among the rows before it. -/
theorem mergeIface_distinct {s : NetState} (hs : DistinctRows s) (info : NetIfaceInfo) :
    DistinctRows (mergeIface s info) := by
  intro i j hi hj heq
  by_cases hold : (mergeIface s info).numIfaces = s.numIfaces
  · rw [hold] at hi hj
    rw [mergeIface_name s info hi, mergeIface_name s info hj] at heq
    exact hs i j hi hj heq
  · have hnone : s.findIface info.name = none := by
      by_contra hsome
      obtain ⟨k, hk⟩ := Option.ne_none_iff_exists'.mp hsome
      exact hold (by rw [mergeIface_found hk]; rfl)
    have hroom : s.numIfaces < appMaxInterfaces := by
      by_contra hfull
      exact hold (by rw [mergeIface_full hnone hfull])
    have hnew : ((mergeIface s info).ifaces s.numIfaces).info.name = info.name := by
      rw [(mergeIface_added hnone hroom).2, Function.update_self]
    have hfresh := search_eq_none (f := fun k : Nat => (s.ifaces k).info.name).mp hnone
    rw [(mergeIface_added hnone hroom).1] at hi hj
    rcases lt_or_eq_of_le (Int.lt_add_one_iff.mp hi) with hi' | hi' <;>
      rcases lt_or_eq_of_le (Int.lt_add_one_iff.mp hj) with hj' | hj'
    · rw [mergeIface_name s info hi', mergeIface_name s info hj'] at heq
      exact hs i j hi' hj' heq
    · rw [mergeIface_name s info hi', hj', hnew] at heq
      exact absurd heq (hfresh i hi')
    · rw [mergeIface_name s info hj', hi', hnew] at heq
      exact absurd heq.symm (hfresh j hj')
    · omega

/-! ## Runs -/

theorem slowTimerCb_names (c : Collector) (i : SlowInput) :
    (slowTimerCb c i).state.names = (mergeLoop.exec c.state i.listed).names := by
  obtain ⟨tick, wan, hslow⟩ := slowTimerCb_frame c i
  rw [hslow]
  rfl

/-- The callbacks keep the names distinct. -/
theorem step_uniqueNames (c : Collector) (t : Tick) (hc : UniqueNames c.state) :
    UniqueNames (collector.step c t).state := by
  rw [uniqueNames_iff, ← names_nodup] at hc ⊢
  cases t with
  | fast f => exact (fastTimerCb_sameTable c f).names ▸ hc
  | medium m => exact (mediumTimerCb_sameTable c m).names ▸ hc
  | slow i =>
    show (slowTimerCb c i).state.names.Nodup
    rw [slowTimerCb_names, names_nodup]
    exact mergeLoop.exec_inv (P := DistinctRows) (fun s info hs => mergeIface_distinct hs info)
      (names_nodup.mp hc) i.listed

/-- The start copies the names it is told. -/
theorem netCollectorInit_names (cfg : Config) (b : BootInput) :
    (netCollectorInit cfg b).state.names = b.names := by
  rw [(netCollectorInit_sameTable cfg b).names, NetState.names_eq]
  unfold initIfaces BootInput.count BootInput.names netEnumerateInterfaces
  cases b.ifconf with
  | none => rfl
  | some reqs =>
    simp only [Option.map_some, Option.getD_some, Int.toNat_natCast, List.length_map]
    generalize (reqs.filter fun r => decide (r.name.str ≠ CStr.lit "lo")).take appMaxInterfaces = l
    apply List.ext_getElem (by simp)
    intro i h1 h2
    rw [List.length_map, List.length_range] at h1
    simp [h1, IfReq.info]

/-- **The names stay distinct.** From the start on no two rows ever have one name, and every
lookup finds the only row of its interface, exactly when the enumeration at the start goes
through no name twice. -/
theorem uniqueNames_iff_boot (cfg : Config) (b : BootInput) (ticks : List Tick) :
    (UniqueNames (netCollectorInit cfg b).state ∧
      collector.After (fun c => UniqueNames c.state) (netCollectorInit cfg b) ticks) ↔
    b.names.Nodup := by
  rw [← netCollectorInit_names cfg b]
  constructor
  · exact fun h => h.1.distinct
  · intro h
    have hinit : UniqueNames (netCollectorInit cfg b).state :=
      uniqueNames_iff.mpr (names_nodup.mp h)
    exact ⟨hinit, collector.after_of_inv step_uniqueNames hinit ticks⟩

/-- An interface with two addresses takes two rows, and no lookup finds the second. -/
theorem twoAddresses_two_rows :
    let s := (netCollectorInit Config.empty (bootWith ["eth0", "eth0"])).state
    s.numIfaces = 2 ∧ s.findIface (s.ifaces 1).info.name = some 0 ∧ ¬ UniqueNames s := by
  have hfind : (netCollectorInit Config.empty (bootWith ["eth0", "eth0"])).state.findIface
      ((netCollectorInit Config.empty (bootWith ["eth0", "eth0"])).state.ifaces 1).info.name =
        some 0 := by decide +kernel
  refine ⟨by decide +kernel, hfind, fun h => ?_⟩
  have := h.found 1 (by decide +kernel)
  rw [Nat.cast_one, hfind] at this
  exact absurd this (by decide)

end NetMon.Net
