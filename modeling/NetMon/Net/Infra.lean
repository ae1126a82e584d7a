import NetMon.Net.Collector

/-!
# The infrastructure table

`num_infra` is read from the configuration and clamped from above. The start and the
medium callback stay inside the table exactly when the configured number is not negative
(`loadInfraConfig_ok_iff`, `step_infraInv`, `mediumAccesses_inInfra`).
-/

namespace NetMon.Net

open NetMon.Lib NetMon.Core

/-- A slot of the table. -/
def InInfra (i : Int) : Prop := 0 ≤ i ∧ i < appMaxInfraDevices

instance (i : Int) : Decidable (InInfra i) :=
  inferInstanceAs (Decidable (0 ≤ i ∧ i < appMaxInfraDevices))

/-- A number of devices the table has room for. -/
def InfraCountOk (n : Int) : Prop := 0 ≤ n ∧ n ≤ appMaxInfraDevices

instance (n : Int) : Decidable (InfraCountOk n) :=
  inferInstanceAs (Decidable (0 ≤ n ∧ n ≤ appMaxInfraDevices))

/-- What every callback keeps: the ping's index is divided by `num_infra` with the sign of
the dividend. -/
structure InfraInv (c : Collector) : Prop where
  count : InfraCountOk c.state.numInfra
  pingIdx : 0 ≤ c.infraPingIdx

/-! ## What the callbacks touch -/

/-- The slots `load_infra_config` fills. -/
def loadInfraAccesses (cfg : Config) : List Int :=
  (List.range (loadInfraConfig cfg NetState.zero).numInfra.toNat).map Nat.cast

/-- The slots the search for the next enabled device looks at, the last of which it may
write. -/
def pingInfraAccesses : Nat → Collector → List Int
  | 0, _ => []
  | attempts + 1, c =>
    let idx := c.infraPingIdx.tmod c.state.numInfra
    let c := { c with infraPingIdx := (c.infraPingIdx + 1).tmod c.state.numInfra }
    idx :: if (c.state.infra idx).enabled then [] else pingInfraAccesses attempts c

def mediumAccesses (c : Collector) (m : MediumInput) : List Int :=
  let c := { c with state := probeNetwork m c.state }
  pingInfraAccesses c.state.numInfra.toNat c

/-! ## The number of devices -/

theorem inInfra_of_range {n : Int} (hn : InfraCountOk n) :
    ∀ i ∈ (List.range n.toNat).map (Nat.cast : Nat → Int), InInfra i := by
  intro i hi
  obtain ⟨k, hk, rfl⟩ := List.mem_map.mp hi
  rw [List.mem_range] at hk
  have h8 := hn.2
  exact ⟨by omega, by omega⟩

/-- The number is clamped from above alone. -/
theorem loadInfraConfig_ok_iff (cfg : Config) (s : NetState) :
    InfraCountOk (loadInfraConfig cfg s).numInfra ↔
      0 ≤ configGetInt cfg (CStr.lit "infra_count") 0 := by
  show 0 ≤ min _ _ ∧ min _ _ ≤ _ ↔ _
  have h8 : 0 ≤ appMaxInfraDevices := by decide
  rw [le_min_iff, and_iff_left h8]
  exact and_iff_left (min_le_right _ _)

/-- The same devices, in the same number. -/
structure SameInfra (s s' : NetState) : Prop where
  numInfra : s'.numInfra = s.numInfra
  infra : s'.infra = s.infra

theorem SameInfra.foldl {α : Type*} {f : NetState → α → NetState}
    (hf : ∀ s a, SameInfra s (f s a)) (l : List α) (s : NetState) : SameInfra s (l.foldl f s) := by
  induction l generalizing s with
  | nil => exact ⟨rfl, rfl⟩
  | cons a l ih =>
    exact ⟨(ih (f s a)).numInfra.trans (hf s a).numInfra, (ih (f s a)).infra.trans (hf s a).infra⟩

theorem storeStats_sameInfra (s : NetState) (cur : NetStats) : SameInfra s (storeStats s cur) := by
  unfold storeStats
  split <;> exact ⟨rfl, rfl⟩

theorem readWifi_sameInfra (wifi : IfaceName → NetWifiInfo) (s : NetState) (i : Nat) :
    SameInfra s (readWifi wifi s i) := by
  unfold readWifi
  split <;> exact ⟨rfl, rfl⟩

theorem mergeIface_sameInfra (s : NetState) (info : NetIfaceInfo) :
    SameInfra s (mergeIface s info) := by
  unfold mergeIface
  repeat' split
  all_goals exact ⟨rfl, rfl⟩

theorem netCollectorInit_numInfra (cfg : Config) (b : BootInput) :
    (netCollectorInit cfg b).state.numInfra = (loadInfraConfig cfg NetState.zero).numInfra :=
  (SameInfra.foldl storeStats_sameInfra _ _).numInfra

theorem netCollectorInit_infraInv_iff (cfg : Config) (b : BootInput) :
    InfraInv (netCollectorInit cfg b) ↔ 0 ≤ configGetInt cfg (CStr.lit "infra_count") 0 := by
  rw [← loadInfraConfig_ok_iff cfg NetState.zero, ← netCollectorInit_numInfra cfg b]
  exact ⟨fun h => h.count, fun h => ⟨h, le_rfl⟩⟩

/-! ## The callbacks -/

/-- What a callback that pings no device keeps. -/
structure KeepsInfra (c c' : Collector) : Prop where
  same : SameInfra c.state c'.state
  pingIdx : c'.infraPingIdx = c.infraPingIdx
  cfg : c'.cfg = c.cfg

theorem foldl_applySample_keeps (dt : ℚ) (ss : List RateSample) (c : Collector) :
    KeepsInfra c (ss.foldl (applySample dt) c) := by
  induction ss generalizing c with
  | nil => exact ⟨⟨rfl, rfl⟩, rfl, rfl⟩
  | cons s ss ih =>
    obtain ⟨⟨hcount, hinfra⟩, hidx, hcfg⟩ := ih (applySample dt c s)
    exact ⟨⟨hcount, hinfra⟩, hidx, hcfg⟩

theorem fastTimerCb_keeps (c : Collector) (f : FastInput) : KeepsInfra c (fastTimerCb c f) := by
  obtain ⟨up, total, free, available, hsys⟩ := updateSysinfo_frame f c
  obtain ⟨long, rx, tx, n, hlong⟩ := updateLongHistory_frame (computeRates f (updateSysinfo f c))
  have hrates := foldl_applySample_keeps (elapsed f.now (updateSysinfo f c).prevTime)
    (ratesAt (updateSysinfo f c) f) (updateSysinfo f c)
  rw [← computeRates_eq] at hrates
  have hstore := SameInfra.foldl storeStats_sameInfra f.reading
    (updateLongHistory (computeRates f (updateSysinfo f c))).state
  refine ⟨⟨hstore.numInfra.trans ?_, hstore.infra.trans ?_⟩, ?_, ?_⟩
  · rw [hlong]
    exact hrates.same.numInfra.trans (by rw [hsys])
  · rw [hlong]
    exact hrates.same.infra.trans (by rw [hsys])
  · show (updateLongHistory (computeRates f (updateSysinfo f c))).infraPingIdx = _
    rw [hlong]
    exact hrates.pingIdx.trans (by rw [hsys])
  · show (updateLongHistory (computeRates f (updateSysinfo f c))).cfg = _
    rw [hlong]
    exact hrates.cfg.trans (by rw [hsys])

theorem slowTimerCb_keeps (c : Collector) (i : SlowInput) : KeepsInfra c (slowTimerCb c i) := by
  have hmerge : SameInfra c.state (mergeLoop.exec c.state i.listed) :=
    mergeLoop.exec_inv (P := SameInfra c.state)
      (fun s info hs => ⟨(mergeIface_sameInfra s info).numInfra.trans hs.numInfra,
        (mergeIface_sameInfra s info).infra.trans hs.infra⟩) ⟨rfl, rfl⟩ i.listed
  obtain ⟨tick, wan, hslow⟩ := slowTimerCb_frame c i
  rw [hslow]
  exact ⟨⟨hmerge.numInfra, hmerge.infra⟩, rfl, rfl⟩

theorem probeNetwork_sameInfra (m : MediumInput) (s : NetState) :
    SameInfra s (probeNetwork m s) := by
  have hwifi := SameInfra.foldl (readWifi_sameInfra m.wifi) (List.range s.numIfaces.toNat)
    (probeGateway m.gateway s)
  exact ⟨hwifi.numInfra, hwifi.infra⟩

/-- The timers change neither the number of devices nor the configuration. -/
theorem step_keeps (c : Collector) (t : Tick) :
    (collector.step c t).state.numInfra = c.state.numInfra ∧ (collector.step c t).cfg = c.cfg := by
  cases t with
  | fast f => exact ⟨(fastTimerCb_keeps c f).same.numInfra, (fastTimerCb_keeps c f).cfg⟩
  | medium m =>
    obtain ⟨idx, infra, alerts, hmedium⟩ := mediumTimerCb_frame c m
    show (mediumTimerCb c m).state.numInfra = _ ∧ (mediumTimerCb c m).cfg = _
    rw [hmedium]
    exact ⟨(probeNetwork_sameInfra m c.state).numInfra, rfl⟩
  | slow i => exact ⟨(slowTimerCb_keeps c i).same.numInfra, (slowTimerCb_keeps c i).cfg⟩

theorem KeepsInfra.infraInv {c c' : Collector} (h : KeepsInfra c c') (hc : InfraInv c) :
    InfraInv c' :=
  ⟨h.same.numInfra ▸ hc.count, hc.pingIdx.trans_eq h.pingIdx.symm⟩

/-- A turn of the ping's search leaves an index that is not negative. -/
theorem InfraInv.advance {c : Collector} (hc : InfraInv c) :
    InfraInv { c with infraPingIdx := (c.infraPingIdx + 1).tmod c.state.numInfra } :=
  ⟨hc.count, Int.tmod_nonneg _ (Int.le_add_one hc.pingIdx)⟩

theorem pingInfra_infraInv {c : Collector} (hc : InfraInv c) (answer : Bool × ℚ) (n : Nat) :
    InfraInv (pingInfra answer n c) := by
  induction n generalizing c with
  | zero => exact hc
  | succ n ih =>
    unfold pingInfra
    simp only
    split
    · exact ⟨hc.count, hc.advance.pingIdx⟩
    · exact ih hc.advance

theorem probeNetwork_infraInv {c : Collector} (hc : InfraInv c) (m : MediumInput) :
    InfraInv { c with state := probeNetwork m c.state } := by
  refine ⟨?_, hc.pingIdx⟩
  show InfraCountOk (probeNetwork m c.state).numInfra
  rw [(probeNetwork_sameInfra m c.state).numInfra]
  exact hc.count

/-- Every callback keeps the invariant. -/
theorem step_infraInv (c : Collector) (t : Tick) (hc : InfraInv c) :
    InfraInv (collector.step c t) := by
  cases t with
  | fast f => exact (fastTimerCb_keeps c f).infraInv hc
  | medium m =>
    obtain ⟨hcount, hidx⟩ := pingInfra_infraInv (probeNetwork_infraInv hc m) m.infra
      (probeNetwork m c.state).numInfra.toNat
    exact ⟨hcount, hidx⟩
  | slow i => exact (slowTimerCb_keeps c i).infraInv hc

/-- The search runs over as many slots as there are devices, so a modulus is never zero. -/
theorem pingInfraAccesses_inInfra {c : Collector} (hc : InfraInv c) {n : Nat}
    (hn : (n : Int) ≤ c.state.numInfra) : ∀ i ∈ pingInfraAccesses n c, InInfra i := by
  induction n generalizing c with
  | zero =>
    intro i hi
    cases hi
  | succ n ih =>
    have hpos : 0 < c.state.numInfra := by omega
    have hmod : InInfra (c.infraPingIdx.tmod c.state.numInfra) :=
      ⟨Int.tmod_nonneg _ hc.pingIdx, (Int.tmod_lt_of_pos _ hpos).trans_le hc.count.2⟩
    intro i hi
    unfold pingInfraAccesses at hi
    simp only [List.mem_cons] at hi
    rcases hi with rfl | hi
    · exact hmod
    · split at hi
      · cases hi
      · refine ih hc.advance ?_ i hi
        show (n : Int) ≤ c.state.numInfra
        omega

theorem mediumAccesses_inInfra {c : Collector} (hc : InfraInv c) (m : MediumInput) :
    ∀ i ∈ mediumAccesses c m, InInfra i := by
  have hinv := probeNetwork_infraInv hc m
  apply pingInfraAccesses_inInfra hinv
  have h0 := hinv.count.1
  omega

end NetMon.Net
