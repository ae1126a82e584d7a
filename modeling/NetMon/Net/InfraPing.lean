import NetMon.Lib.RoundRobin
import NetMon.Lib.RunLength
import NetMon.Net.Infra

/-!
# The infrastructure pings

The medium callback pings one device of the table, the next enabled one behind the last it
pinged. Its search is a round of `Lib.RoundRobin` (`pingInfra_search`), no other callback moves
the index or changes the table (`step_cycles`), so any window with as many medium ticks as there
are enabled devices pings each of them once (`infraPings_fair`).
-/

namespace NetMon.Net

open NetMon.Lib NetMon.Lib.RoundRobin NetMon.Core

/-- The device the search stops at. -/
def pingedDevice : Nat → Collector → Option Int
  | 0, _ => none
  | attempts + 1, c =>
    let idx := c.infraPingIdx.tmod c.state.numInfra
    let c := { c with infraPingIdx := (c.infraPingIdx + 1).tmod c.state.numInfra }
    if (c.state.infra idx).enabled then some idx else pingedDevice attempts c

/-- The collector under its timers; it emits the devices it pings and whether they answer. -/
def infraPings : Machine Collector Tick (Int × Bool) where
  step := collector.step
  out c t :=
    match t with
    | .medium m =>
      let c := { c with state := probeNetwork m c.state }
      ((pingedDevice c.state.numInfra.toNat c).map fun idx => (idx, m.infra.1)).toList
    | _ => []

def enabledAt (s : NetState) (i : Nat) : Bool := (s.infra i).enabled

/-- The enabled devices of the table. -/
def enabledDevices (s : NetState) : List Int :=
  (places s.numInfra.toNat (enabledAt s)).map Nat.cast

/-- The answers of one device, a failed ping being `true`. -/
def failures (d : Int) (pings : List (Int × Bool)) : List Bool :=
  (pings.filter fun p => p.1 = d).map fun p => !p.2

/-- What a run pings, and what it counts. -/
structure FairPings (c : Collector) (ticks : List Tick) : Prop where
  /-- A medium tick pings one device, an enabled one. -/
  one : enabledDevices c.state ≠ [] →
    infraPings.Along (fun c' t => t.isMedium →
      ∃ d ∈ enabledDevices c.state, ∃ ok, infraPings.out c' t = [(d, ok)]) c ticks
  /-- A window with as many medium ticks as there are enabled devices pings each of them once. -/
  each : ∀ pre window post, ticks = pre ++ window ++ post →
    window.countP Tick.isMedium = (enabledDevices c.state).length →
      ((infraPings.trace (infraPings.exec c pre) window).map Prod.fst).Perm (enabledDevices c.state)
  /-- With no enabled device nothing is pinged, after one look at each. -/
  none : enabledDevices c.state = [] → infraPings.trace c ticks = [] ∧
    infraPings.Along (fun c' t => ∀ m, t = .medium m →
      (mediumAccesses c' m).length = c.state.numInfra.toNat) c ticks
  /-- The counters are the failed pings since the last answer, `past` being the answers
  before. -/
  fails : ∀ past : Int → List Bool,
    (∀ d, (c.state.infra d).consecutiveFails = runLength (past d)) →
      ∀ d, ((infraPings.exec c ticks).state.infra d).consecutiveFails =
        runLength (past d ++ failures d (infraPings.trace c ticks))

/-! ## One search -/

/-- The search for a device is a round over the table. -/
theorem pingInfra_search (answer : Bool × ℚ) {attempts : Nat} {c : Collector}
    (hidx : 0 ≤ c.infraPingIdx) (hattempts : attempts ≤ c.state.numInfra.toNat) :
    pingedDevice attempts c = (search c.state.numInfra.toNat (enabledAt c.state) attempts
        c.infraPingIdx.toNat).1.map Nat.cast ∧
      (pingInfra answer attempts c).infraPingIdx = (search c.state.numInfra.toNat
        (enabledAt c.state) attempts c.infraPingIdx.toNat).2 := by
  induction attempts generalizing c with
  | zero => exact ⟨rfl, (Int.toNat_of_nonneg hidx).symm⟩
  | succ a ih =>
    obtain ⟨k, hk⟩ := Int.eq_ofNat_of_zero_le hidx
    obtain ⟨n, hn⟩ := Int.eq_ofNat_of_zero_le (show 0 ≤ c.state.numInfra by omega)
    have hmod : c.infraPingIdx.tmod c.state.numInfra = (k % n : Nat) := by
      rw [hk, hn, Int.ofNat_tmod]
    have hnext : (c.infraPingIdx + 1).tmod c.state.numInfra = ((k + 1) % n : Nat) := by
      rw [hk, hn, ← Int.natCast_succ, Int.ofNat_tmod]
    have hcursor : search c.state.numInfra.toNat (enabledAt c.state) (a + 1)
        c.infraPingIdx.toNat =
          if (c.state.infra (k % n : Nat)).enabled then (some (k % n), (k + 1) % n)
          else search n (enabledAt c.state) a ((k + 1) % n) := by
      rw [hk, hn]
      rfl
    have hrest := ih (c := { c with infraPingIdx := ((k + 1) % n : Nat) }) (Int.natCast_nonneg _)
      (show a ≤ c.state.numInfra.toNat by omega)
    rw [show c.state.numInfra.toNat = n by omega] at hrest
    unfold pingedDevice pingInfra
    rw [hcursor]
    simp only [hmod, hnext]
    split
    · exact ⟨rfl, rfl⟩
    · exact hrest

/-- What the search leaves of the table. -/
theorem pingInfra_state (answer : Bool × ℚ) (attempts : Nat) (c : Collector) :
    (pingInfra answer attempts c).state.numInfra = c.state.numInfra ∧
      ∀ d, ((pingInfra answer attempts c).state.infra d).enabled = (c.state.infra d).enabled ∧
        ((pingInfra answer attempts c).state.infra d).consecutiveFails =
          if pingedDevice attempts c = some d then
            if answer.1 then 0 else (c.state.infra d).consecutiveFails + 1
          else (c.state.infra d).consecutiveFails := by
  induction attempts generalizing c with
  | zero => exact ⟨rfl, fun d => ⟨rfl, rfl⟩⟩
  | succ a ih =>
    unfold pingedDevice pingInfra
    simp only
    split
    · refine ⟨rfl, fun d => ?_⟩
      by_cases hd : c.infraPingIdx.tmod c.state.numInfra = d
      · subst hd
        simp [Function.update_self]
      · have hd' : d ≠ c.infraPingIdx.tmod c.state.numInfra := fun h => hd h.symm
        simp [Function.update_of_ne hd', hd]
    · exact ih _

/-- With no enabled device the search looks at as many slots as it may. -/
theorem pingInfraAccesses_length {attempts : Nat} {c : Collector}
    (h : pingedDevice attempts c = none) : (pingInfraAccesses attempts c).length = attempts := by
  induction attempts generalizing c with
  | zero => rfl
  | succ a ih =>
    unfold pingedDevice at h
    unfold pingInfraAccesses
    simp only at h ⊢
    split at h
    · cases h
    · rename_i hoff
      rw [if_neg hoff, List.length_cons, ih h]

/-! ## The ticks -/

section Ticks

variable {n : Nat} {en : Nat → Bool}

/-- The collector goes round a table of `n` devices with this pattern. -/
structure Cycles (n : Nat) (en : Nat → Bool) (c : Collector) : Prop where
  count : c.state.numInfra.toNat = n
  pattern : enabledAt c.state = en
  pingIdx : 0 ≤ c.infraPingIdx

theorem Cycles.devices {c : Collector} (hc : Cycles n en c) :
    enabledDevices c.state = (places n en).map Nat.cast := by
  rw [enabledDevices, hc.count, hc.pattern]

theorem KeepsInfra.cycles {c c' : Collector} (h : KeepsInfra c c') (hc : Cycles n en c) :
    Cycles n en c' := by
  refine ⟨by rw [h.same.numInfra, hc.count], ?_, hc.pingIdx.trans_eq h.pingIdx.symm⟩
  rw [← hc.pattern]
  unfold enabledAt
  rw [h.same.infra]

/-- A medium tick is a round of the index. -/
theorem mediumTimerCb_cycles {c : Collector} (hc : Cycles n en c) (m : MediumInput) :
    infraPings.out c (.medium m) =
        ((search n en n c.infraPingIdx.toNat).1.map fun i : Nat => ((i : Int), m.infra.1)).toList ∧
      (mediumTimerCb c m).infraPingIdx = (search n en n c.infraPingIdx.toNat).2 ∧
      Cycles n en (mediumTimerCb c m) := by
  have hprobe := probeNetwork_sameInfra m c.state
  have hc' : Cycles n en { c with state := probeNetwork m c.state } :=
    KeepsInfra.cycles ⟨hprobe, rfl, rfl⟩ hc
  obtain ⟨hpinged, hidx⟩ := pingInfra_search m.infra hc'.pingIdx
    (Nat.le_refl (probeNetwork m c.state).numInfra.toNat)
  obtain ⟨hcount, hdevices⟩ := pingInfra_state m.infra (probeNetwork m c.state).numInfra.toNat
    { c with state := probeNetwork m c.state }
  rw [hc'.pattern, hc'.count] at hpinged hidx
  rw [hc'.count] at hcount hdevices
  have hstep : (mediumTimerCb c m).infraPingIdx = (search n en n c.infraPingIdx.toNat).2 := by
    rw [← hidx, ← hc'.count]
    rfl
  refine ⟨?_, hstep, ?_, ?_, hstep ▸ Int.natCast_nonneg _⟩
  · unfold infraPings
    simp only
    rw [hc'.count, hpinged, Option.map_map]
    rfl
  · unfold mediumTimerCb
    simp only
    rw [hc'.count, hcount, hc'.count]
  · rw [← hc'.pattern]
    funext i
    unfold enabledAt mediumTimerCb
    simp only
    rw [hc'.count, (hdevices i).1]

/-- A tick that is not a medium one pings nothing and leaves the index where it is. -/
theorem step_quiet {c : Collector} {t : Tick} (ht : t.isMedium = false) :
    infraPings.out c t = [] ∧ KeepsInfra c (collector.step c t) := by
  cases t with
  | fast f => exact ⟨rfl, fastTimerCb_keeps c f⟩
  | medium m => cases ht
  | slow i => exact ⟨rfl, slowTimerCb_keeps c i⟩

theorem step_cycles (c : Collector) (t : Tick) (hc : Cycles n en c) :
    Cycles n en (infraPings.step c t) := by
  cases ht : t.isMedium with
  | false => exact (step_quiet ht).2.cycles hc
  | true =>
    cases t with
    | medium m => exact (mediumTimerCb_cycles hc m).2.2
    | _ => cases ht

/-- The devices a run pings are the places as many rounds stop at. -/
theorem infraPings_trace {c : Collector} (hc : Cycles n en c) (ticks : List Tick) :
    (infraPings.trace c ticks).map Prod.fst = ((rounds n en).trace c.infraPingIdx.toNat
      ((ticks.filter Tick.isMedium).map fun _ => ())).map Nat.cast := by
  induction ticks generalizing c with
  | nil => rfl
  | cons t ticks ih =>
    have hrest := ih (step_cycles c t hc)
    rw [Machine.trace_cons, List.map_append, hrest]
    cases ht : t.isMedium with
    | false =>
      obtain ⟨hout, hkeeps⟩ := step_quiet (c := c) ht
      have hidx : (infraPings.step c t).infraPingIdx = c.infraPingIdx := hkeeps.pingIdx
      rw [hout, hidx, List.filter_cons_of_neg (by simp [ht])]
      rfl
    | true =>
      cases t with
      | medium m =>
        obtain ⟨hout, hidx, -⟩ := mediumTimerCb_cycles hc m
        have hidx' : (infraPings.step c (.medium m)).infraPingIdx.toNat =
            (search n en n c.infraPingIdx.toNat).2 := by
          rw [← Int.toNat_natCast (search n en n c.infraPingIdx.toNat).2, ← hidx]
          rfl
        rw [hout, hidx', List.filter_cons_of_pos ht, List.map_cons, Machine.trace_cons,
          List.map_append]
        show _ = (search n en n c.infraPingIdx.toNat).1.toList.map Nat.cast ++ _
        cases (search n en n c.infraPingIdx.toNat).1 <;> rfl
      | _ => cases ht

/-- With an enabled device a medium tick pings one of them. -/
theorem out_of_enabled {c : Collector} (hc : Cycles n en c) (h : places n en ≠ []) {t : Tick}
    (ht : t.isMedium) :
    ∃ d ∈ (places n en).map (Nat.cast : Nat → Int), ∃ ok, infraPings.out c t = [(d, ok)] := by
  cases t with
  | medium m =>
    obtain ⟨p, hp, hstop⟩ := search_enabled (k := c.infraPingIdx.toNat) h
    refine ⟨p, List.mem_map_of_mem hp, m.infra.1, ?_⟩
    rw [(mediumTimerCb_cycles hc m).1, hstop]
    rfl
  | _ => cases ht

/-- With none it pings nothing. -/
theorem out_of_disabled {c : Collector} (hc : Cycles n en c) (h : places n en = []) (t : Tick) :
    infraPings.out c t = [] := by
  cases ht : t.isMedium with
  | false => exact (step_quiet ht).1
  | true =>
    cases t with
    | medium m =>
      rw [(mediumTimerCb_cycles hc m).1, search_of_none h]
      rfl
    | _ => cases ht

theorem mediumAccesses_length {c : Collector} (hc : Cycles n en c) (h : places n en = [])
    (m : MediumInput) : (mediumAccesses c m).length = n := by
  have hnone : pingedDevice (probeNetwork m c.state).numInfra.toNat
      { c with state := probeNetwork m c.state } = none := by
    have hout := out_of_disabled hc h (.medium m)
    unfold infraPings at hout
    simpa using hout
  rw [← hc.count, ← (probeNetwork_sameInfra m c.state).numInfra]
  exact pingInfraAccesses_length hnone

/-! ## The counters -/

@[simp] theorem failures_nil (d : Int) : failures d [] = [] := rfl

theorem failures_singleton (d i : Int) (ok : Bool) :
    failures d [(i, ok)] = if i = d then [!ok] else [] := by
  unfold failures
  rw [List.filter_singleton]
  by_cases hi : i = d <;> simp [hi]

theorem failures_append (d : Int) (a b : List (Int × Bool)) :
    failures d (a ++ b) = failures d a ++ failures d b := by
  rw [failures, List.filter_append, List.map_append]
  rfl

/-- A tick counts its ping. -/
theorem step_fails {c : Collector} {past : Int → List Bool} (t : Tick)
    (h : ∀ d, (c.state.infra d).consecutiveFails = runLength (past d)) (d : Int) :
    ((infraPings.step c t).state.infra d).consecutiveFails =
      runLength (past d ++ failures d (infraPings.out c t)) := by
  cases ht : t.isMedium with
  | false =>
    obtain ⟨hout, hkeeps⟩ := step_quiet (c := c) ht
    have hsame : (infraPings.step c t).state.infra = c.state.infra := hkeeps.same.infra
    rw [hout, hsame, h d]
    exact congrArg _ (congrArg _ (List.append_nil _).symm)
  | true =>
    cases t with
    | medium m =>
      have hfails := ((pingInfra_state m.infra (probeNetwork m c.state).numInfra.toNat
        { c with state := probeNetwork m c.state }).2 d).2
      have hstep : ((infraPings.step c (.medium m)).state.infra d).consecutiveFails = _ := hfails
      rw [hstep, show (probeNetwork m c.state).infra = c.state.infra from
        (probeNetwork_sameInfra m c.state).infra, h d]
      unfold infraPings
      simp only
      cases pingedDevice (probeNetwork m c.state).numInfra.toNat
        { c with state := probeNetwork m c.state } with
      | none =>
        rw [if_neg nofun, Option.map_none, Option.toList_none, failures_nil, List.append_nil]
      | some i =>
        rw [Option.map_some, Option.toList_some, failures_singleton]
        by_cases hi : i = d
        · rw [if_pos (congrArg some hi), if_pos hi, runLength_concat]
          cases m.infra.1 <;> simp
        · rw [if_neg (fun h => hi (Option.some.inj h)), if_neg hi, List.append_nil]
    | _ => cases ht

theorem infraPings_fails {c : Collector} {past : Int → List Bool}
    (h : ∀ d, (c.state.infra d).consecutiveFails = runLength (past d)) (ticks : List Tick)
    (d : Int) : ((infraPings.exec c ticks).state.infra d).consecutiveFails =
      runLength (past d ++ failures d (infraPings.trace c ticks)) := by
  induction ticks generalizing c past with
  | nil => rw [Machine.trace_nil, failures_nil, List.append_nil, ← h d]; rfl
  | cons t ticks ih =>
    have hnext : ∀ d, ((infraPings.step c t).state.infra d).consecutiveFails =
        runLength (past d ++ failures d (infraPings.out c t)) := step_fails t h
    rw [Machine.exec_cons, Machine.trace_cons, failures_append, ← List.append_assoc, ih hnext]

/-! ## Whole runs -/

/-- From any index that is not negative the pings are fair, whatever the size of the table and
the pattern. -/
theorem infraPings_fair (c : Collector) (hidx : 0 ≤ c.infraPingIdx) (ticks : List Tick) :
    FairPings c ticks := by
  have hc : Cycles c.state.numInfra.toNat (enabledAt c.state) c := ⟨rfl, rfl, hidx⟩
  refine ⟨fun hsome => ?_, fun pre window post _ hwindow => ?_, fun hoff => ?_,
    fun past h => infraPings_fails h ticks⟩
  · rw [hc.devices] at hsome ⊢
    rw [Ne, List.map_eq_nil_iff] at hsome
    exact infraPings.along_of_inv step_cycles (fun c' t hc' => out_of_enabled hc' hsome) hc ticks
  · have hc' := infraPings.exec_inv step_cycles hc pre
    rw [infraPings_trace hc' window, hc.devices]
    refine (rounds_trace_perm ?_).map _
    rw [List.length_map, ← List.countP_eq_length_filter, hwindow, hc.devices, List.length_map]
  · rw [hc.devices, List.map_eq_nil_iff] at hoff
    refine ⟨List.eq_nil_iff_forall_not_mem.mpr fun o => ?_, ?_⟩
    · refine infraPings.trace_inv (Q := fun _ => False) step_cycles (fun c' t hc' o ho => ?_) hc
        ticks o
      rw [out_of_disabled hc' hoff t] at ho
      cases ho
    · exact infraPings.along_of_inv step_cycles
        (fun c' t hc' m _ => mediumAccesses_length hc' hoff m) hc ticks

end Ticks

/-- Three devices, the one in the middle disabled, and an index beyond them. -/
def twoOfThree : Collector :=
  let c := netCollectorInit Config.empty ⟨none, none, default⟩
  { c with
    infraPingIdx := 7
    state := { c.state with
      numInfra := 3
      infra := fun i => { (default : InfraDevice) with enabled := i ≠ 1 } } }

/-- An answered ping. -/
def answered : MediumInput := ⟨(true, 1), fun _ => default, (true, 1), 0⟩

/-- Two medium ticks ping both enabled devices. -/
theorem twoOfThree_fair : 0 ≤ twoOfThree.infraPingIdx ∧
    ((infraPings.trace twoOfThree [.medium answered, .medium answered]).map Prod.fst).Perm [0, 2] :=
  ⟨by decide, (infraPings_fair twoOfThree (by decide) [.medium answered, .medium answered]).each
    [] _ [] rfl (by decide)⟩

end NetMon.Net
