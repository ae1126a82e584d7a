import NetMon.Core.Debounce
import NetMon.Net.Names

/-!
# Interfaces that vanish

The slow callback goes through the interfaces that are listed, so the row of one that is
not keeps what it says (`mergeLoop_absent`). A row that says "down" is noticed: it stays
`Gone` while no enumeration lists it, and the third check pushes its alert (`gone_alert`).
A row that says "up" stays up (`noticed_iff`).
-/

namespace NetMon.Net

open NetMon.Lib NetMon.Core

/-- The collector when a medium tick calls `alerts_check`. -/
def beforeCheck (c : Collector) (m : MediumInput) : Collector :=
  let c := { c with state := probeNetwork m c.state }
  pingInfra m.infra c.state.numInfra.toNat c

/-- What a medium tick's check does and pushes. -/
def mediumCheck (c : Collector) (m : MediumInput) : Sweep :=
  alertsCheck (beforeCheck c m).alerts (beforeCheck c m).state m.now

theorem mediumTimerCb_eq (c : Collector) (m : MediumInput) :
    mediumTimerCb c m = { beforeCheck c m with alerts := (mediumCheck c m).st } := rfl

/-- The collector under its timers; it emits the alerts its checks push. -/
def alertFeed : Machine Collector Tick AlertEntry where
  step := collector.step
  out c t :=
    match t with
    | .medium m => (mediumCheck c m).pushed
    | _ => []

/-- The tick does not list the interface. -/
def Unlisted (name : IfaceName) : Tick → Prop
  | .slow i => name ∉ i.listed.map (·.name)
  | _ => True

/-- The table's row `k` is not among the interfaces a slow tick lists. -/
def Absent (s : NetState) (i : SlowInput) (k : Nat) : Prop :=
  (k : Int) < s.numIfaces ∧ (s.ifaces k).info.name ∉ i.listed.map (·.name)

/-- After the tick no absent interface is marked up and running, and one that is not to be
ignored gets its alert by the third check, as long as no later tick lists it again. -/
structure Noticed (c : Collector) (i : SlowInput) : Prop where
  marked : ∀ k, Absent (slowTimerCb c i).state i k →
    ifaceIsDown ((slowTimerCb c i).state.ifaces k) = true
  alerted : ∀ k, Absent c.state i k →
    isIgnoredIface c.alerts (c.state.ifaces k).info.name = false →
    ∀ rest : List Tick, (∀ t ∈ rest, Unlisted (c.state.ifaces k).info.name t) →
      3 ≤ rest.countP Tick.isMedium →
      ∃ a ∈ alertFeed.trace (slowTimerCb c i) rest,
        a.type = .ifaceDown ∧ a.iface = (c.state.ifaces k).info.name

/-- Every successful enumeration has its missing interfaces noticed. -/
def NoticedAt (c : Collector) : Tick → Prop
  | .slow i => i.ifconf.isSome → Noticed c i
  | _ => True

/-- No interface missing from a successful enumeration was marked up and running. -/
def NoneVanished (c : Collector) : Tick → Prop
  | .slow i => i.ifconf.isSome → ∀ k, Absent c.state i k → ifaceIsDown (c.state.ifaces k) = true
  | _ => True

/-! ## The rows that are not listed -/

theorem mergeIface_absent {s : NetState} {info : NetIfaceInfo} {k : Nat}
    (hk : (k : Int) < s.numIfaces) (hne : (s.ifaces k).info.name ≠ info.name) :
    (mergeIface s info).ifaces k = s.ifaces k := by
  cases hfind : s.findIface info.name with
  | some j =>
    rw [mergeIface_found hfind]
    refine NetState.setIface_of_ne (fun h => hne ?_) s _
    rw [h]
    exact (NetState.findIface_eq_some.mp hfind).2.1
  | none =>
    by_cases hroom : s.numIfaces < appMaxInterfaces
    · rw [(mergeIface_added hfind hroom).2, Function.update_of_ne (by omega)]
    · rw [mergeIface_full hfind hroom]

/-- A row is an old one or that of the interface just listed. -/
theorem mergeIface_row (s : NetState) (info : NetIfaceInfo) :
    s.numIfaces ≤ (mergeIface s info).numIfaces ∧
      ∀ k : Nat, (k : Int) < (mergeIface s info).numIfaces →
        (k : Int) < s.numIfaces ∨ ((mergeIface s info).ifaces k).info.name = info.name := by
  cases hfind : s.findIface info.name with
  | some j =>
    rw [mergeIface_found hfind]
    exact ⟨le_rfl, fun k hk => Or.inl hk⟩
  | none =>
    by_cases hroom : s.numIfaces < appMaxInterfaces
    · obtain ⟨hnum, hifaces⟩ := mergeIface_added hfind hroom
      rw [hnum, hifaces]
      refine ⟨by omega, fun k hk => ?_⟩
      rcases lt_or_eq_of_le (Int.lt_add_one_iff.mp hk) with hlt | heq
      · exact Or.inl hlt
      · rw [heq, Function.update_self]
        exact Or.inr rfl
    · rw [mergeIface_full hfind hroom]
      exact ⟨le_rfl, fun k hk => Or.inl hk⟩

/-- The merge leaves a row alone whose name is not listed. -/
theorem mergeLoop_absent {infos : List NetIfaceInfo} {s : NetState} {k : Nat}
    (hk : (k : Int) < s.numIfaces) (hne : (s.ifaces k).info.name ∉ infos.map (·.name)) :
    (k : Int) < (mergeLoop.exec s infos).numIfaces ∧
      (mergeLoop.exec s infos).ifaces k = s.ifaces k := by
  induction infos generalizing s with
  | nil => exact ⟨hk, rfl⟩
  | cons info infos ih =>
    rw [List.map_cons, List.mem_cons, not_or] at hne
    have hsame := mergeIface_absent hk hne.1
    have hk' : (k : Int) < (mergeIface s info).numIfaces := hk.trans_le (mergeIface_row s info).1
    obtain ⟨h1, h2⟩ := ih hk' (by rw [hsame]; exact hne.2)
    exact ⟨h1, h2.trans hsame⟩

/-- The merge lets every row keep its name. -/
theorem mergeLoop_name (infos : List NetIfaceInfo) {s : NetState} {k : Nat}
    (hk : (k : Int) < s.numIfaces) :
    ((mergeLoop.exec s infos).ifaces k).info.name = (s.ifaces k).info.name := by
  induction infos generalizing s with
  | nil => rfl
  | cons info infos ih =>
    exact (ih (hk.trans_le (mergeIface_row s info).1)).trans (mergeIface_name s info hk)

/-- A row whose name is not listed was there before the merge. -/
theorem mergeLoop_absent_old {infos : List NetIfaceInfo} {s : NetState} {k : Nat}
    (hk : (k : Int) < (mergeLoop.exec s infos).numIfaces)
    (hne : ((mergeLoop.exec s infos).ifaces k).info.name ∉ infos.map (·.name)) :
    (k : Int) < s.numIfaces := by
  induction infos generalizing s with
  | nil => exact hk
  | cons info infos ih =>
    rw [List.map_cons, List.mem_cons, not_or] at hne
    have hk' : (k : Int) < (mergeIface s info).numIfaces := ih hk hne.2
    rcases (mergeIface_row s info).2 k hk' with hold | hnew
    · exact hold
    · exact absurd ((mergeLoop_name infos hk').trans hnew) hne.1

/-! ## The slow tick -/

theorem slowTimerCb_ifaces (c : Collector) (i : SlowInput) :
    (slowTimerCb c i).state.ifaces = (mergeLoop.exec c.state i.listed).ifaces := by
  obtain ⟨tick, wan, hslow⟩ := slowTimerCb_frame c i
  rw [hslow]

theorem slowTimerCb_alerts (c : Collector) (i : SlowInput) :
    (slowTimerCb c i).alerts = c.alerts := by
  obtain ⟨tick, wan, hslow⟩ := slowTimerCb_frame c i
  rw [hslow]

/-- A missing interface's row goes through a slow tick unchanged. -/
theorem slowTimerCb_absent {c : Collector} {i : SlowInput} {k : Nat} (h : Absent c.state i k) :
    (k : Int) < (slowTimerCb c i).state.numIfaces ∧
      (slowTimerCb c i).state.ifaces k = c.state.ifaces k := by
  rw [slowTimerCb_numIfaces, slowTimerCb_ifaces]
  exact mergeLoop_absent h.1 h.2

/-- The interfaces missing after a slow tick are those that were missing before it. -/
theorem absent_after {c : Collector} {i : SlowInput} {k : Nat} :
    Absent (slowTimerCb c i).state i k ↔ Absent c.state i k := by
  constructor
  · rintro ⟨hk, hne⟩
    rw [slowTimerCb_numIfaces] at hk
    rw [slowTimerCb_ifaces] at hne
    have hold := mergeLoop_absent_old hk hne
    rw [mergeLoop_name i.listed hold] at hne
    exact ⟨hold, hne⟩
  · intro h
    obtain ⟨hk, hsame⟩ := slowTimerCb_absent h
    exact ⟨hk, by rw [hsame]; exact h.2⟩

/-! ## An interface that is gone -/

/-- Row `k` is that of an interface to be watched, and says that it is down. -/
structure Gone (name : IfaceName) (k : Nat) (c : Collector) : Prop where
  row : (k : Int) < c.state.numIfaces
  named : (c.state.ifaces k).info.name = name
  down : ifaceIsDown (c.state.ifaces k) = true
  watched : isIgnoredIface c.alerts name = false

theorem Gone.sameTable {name : IfaceName} {k : Nat} {c c' : Collector} (h : Gone name k c)
    (ht : SameTable c.state c'.state)
    (hi : c'.alerts.ignoreIfaces = c.alerts.ignoreIfaces) : Gone name k c' where
  row := by rw [ht.numIfaces]; exact h.row
  named := by rw [ht.info, h.named]
  down := by
    have hdown := h.down
    unfold ifaceIsDown at hdown ⊢
    rw [ht.info]
    exact hdown
  watched := by
    have hwatched := h.watched
    unfold isIgnoredIface at hwatched ⊢
    rw [hi]
    exact hwatched

theorem foldl_applySample_alerts (dt : ℚ) (ss : List RateSample) (c : Collector) :
    (ss.foldl (applySample dt) c).alerts = c.alerts := by
  induction ss generalizing c with
  | nil => rfl
  | cons s ss ih => exact ih (applySample dt c s)

theorem fastTimerCb_alerts (c : Collector) (f : FastInput) :
    (fastTimerCb c f).alerts = c.alerts := by
  obtain ⟨long, rx, tx, n, hframe⟩ := updateLongHistory_frame (computeRates f (updateSysinfo f c))
  show (updateLongHistory (computeRates f (updateSysinfo f c))).alerts = _
  rw [hframe, computeRates_eq]
  exact foldl_applySample_alerts _ _ _

/-- When the check is made the table is as before the tick, and so are the counters. -/
theorem beforeCheck_sameTable (c : Collector) (m : MediumInput) :
    SameTable c.state (beforeCheck c m).state ∧ (beforeCheck c m).alerts = c.alerts := by
  obtain ⟨idx, infra, hping⟩ := pingInfra_frame m.infra (probeNetwork m c.state).numInfra.toNat
    { c with state := probeNetwork m c.state }
  unfold beforeCheck
  simp only
  rw [hping]
  exact ⟨(probeNetwork_sameTable m c.state).trans ⟨rfl, fun _ => rfl⟩, rfl⟩

theorem Gone.atCheck {name : IfaceName} {k : Nat} {c : Collector} (h : Gone name k c)
    (m : MediumInput) : Gone name k (beforeCheck c m) :=
  h.sameTable (beforeCheck_sameTable c m).1
    (congrArg Alerts.ignoreIfaces (beforeCheck_sameTable c m).2)

/-- It stays gone while no enumeration lists it. -/
theorem Gone.step {name : IfaceName} {k : Nat} {c : Collector} (h : Gone name k c) {t : Tick}
    (ht : Unlisted name t) : Gone name k (collector.step c t) := by
  cases t with
  | fast f =>
    exact h.sameTable (fastTimerCb_sameTable c f) (congrArg Alerts.ignoreIfaces
      (fastTimerCb_alerts c f))
  | medium m =>
    show Gone name k (mediumTimerCb c m)
    rw [mediumTimerCb_eq]
    exact (h.atCheck m).sameTable (SameTable.refl _) (alertsCheck_ignore _ _ m.now)
  | slow i =>
    have habsent : Absent c.state i k := ⟨h.row, by rw [h.named]; exact ht⟩
    obtain ⟨hk, hsame⟩ := slowTimerCb_absent habsent
    refine ⟨hk, ?_, ?_, ?_⟩
    · show ((slowTimerCb c i).state.ifaces k).info.name = name
      rw [hsame, h.named]
    · show ifaceIsDown ((slowTimerCb c i).state.ifaces k) = true
      rw [hsame, h.down]
    · show isIgnoredIface (slowTimerCb c i).alerts name = false
      rw [slowTimerCb_alerts, h.watched]

/-- A check counts an interface that is gone, or pushes its alert. -/
theorem Gone.check {name : IfaceName} {k : Nat} {c : Collector} (h : Gone name k c)
    (m : MediumInput) :
    (∃ a ∈ (mediumCheck c m).pushed, a.type = .ifaceDown ∧ a.iface = name) ∨
      (c.alerts.hyst (k, .ifaceDown) + 1 < appAlertHysteresis ∧
        (mediumCheck c m).st.hyst (k, .ifaceDown) = c.alerts.hyst (k, .ifaceDown) + 1) := by
  have hgone := h.atCheck m
  have hwatched : (GuardedSource.ifaceDown k).watched (beforeCheck c m).alerts.ignoreIfaces
      (beforeCheck c m).state = true := by
    have hign := hgone.watched
    rw [isIgnoredIface, ← hgone.named] at hign
    show (decide _ && !_) = true
    rw [hign, decide_eq_true hgone.row]
    rfl
  have hdown : GuardedSource.condition (beforeCheck c m).state (.ifaceDown k) = true := hgone.down
  have halerts := (beforeCheck_sameTable c m).2
  by_cases hfull : appAlertHysteresis ≤ c.alerts.hyst (k, .ifaceDown) + 1
  · left
    have hdue : GuardedSource.due (beforeCheck c m).alerts (beforeCheck c m).state
        (.ifaceDown k) = true := by
      rw [GuardedSource.due, hwatched, Bool.true_and, Bool.and_eq_true, decide_eq_true_eq, halerts]
      exact ⟨hdown, hfull⟩
    refine ⟨GuardedSource.alert _ m.now (.ifaceDown k), ?_, rfl, hgone.named⟩
    rw [mediumCheck, alertsCheck_pushed]
    exact alert_mem_checkAlerts m.now (ifaceDown_mem_sources.mpr hgone.row) hdue
  · right
    have hcount : (mediumCheck c m).st.hyst (k, .ifaceDown) = _ :=
      alertsCheck_hyst (beforeCheck c m).alerts (beforeCheck c m).state m.now (.ifaceDown k)
    rw [if_pos hwatched, countUp, if_pos hdown, halerts] at hcount
    exact ⟨not_le.mp hfull, hcount.trans (if_neg hfull)⟩

/-- By the third check, counting those already made, an interface that is gone has its
alert. -/
theorem gone_alert {name : IfaceName} {k : Nat} {rest : List Tick} {c : Collector}
    (h : Gone name k c) (hrest : ∀ t ∈ rest, Unlisted name t)
    (hsome : 0 < rest.countP Tick.isMedium)
    (hthree : appAlertHysteresis ≤ c.alerts.hyst (k, .ifaceDown) + rest.countP Tick.isMedium) :
    ∃ a ∈ alertFeed.trace c rest, a.type = .ifaceDown ∧ a.iface = name := by
  induction rest generalizing c with
  | nil => exact absurd hsome (by simp)
  | cons t rest ih =>
    rw [List.forall_mem_cons] at hrest
    -- a later tick's alert is one of the run
    have hlater : (∃ a ∈ alertFeed.trace (collector.step c t) rest,
        a.type = .ifaceDown ∧ a.iface = name) →
        ∃ a ∈ alertFeed.trace c (t :: rest), a.type = .ifaceDown ∧ a.iface = name := by
      rintro ⟨a, ha, hkey⟩
      exact ⟨a, List.mem_append_right _ ha, hkey⟩
    have hstep := h.step hrest.1
    cases t with
    | fast f =>
      refine hlater (ih hstep hrest.2 hsome ?_)
      rw [show (collector.step c (.fast f)).alerts = c.alerts from fastTimerCb_alerts c f]
      exact hthree
    | slow i =>
      refine hlater (ih hstep hrest.2 hsome ?_)
      rw [show (collector.step c (.slow i)).alerts = c.alerts from slowTimerCb_alerts c i]
      exact hthree
    | medium m =>
      rcases h.check m with ⟨a, ha, hkey⟩ | ⟨hbelow, hcount⟩
      · exact ⟨a, List.mem_append_left _ ha, hkey⟩
      · rw [List.countP_cons_of_pos rfl] at hthree
        have hnext : (collector.step c (.medium m)).alerts.hyst (k, .ifaceDown) =
            c.alerts.hyst (k, .ifaceDown) + 1 := hcount
        exact hlater (ih hstep hrest.2 (by omega) (by omega))

/-! ## Runs -/

/-- A slow tick has its missing interfaces noticed exactly when none of them was marked up
and running before it. -/
theorem noticedAt_iff (c : Collector) (t : Tick) : NoticedAt c t ↔ NoneVanished c t := by
  cases t with
  | fast f => exact Iff.rfl
  | medium m => exact Iff.rfl
  | slow i =>
    refine imp_congr_right fun _ => ⟨fun h k habsent => ?_, fun h => ⟨fun k habsent => ?_, ?_⟩⟩
    · have hmarked := h.marked k (absent_after.mpr habsent)
      rwa [(slowTimerCb_absent habsent).2] at hmarked
    · have hold := absent_after.mp habsent
      rw [(slowTimerCb_absent hold).2]
      exact h k hold
    · intro k habsent hwatched rest hrest hthree
      have hgone : Gone (c.state.ifaces k).info.name k c := ⟨habsent.1, rfl, h k habsent, hwatched⟩
      exact gone_alert (hgone.step (t := .slow i) habsent.2) hrest
        (lt_of_lt_of_le (by decide) hthree) (le_add_left hthree)

/-- **Removed interfaces.** In every run of the collector, each successful enumeration has its
missing interfaces noticed exactly when none of them was marked up and running before. -/
theorem noticed_iff (cfg : Config) (b : BootInput) (ticks : List Tick) :
    collector.Along NoticedAt (netCollectorInit cfg b) ticks ↔
      collector.Along NoneVanished (netCollectorInit cfg b) ticks :=
  collector.along_congr (I := fun _ => True) (fun _ _ _ _ => trivial)
    (fun c t _ => noticedAt_iff c t) trivial ticks

/-- An answer to the pings of a medium tick. -/
def mediumAt (now : UInt32) : MediumInput := ⟨(true, 1), fun _ => default, (true, 1), now⟩

/-- A slow tick that enumerates these interfaces. -/
def slowListing (names : List String) : SlowInput :=
  ⟨some (names.map ifReqNamed), (true, 1), default, id⟩

/-- An adapter that is unplugged keeps its row up and running, and four checks push no
alert for it. -/
theorem unplugged_not_noticed :
    let c := netCollectorInit Config.empty (bootWith ["eth0"])
    let rest : List Tick := [.medium (mediumAt 5), .medium (mediumAt 10), .medium (mediumAt 15),
      .medium (mediumAt 20)]
    ¬ collector.Along NoticedAt c [.slow (slowListing [])] ∧
      alertFeed.trace (slowTimerCb c (slowListing [])) rest = [] := by
  refine ⟨fun h => ?_, by decide +kernel⟩
  have hdown := (h.1 rfl).marked 0 ⟨by decide +kernel, by simp [SlowInput.listed, slowListing,
    netEnumerateInterfaces]⟩
  exact absurd hdown (by decide +kernel)

end NetMon.Net
