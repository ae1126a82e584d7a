import NetMon.Core.IgnoreList
import NetMon.Net.Removed

/-!
# The collector's checks

`alerts_check` has one caller, the medium timer. The checks of a run of the collector go over
a table that only grows (`collectorChecks_grow`), and the alerts of the run are those of the
engine over these checks (`alertFeed_eq`). What is proved of the engine over growing tables
therefore holds of the collector; `collector_ignored` says so of the ignore list.
-/

namespace NetMon.Net

open NetMon.Lib NetMon.Core

/-! ## The table grows -/

theorem SameTable.grows {s s' : NetState} (h : SameTable s s') : Grows s s' :=
  ⟨h.numIfaces.ge, fun k _ => congrArg NetIfaceInfo.name (h.info k)⟩

theorem mergeLoop_grows (infos : List NetIfaceInfo) (s : NetState) :
    Grows s (mergeLoop.exec s infos) := by
  refine ⟨?_, fun k hk => mergeLoop_name infos hk⟩
  exact mergeLoop.exec_inv (P := fun s' => s.numIfaces ≤ s'.numIfaces)
    (fun s' info h => h.trans (mergeIface_row s' info).1) le_rfl infos

theorem step_grows (c : Collector) (t : Tick) : Grows c.state (collector.step c t).state := by
  cases t with
  | fast f => exact (fastTimerCb_sameTable c f).grows
  | medium m => exact (mediumTimerCb_sameTable c m).grows
  | slow i =>
    have hmerge := mergeLoop_grows i.listed c.state
    refine ⟨?_, fun k hk => ?_⟩
    · exact hmerge.numIfaces.trans (slowTimerCb_numIfaces c i).ge
    · exact (congrArg (fun ifaces : Int → NetIfaceState => (ifaces k).info.name)
        (slowTimerCb_ifaces c i)).trans (hmerge.name k hk)

/-! ## The checks of a run -/

/-- The states the medium ticks of a run check, and when. -/
def collectorChecks (c : Collector) : List Tick → List Check
  | [] => []
  | t :: ticks =>
    match t with
    | .medium m => ((beforeCheck c m).state, m.now) :: collectorChecks (collector.step c t) ticks
    | _ => collectorChecks (collector.step c t) ticks

/-- The first check of a run, and each one behind another, has a table that has grown. -/
theorem collectorChecks_grow (c : Collector) (ticks : List Tick) :
    (∀ x ∈ (collectorChecks c ticks).head?, Grows c.state x.1) ∧
      ((collectorChecks c ticks).map Prod.fst).IsChain Grows := by
  induction ticks generalizing c with
  | nil => exact ⟨fun _ hx => absurd hx (Option.not_mem_none _), .nil⟩
  | cons t ticks ih =>
    obtain ⟨hfirst, hchain⟩ := ih (collector.step c t)
    have hlater : ∀ x ∈ (collectorChecks (collector.step c t) ticks).head?, Grows c.state x.1 :=
      fun x hx => Trans.trans (step_grows c t) (hfirst x hx)
    cases t with
    | fast f => exact ⟨hlater, hchain⟩
    | slow i => exact ⟨hlater, hchain⟩
    | medium m =>
      refine ⟨fun x hx => ?_, ?_⟩
      · obtain rfl := Option.some.inj hx
        exact (beforeCheck_sameTable c m).1.grows
      · apply hchain.cons
        intro s hs
        rw [List.head?_map, Option.mem_map] at hs
        obtain ⟨x, hx, rfl⟩ := hs
        exact hfirst x hx

/-- The alerts of a run are those of the engine over its checks. -/
theorem alertFeed_eq (c : Collector) (ticks : List Tick) : alertFeed.trace c ticks =
    alertEngine.trace c.alerts ((collectorChecks c ticks).map fun x => .check x.1 x.2) := by
  induction ticks generalizing c with
  | nil => rfl
  | cons t ticks ih =>
    have hrest := ih (collector.step c t)
    cases t with
    | fast f =>
      rw [show (collector.step c (.fast f)).alerts = c.alerts from fastTimerCb_alerts c f] at hrest
      exact hrest
    | slow i =>
      rw [show (collector.step c (.slow i)).alerts = c.alerts from slowTimerCb_alerts c i] at hrest
      exact hrest
    | medium m =>
      have hcheck : mediumCheck c m = alertsCheck c.alerts (beforeCheck c m).state m.now := by
        rw [mediumCheck, (beforeCheck_sameTable c m).2]
      rw [show (collector.step c (.medium m)).alerts = (mediumCheck c m).st from rfl,
        hcheck] at hrest
      apply (congrArg ((mediumCheck c m).pushed ++ ·) hrest).trans
      rw [hcheck]
      rfl

/-- **The ignore list** silences the interfaces it lists, whatever states are checked, and in every
run of the collector, which makes the checks, it takes the alerts of these names away and nothing
else. -/
theorem collector_ignored {cfg cfg' : Config}
    (hfits : ∀ t ∈ ignoreTokens (ignoreValue cfg), t.length ≤ 15)
    (hempty : ignoreValue cfg' = CStr.empty) :
    (∀ cs, ∀ e ∈ pushedBy cfg cs, ¬ IsListed cfg e) ∧
      ∀ (b : BootInput) (ticks : List Tick), alertFeed.trace (netCollectorInit cfg b) ticks =
        (pushedBy cfg' (collectorChecks (netCollectorInit cfg b) ticks)).filter
          fun e => ¬ IsListed cfg e := by
  refine ⟨pushedBy_unlisted hfits, fun b ticks => ?_⟩
  rw [← pushedBy_filter (ignoreList_nil hempty) hfits (collectorChecks_grow _ ticks).2]
  exact alertFeed_eq (netCollectorInit cfg b) ticks

/-- Of two interfaces the second is listed, between blank tokens. -/
theorem collector_ignored_wlan0 :
    let cfg := configSetStr Config.empty (CStr.lit "alert_ignore_ifaces") (CStr.lit " , wlan0 ,,")
    let c := netCollectorInit cfg
      ⟨some [ifReqNamed "eth0", ifReqNamed "wlan0"], none, ⟨0, 0⟩⟩
    let ticks : List Tick := [.medium (mediumAt 5), .medium (mediumAt 10), .medium (mediumAt 15)]
    (∀ e ∈ pushedBy cfg (collectorChecks c ticks), ¬ IsListed cfg e) ∧
      alertFeed.trace c ticks = (pushedBy Config.empty (collectorChecks c ticks)).filter
        fun e => ¬ IsListed cfg e :=
  have h := @collector_ignored
    (configSetStr Config.empty (CStr.lit "alert_ignore_ifaces") (CStr.lit " , wlan0 ,,"))
    Config.empty (by decide) rfl
  ⟨h.1 _, h.2 _ _⟩

end NetMon.Net
