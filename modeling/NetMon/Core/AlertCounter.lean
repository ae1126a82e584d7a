import Mathlib.Tactic.NormNum
import NetMon.Core.Alerts

/-!
# The active-alert counter

`alerts_check` starts the counter at zero and recounts the log at its end, while every
`push_alert` on the way has counted its entry already. So the counter is the number of
active entries exactly after the checks that push nothing (`counter_iff`).
-/

namespace NetMon.Core

open NetMon.Lib NetMon.Net

/-- The counter is the number of active entries in use. -/
def CounterExact (st : Alerts) : Prop := alertsActiveCount st = activeInLog st.log

/-- A check at which no source pushes: the guarded conditions that hold are still below
the limit, and the latency is not high. -/
structure QuietCheck (st : Alerts) (net : NetState) : Prop where
  ifaces : ∀ i : Nat, (i : Int) < net.numIfaces →
    isIgnoredIface st (net.ifaces i).info.name = false →
      (ifaceIsDown (net.ifaces i) = true → st.hyst (i, .ifaceDown) + 1 < appAlertHysteresis) ∧
      (hasErrors (net.ifaces i) = true → st.hyst (i, .packetErrors) + 1 < appAlertHysteresis)
  gateway : net.connectivity.gatewayReachable = false →
    st.hyst (0, .gatewayUnreachable) + 1 < appAlertHysteresis
  latency : net.connectivity.gatewayReachable = true →
    net.connectivity.gatewayLatencyMs ≤ appAlertPingWarnMs
  dns : net.connectivity.dnsReachable = false →
    st.hyst (0, .dnsFailure) + 1 < appAlertHysteresis

instance (st : Alerts) : Decidable (CounterExact st) :=
  inferInstanceAs (Decidable (alertsActiveCount st = activeInLog st.log))

/-- The call pushes nothing. -/
def Quiet (st : Alerts) : AlertOp → Prop
  | .check net _ => QuietCheck st net
  | .clearAll => True

theorem guardedAlerts_eq_nil {st : Alerts} {slot : Nat} {cond : Bool} {e : AlertEntry} :
    guardedAlerts st slot cond e = [] ↔
      (cond = true → st.hyst (slot, e.type) + 1 < appAlertHysteresis) := by
  unfold guardedAlerts fires
  cases cond <;> simp

theorem latencyAlerts_eq_nil {net : NetState} {now : UInt32} :
    latencyAlerts net now = [] ↔ (net.connectivity.gatewayReachable = true →
      net.connectivity.gatewayLatencyMs ≤ appAlertPingWarnMs) := by
  have hcrit : ∀ x : ℚ, appAlertPingCritMs < x → appAlertPingWarnMs < x := fun x h =>
    lt_trans (by norm_num [appAlertPingWarnMs, appAlertPingCritMs]) h
  unfold latencyAlerts
  cases hg : net.connectivity.gatewayReachable with
  | false => simp [hg]
  | true =>
    simp only [hg, Bool.true_and, decide_eq_true_eq, forall_const, gt_iff_lt]
    by_cases h1 : appAlertPingCritMs < net.connectivity.gatewayLatencyMs
    · simp [h1, hcrit _ h1]
    · by_cases h2 : appAlertPingWarnMs < net.connectivity.gatewayLatencyMs
      · simp [h1, h2]
      · simp [h1, h2, not_lt.mp h2]

theorem checkAlerts_eq_nil (st : Alerts) (net : NetState) (now : UInt32) :
    checkAlerts st net now = [] ↔ QuietCheck st net := by
  have hifaces : (List.range net.numIfaces.toNat).flatMap (ifaceAlerts st net now) = [] ↔
      ∀ i : Nat, (i : Int) < net.numIfaces →
        isIgnoredIface st (net.ifaces i).info.name = false →
        (ifaceIsDown (net.ifaces i) = true → st.hyst (i, .ifaceDown) + 1 < appAlertHysteresis) ∧
        (hasErrors (net.ifaces i) = true →
          st.hyst (i, .packetErrors) + 1 < appAlertHysteresis) := by
    rw [List.flatMap_eq_nil_iff]
    apply forall_congr'
    intro i
    rw [List.mem_range, Int.lt_toNat]
    apply imp_congr_right
    intro _
    unfold ifaceAlerts
    simp only
    cases isIgnoredIface st (net.ifaces i).info.name with
    | true => simp
    | false =>
      simp only [Bool.false_eq_true, if_false, List.append_eq_nil_iff, guardedAlerts_eq_nil,
        forall_const]
      rfl
  unfold checkAlerts
  rw [List.append_eq_nil_iff, List.append_eq_nil_iff, List.append_eq_nil_iff, hifaces,
    guardedAlerts_eq_nil, guardedAlerts_eq_nil, latencyAlerts_eq_nil, Bool.not_eq_true',
    Bool.not_eq_true']
  exact ⟨fun ⟨⟨⟨h1, h2⟩, h3⟩, h4⟩ => ⟨h1, h2, h3, h4⟩, fun h => ⟨⟨⟨h.1, h.2⟩, h.3⟩, h.4⟩⟩

/-- After a dismissal nothing is active. -/
theorem alertsClearAll_activeInLog (st : Alerts) : activeInLog (alertsClearAll st).log = 0 := by
  rw [activeInLog, alertsClearAll, Ring.map_slots, List.countP_map, List.countP_eq_zero]
  simp

/-- The counter is exact after a call exactly when the call pushed nothing. -/
theorem counterExact_step (st : Alerts) (op : AlertOp) :
    CounterExact (alertEngine.step st op) ↔ Quiet st op := by
  cases op with
  | check net now =>
    show (alertsCheck st net now).st.activeCount = _ ↔ QuietCheck st net
    rw [alertsCheck_activeCount, ← checkAlerts_eq_nil st net now, ← List.length_eq_zero_iff]
    show _ + activeInLog (alertsCheck st net now).st.log =
      activeInLog (alertsCheck st net now).st.log ↔ _
    omega
  | clearAll =>
    show 0 = activeInLog (alertsClearAll st).log ↔ True
    rw [alertsClearAll_activeInLog]
    simp

/-- **The counter.** From `alerts_init`, the counter is the number of active entries after
every call exactly when no check pushes an alert. -/
theorem counter_iff (cfg : Config) (ops : List AlertOp) :
    (CounterExact (alertsInit cfg) ∧ alertEngine.After CounterExact (alertsInit cfg) ops) ↔
      alertEngine.Along Quiet (alertsInit cfg) ops := by
  have hinit : CounterExact (alertsInit cfg) := by
    unfold CounterExact alertsInit activeInLog
    rw [Ring.fresh_slots]
    rfl
  rw [and_iff_right hinit]
  exact alertEngine.after_iff_along (I := fun _ => True) (fun _ _ h => h)
    (fun st op _ => counterExact_step st op) trivial ops

/-- A network without interfaces whose gateway answers after 200 ms. -/
def slowGateway : NetState :=
  { NetState.zero with connectivity := ⟨true, 200, true, true, 0⟩ }

/-- One check of a slow gateway logs one alert and counts two. -/
theorem slowGateway_counted_twice :
    ¬ CounterExact (alertEngine.exec (alertsInit Config.empty) [.check slowGateway 0]) := by
  decide +kernel

end NetMon.Core
