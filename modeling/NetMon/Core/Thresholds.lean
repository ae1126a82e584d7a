import Mathlib.Data.Rat.Cast.Order
import NetMon.Core.AlertRuns

/-!
# Thresholds

`alerts_check` compares the gateway's latency and the interfaces' error rates with the values
it was compiled with, and never asks the configuration it was given. `honours_iff` says for
which states that makes no difference: a value between the two bounds does
(`gt_iff_gt_iff`).

The latency branch has no counter either, so a run of checks debounces latency only if it
never sees any (`spikesDebounced_iff`).
-/

namespace NetMon.Core

open NetMon.Lib NetMon.Net GuardedSource

/-! ## The configured values -/

def configuredPingCritMs (cfg : Config) : ℚ :=
  configGetInt cfg (CStr.lit "alert_ping_crit_ms") 500

def configuredPingWarnMs (cfg : Config) : ℚ :=
  configGetInt cfg (CStr.lit "alert_ping_warn_ms") 100

def configuredErrThreshold (cfg : Config) : ℚ :=
  configGetInt cfg (CStr.lit "alert_err_threshold") 10

/-- Above one of the two bounds, and not above the other. -/
def Between (a b x : ℚ) : Prop := min a b < x ∧ x ≤ max a b

theorem gt_iff_gt_iff (a b x : ℚ) : (x > a ↔ x > b) ↔ ¬ Between a b x := by
  unfold Between
  rw [min_lt_iff, le_max_iff]
  constructor
  · rintro h ⟨hlt, hle⟩
    have hboth : x > a ∧ x > b := hlt.elim (fun ha => ⟨ha, h.mp ha⟩) fun hb => ⟨h.mpr hb, hb⟩
    exact hle.elim (not_le.mpr hboth.1) (not_le.mpr hboth.2)
  · intro h
    by_contra hne
    rw [not_iff, not_lt] at hne
    by_cases ha : x > a
    · exact h ⟨.inl ha, .inr (not_lt.mp fun hb => absurd (hne.mpr hb) (not_le.mpr ha))⟩
    · exact h ⟨.inr (hne.mp (not_lt.mp ha)), .inl (not_lt.mp ha)⟩

/-! ## Latency alerts -/

/-- A latency alert of this severity. -/
def IsHighLatency (sev : AlertSeverity) (e : AlertEntry) : Prop :=
  e.type = .highLatency ∧ e.severity = sev

/-- Only the latency branch pushes latency alerts. -/
theorem mem_checkAlerts_highLatency {st : Alerts} {net : NetState} {now : UInt32}
    {e : AlertEntry} (htype : e.type = .highLatency) :
    e ∈ checkAlerts st net now ↔ e ∈ latencyAlerts net now := by
  have hdue : ∀ srcs, e ∉ dueAlerts st net now srcs := by
    intro srcs he
    obtain ⟨src, -, rfl⟩ := List.mem_map.mp he
    exact alert_guarded net now src htype
  rw [checkAlerts_eq]
  simp [hdue]

/-- The gateway answers, and takes longer than this. -/
def SlowerThan (ms : ℚ) (net : NetState) : Prop :=
  net.connectivity.gatewayReachable ∧ net.connectivity.gatewayLatencyMs > ms

instance (ms : ℚ) (net : NetState) : Decidable (SlowerThan ms net) :=
  inferInstanceAs (Decidable (_ ∧ _))

theorem latencyAlerts_eq (net : NetState) (now : UInt32) : latencyAlerts net now =
    if SlowerThan appAlertPingCritMs net then
      [alertEntry .highLatency .critical none (CStr.lit "Very high gateway latency") now]
    else if SlowerThan appAlertPingWarnMs net then
      [alertEntry .highLatency .warning none (CStr.lit "High gateway latency") now]
    else [] := by
  unfold latencyAlerts
  simp only [Bool.and_eq_true, decide_eq_true_eq]
  rfl

/-- The two branches push one alert each: critical above the first bound, a warning between
the bounds. -/
theorem latencyAlerts_severity_iff (net : NetState) (now : UInt32) (sev : AlertSeverity) :
    (∃ e ∈ latencyAlerts net now, e.severity = sev) ↔
      sev = .critical ∧ SlowerThan appAlertPingCritMs net ∨
      sev = .warning ∧ ¬ SlowerThan appAlertPingCritMs net ∧
        SlowerThan appAlertPingWarnMs net := by
  rw [latencyAlerts_eq]
  by_cases hcrit : SlowerThan appAlertPingCritMs net
  · simp [hcrit, alertEntry, eq_comm]
  · by_cases hwarn : SlowerThan appAlertPingWarnMs net
    · simp [hcrit, hwarn, alertEntry, eq_comm]
    · simp [hcrit, hwarn]

/-- What a check pushes with this severity comes from the latency branch. -/
theorem pushed_highLatency_iff (st : Alerts) (net : NetState) (now : UInt32)
    (sev : AlertSeverity) : (∃ e ∈ (alertsCheck st net now).pushed, IsHighLatency sev e) ↔
      sev = .critical ∧ SlowerThan appAlertPingCritMs net ∨
      sev = .warning ∧ ¬ SlowerThan appAlertPingCritMs net ∧
        SlowerThan appAlertPingWarnMs net := by
  rw [alertsCheck_pushed, ← latencyAlerts_severity_iff net now]
  constructor
  · rintro ⟨e, he, htype, hsev⟩
    exact ⟨e, (mem_checkAlerts_highLatency htype).mp he, hsev⟩
  · rintro ⟨e, he, hsev⟩
    obtain ⟨_, _, rfl⟩ := mem_latencyAlerts he
    exact ⟨_, (mem_checkAlerts_highLatency rfl).mpr he, rfl, hsev⟩

theorem critical_pushed_iff (st : Alerts) (net : NetState) (now : UInt32) :
    (∃ e ∈ (alertsCheck st net now).pushed, IsHighLatency .critical e) ↔
      SlowerThan appAlertPingCritMs net := by
  rw [pushed_highLatency_iff]
  simp

theorem warning_pushed_iff (st : Alerts) (net : NetState) (now : UInt32) :
    (∃ e ∈ (alertsCheck st net now).pushed, IsHighLatency .warning e) ↔
      ¬ SlowerThan appAlertPingCritMs net ∧ SlowerThan appAlertPingWarnMs net := by
  rw [pushed_highLatency_iff]
  simp

/-! ## Error rates -/

theorem guardedCheck_pushed (slot : Nat) (cond : Bool) (e : AlertEntry) (w : Sweep) :
    (guardedCheck slot cond e w).pushed = w.pushed ++ guardedAlerts w.st slot cond e := by
  unfold guardedCheck guardedAlerts fires
  cases cond with
  | false => exact (List.append_nil _).symm
  | true =>
    simp only [if_true, Bool.true_and, ge_iff_le, decide_eq_true_eq]
    split
    · rfl
    · exact (List.append_nil _).symm

/-- The sweep before a row. -/
def beforeRow (st : Alerts) (net : NetState) (now : UInt32) (row : Nat) : Sweep :=
  (List.range row).foldl (checkIface net now) ⟨{ st with activeCount := 0 }, []⟩

/-- The row is taken for one with packet errors: its counter is running, or it ran out and
pushed the alert. -/
def ErrorsSeen (st : Alerts) (net : NetState) (now : UInt32) (row : Nat) : Prop :=
  let w := beforeRow st net now row
  let w' := checkIface net now w row
  w'.st.hyst (row, .packetErrors) ≠ 0 ∨
    packetErrorsAlert (net.ifaces row) now ∈ w'.pushed.drop w.pushed.length

/-- A guarded check that counts or pushes has seen its condition, and the other way round. -/
theorem guarded_seen_iff (st : Alerts) (slot : Nat) (cond : Bool) (e : AlertEntry) :
    (countUp appAlertHysteresis cond (st.hyst (slot, e.type)) ≠ 0 ∨
      e ∈ guardedAlerts st slot cond e) ↔ cond := by
  unfold countUp guardedAlerts fires
  cases cond with
  | false => simp
  | true =>
    by_cases hlimit : appAlertHysteresis ≤ st.hyst (slot, e.type) + 1
    · simp [hlimit]
    · simp [hlimit]

theorem errorsSeen_iff {st : Alerts} {net : NetState} {now : UInt32} {row : Nat}
    (hwatched : isIgnoredIface st (net.ifaces row).info.name = false) :
    ErrorsSeen st net now row ↔ hasErrors (net.ifaces row) := by
  have hign : isIgnoredIface (beforeRow st net now row).st (net.ifaces row).info.name = false := by
    rw [isIgnoredIface, beforeRow, (Sweep.Did.ifaces st net now row).ignore]
    exact hwatched
  -- the alert of an interface that is down is another one
  have hother : ∀ st' cond, packetErrorsAlert (net.ifaces row) now ∉
      guardedAlerts st' row cond (ifaceDownAlert (net.ifaces row) now) := by
    intro st' cond he
    unfold guardedAlerts at he
    split at he
    · have htype := congrArg AlertEntry.type (List.mem_singleton.mp he)
      simp [packetErrorsAlert, ifaceDownAlert, alertEntry] at htype
    · cases he
  unfold ErrorsSeen checkIface
  simp only [hign]
  rw [if_neg Bool.false_ne_true, guardedCheck_hyst, guardedCheck_pushed, guardedCheck_pushed,
    List.append_assoc, List.drop_left, List.mem_append, or_iff_right (hother _ _)]
  rw [show (row, AlertType.packetErrors) = (row, (packetErrorsAlert (net.ifaces row) now).type) from
    rfl, Function.update_self]
  exact guarded_seen_iff _ row _ _

/-! ## The configured thresholds -/

/-- RX plus TX errors per second. -/
def errorRate (iface : NetIfaceState) : ℚ := iface.rates.rxErrorsPerSec + iface.rates.txErrorsPerSec

/-- A check goes by the configured thresholds. -/
structure Honours (cfg : Config) (st : Alerts) (net : NetState) (now : UInt32) : Prop where
  critical : (∃ e ∈ (alertsCheck st net now).pushed, IsHighLatency .critical e) ↔
    SlowerThan (configuredPingCritMs cfg) net
  warning : (∃ e ∈ (alertsCheck st net now).pushed, IsHighLatency .warning e) ↔
    ¬ SlowerThan (configuredPingCritMs cfg) net ∧ SlowerThan (configuredPingWarnMs cfg) net
  errors : ∀ row, rowWatched st.ignoreIfaces net row →
    (ErrorsSeen st net now row ↔ errorRate (net.ifaces row) > configuredErrThreshold cfg)

/-- No value is between the configured bound and the one compiled in. -/
structure Unaffected (cfg : Config) (net : NetState) : Prop where
  critical : net.connectivity.gatewayReachable →
    ¬ Between appAlertPingCritMs (configuredPingCritMs cfg) net.connectivity.gatewayLatencyMs
  warning : net.connectivity.gatewayReachable →
    net.connectivity.gatewayLatencyMs ≤ appAlertPingCritMs →
      ¬ Between appAlertPingWarnMs (configuredPingWarnMs cfg) net.connectivity.gatewayLatencyMs
  errors : ∀ row, rowWatched (ignoreList cfg) net row →
    ¬ Between appAlertErrThreshold (configuredErrThreshold cfg) (errorRate (net.ifaces row))

/-- The engine at any time after its start. -/
def engineAfter (cfg : Config) (ops : List AlertOp) : Alerts :=
  alertEngine.exec (alertsInit cfg) ops

theorem engineAfter_ignore (cfg : Config) (ops : List AlertOp) :
    (engineAfter cfg ops).ignoreIfaces = ignoreList cfg := by
  refine alertEngine.exec_inv (P := fun st => st.ignoreIfaces = ignoreList cfg)
    (fun st op hst => ?_) rfl ops
  cases op with
  | check net now => exact (alertsCheck_ignore st net now).trans hst
  | clearAll => exact hst

/-- Two bounds tell the same gateways apart unless its latency is between them. -/
theorem slowerThan_congr_iff (a b : ℚ) (net : NetState) :
    (SlowerThan a net ↔ SlowerThan b net) ↔ (net.connectivity.gatewayReachable →
      ¬ Between a b net.connectivity.gatewayLatencyMs) :=
  and_congr_right_iff.trans (imp_congr_right fun _ => gt_iff_gt_iff a b _)

/-- Below the critical bound the warning's bound decides. -/
theorem warning_congr_iff (a b crit : ℚ) (net : NetState) :
    (¬ SlowerThan crit net ∧ SlowerThan a net ↔ ¬ SlowerThan crit net ∧ SlowerThan b net) ↔
      (net.connectivity.gatewayReachable → net.connectivity.gatewayLatencyMs ≤ crit →
        ¬ Between a b net.connectivity.gatewayLatencyMs) := by
  rw [and_congr_right_iff, slowerThan_congr_iff]
  constructor
  · exact fun h hreach hle => h (fun hslow => not_le.mpr hslow.2 hle) hreach
  · exact fun h hslow hreach => h hreach (not_lt.mp fun hlt => hslow ⟨hreach, hlt⟩)

/-- **The configured thresholds are honoured** exactly where no value lies between them and
those compiled in. -/
theorem honours_iff (cfg : Config) (ops : List AlertOp) (net : NetState) (now : UInt32) :
    Honours cfg (engineAfter cfg ops) net now ↔ Unaffected cfg net := by
  have hrow : ∀ row, rowWatched (ignoreList cfg) net row →
      ((ErrorsSeen (engineAfter cfg ops) net now row ↔
        errorRate (net.ifaces row) > configuredErrThreshold cfg) ↔
          ¬ Between appAlertErrThreshold (configuredErrThreshold cfg)
            (errorRate (net.ifaces row))) := by
    intro row hw
    rw [← engineAfter_ignore cfg ops, rowWatched, Bool.and_eq_true, Bool.not_eq_true'] at hw
    rw [errorsSeen_iff hw.2, hasErrors, decide_eq_true_eq]
    exact gt_iff_gt_iff ..
  constructor
  · intro h
    have hsame := (critical_pushed_iff _ _ _).symm.trans h.critical
    have hwarning := h.warning
    rw [warning_pushed_iff, ← hsame] at hwarning
    refine ⟨(slowerThan_congr_iff ..).mp hsame, (warning_congr_iff ..).mp hwarning, ?_⟩
    exact fun row hw => (hrow row hw).mp (h.errors row (by rwa [engineAfter_ignore]))
  · intro h
    have hsame := (slowerThan_congr_iff ..).mpr h.critical
    refine ⟨(critical_pushed_iff _ _ _).trans hsame, ?_, fun row hw => ?_⟩
    · rw [warning_pushed_iff, ← hsame]
      exact (warning_congr_iff ..).mpr h.warning
    · rw [engineAfter_ignore] at hw
      exact (hrow row hw).mpr (h.errors row hw)

/-- 200 ms configured as critical, and a gateway that takes 300 ms. -/
theorem threshold_ignored : ¬ ∀ (cfg : Config) (ops : List AlertOp) (net : NetState)
    (now : UInt32), Honours cfg (engineAfter cfg ops) net now := by
  intro h
  have hcritical := (h (configSetStr Config.empty (CStr.lit "alert_ping_crit_ms") (CStr.lit "200"))
    [] { NetState.zero with connectivity :=
      { (default : NetConnectivity) with gatewayReachable := true, gatewayLatencyMs := 300 } }
    0).critical
  rw [critical_pushed_iff] at hcritical
  revert hcritical
  decide

/-! ## Spikes -/

/-- The gateway is slow: a check of this state pushes a latency alert. -/
theorem pushes_latency_iff (st : Alerts) (net : NetState) (now : UInt32) :
    (∃ e ∈ (alertsCheck st net now).pushed, e.type = .highLatency) ↔
      SlowerThan appAlertPingWarnMs net := by
  constructor
  · rintro ⟨e, he, htype⟩
    rcases (pushed_highLatency_iff st net now _).mp ⟨e, he, htype, rfl⟩ with
      ⟨-, hreach, hslow⟩ | ⟨-, -, hwarn⟩
    · exact ⟨hreach, lt_trans (by decide) hslow⟩
    · exact hwarn
  · intro hwarn
    by_cases hcrit : SlowerThan appAlertPingCritMs net
    · obtain ⟨e, he, htype, -⟩ := (critical_pushed_iff st net now).mpr hcrit
      exact ⟨e, he, htype⟩
    · obtain ⟨e, he, htype, -⟩ := (warning_pushed_iff st net now).mpr ⟨hcrit, hwarn⟩
      exact ⟨e, he, htype⟩

/-- A latency alert is pushed only at the third slow check in a row. -/
def SpikesDebounced (cfg : Config) (cs : List Check) : Prop :=
  ∀ past c rest, cs = past ++ c :: rest →
    (∃ e ∈ (alertsCheck (afterChecks cfg past) c.1 c.2).pushed, e.type = .highLatency) →
      ∃ before a b, past = before ++ [a, b] ∧ SlowerThan appAlertPingWarnMs a.1 ∧
        SlowerThan appAlertPingWarnMs b.1 ∧ SlowerThan appAlertPingWarnMs c.1

/-- **Latency is debounced** in exactly the runs where no check finds the gateway slow. -/
theorem spikesDebounced_iff (cfg : Config) (cs : List Check) :
    SpikesDebounced cfg cs ↔ ∀ c ∈ cs, ¬ SlowerThan appAlertPingWarnMs c.1 := by
  constructor
  · intro h
    induction cs using List.reverseRecOn with
    | nil => exact List.forall_mem_nil _
    | append_singleton cs c ih =>
      have hpast := ih fun past c' rest hcs => h past c' (rest ++ [c]) (by rw [hcs]; simp)
      rw [List.forall_mem_append, List.forall_mem_singleton]
      refine ⟨hpast, fun hslow => ?_⟩
      obtain ⟨before, a, b, rfl, ha, -, -⟩ := h cs c [] rfl ((pushes_latency_iff _ _ _).mpr hslow)
      exact hpast a (by simp) ha
  · rintro h past c rest rfl hpush
    exact absurd ((pushes_latency_iff _ _ _).mp hpush) (h c (by simp))

/-- A single slow ping at the first check. -/
theorem spike_pushed : ¬ ∀ (cfg : Config) (cs : List Check), SpikesDebounced cfg cs := by
  intro h
  obtain ⟨before, a, b, hpast, -⟩ := h Config.empty
    [({ NetState.zero with connectivity :=
      { (default : NetConnectivity) with gatewayReachable := true, gatewayLatencyMs := 150 } }, 0)]
    [] _ [] rfl ((pushes_latency_iff _ _ _).mpr (by decide))
  simp at hpast

end NetMon.Core
