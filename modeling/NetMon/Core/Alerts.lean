import NetMon.Core.Config
import NetMon.Lib.Machine
import NetMon.Lib.Ring
import NetMon.Lib.Tokens
import NetMon.Net.State

/-!
# The alert engine

`alerts.c`: thresholds with hysteresis over the monitor's state, and a ring of the last
64 alerts. A check threads the engine's state through its sources in the order of the
source and collects what it pushes.

`alertsCheck_pushed` gives the alerts of one check from the counters before it,
`alertsCheck_log` and `alertsCheck_activeCount` what they do to the log and the counter.
-/

namespace NetMon.Core

open NetMon.Lib NetMon.Net

/-- `alert_type_t` -/
inductive AlertType where
  | ifaceDown | highBandwidth | packetErrors | packetDrops | gatewayUnreachable | dnsFailure
  | highLatency
  deriving DecidableEq, Inhabited

def AlertType.code : AlertType → Nat
  | .ifaceDown => 0
  | .highBandwidth => 1
  | .packetErrors => 2
  | .packetDrops => 3
  | .gatewayUnreachable => 4
  | .dnsFailure => 5
  | .highLatency => 6

/-- `alert_severity_t` -/
inductive AlertSeverity where
  | info | warning | critical
  deriving DecidableEq, Inhabited

def AlertSeverity.code : AlertSeverity → Nat
  | .info => 0
  | .warning => 1
  | .critical => 2

/-- `alert_entry_t` -/
structure AlertEntry where
  type : AlertType
  severity : AlertSeverity
  timestamp : UInt32
  iface : IfaceName
  message : CharArray 128
  active : Bool
  deriving DecidableEq, Inhabited

/-- `APP_ALERT_HYSTERESIS` -/
def appAlertHysteresis : Nat := 3

/-- `APP_ALERT_ERR_THRESHOLD` -/
def appAlertErrThreshold : ℚ := 10

/-- `APP_ALERT_PING_WARN_MS` -/
def appAlertPingWarnMs : ℚ := 100

/-- `APP_ALERT_PING_CRIT_MS` -/
def appAlertPingCritMs : ℚ := 500

/-- `MAX_IGNORE_IFACES` -/
def maxIgnoreIfaces : Nat := 8

/-- The statics of `alerts.c`. -/
structure Alerts where
  log : Ring AlertEntry 64
  activeCount : Nat
  hyst : Nat × AlertType → Nat
  ignoreIfaces : List IfaceName

/-- `APP_MAX_ALERTS` is not zero. -/
theorem alertLog_pos : 0 < 64 := by decide

/-! ## Initialisation -/

/-- The two loops that move `tok` and `end` towards each other over spaces; `end` stops at
`tok`. -/
def trimToken (tok : Bytes) : Bytes :=
  match tok.dropWhile (· == 32) with
  | [] => []
  | b :: rest => b :: rest.rdropWhile (· == 32)

/-- `while (tok && g_ignore_count < MAX_IGNORE_IFACES)`, with the names so far and what the next
`strtok` starts from. -/
def ignoreLoop (names : List IfaceName) (s : Bytes) : List IfaceName :=
  match _h : strtok 44 s with
  | none => names
  | some (tok, rest) =>
    if names.length < maxIgnoreIfaces then
      let tok := trimToken tok
      ignoreLoop (if tok ≠ [] then names ++ [CharArray.copy 16 (CStr.ofBytes tok)] else names) rest
    else names
termination_by s.length
decreasing_by exact (strtok_eq_some _h).2

/-- The value of `alert_ignore_ifaces`. -/
def ignoreValue (cfg : Config) : CStr :=
  configGetStr cfg (CStr.lit "alert_ignore_ifaces") CStr.empty

def alertsInit (cfg : Config) : Alerts where
  log := Ring.fresh default alertLog_pos
  activeCount := 0
  hyst := fun _ => 0
  ignoreIfaces :=
    let ignore := ignoreValue cfg
    if ignore ≠ CStr.empty then ignoreLoop [] (ignore.trunc 255).bytes else []

def isIgnoredIface (st : Alerts) (name : IfaceName) : Bool := st.ignoreIfaces.contains name

/-! ## One check -/

/-- A check under way: the state so far and the alerts pushed so far. -/
structure Sweep where
  st : Alerts
  pushed : List AlertEntry

/-- The entry `push_alert` writes. -/
def alertEntry (type : AlertType) (sev : AlertSeverity) (iface : Option IfaceName) (msg : CStr)
    (now : UInt32) : AlertEntry where
  type := type
  severity := sev
  timestamp := now
  iface := iface.getD (CharArray.blank 16)
  message := CharArray.copy 128 msg
  active := true

def pushAlert (e : AlertEntry) (w : Sweep) : Sweep where
  st := { w.st with log := w.st.log.push e, activeCount := w.st.activeCount + 1 }
  pushed := w.pushed ++ [e]

def setHyst (key : Nat × AlertType) (n : Nat) (w : Sweep) : Sweep :=
  { w with st := { w.st with hyst := Function.update w.st.hyst key n } }

/-- A source with hysteresis: a condition seen at three checks in a row pushes its alert
and starts over. -/
def guardedCheck (slot : Nat) (cond : Bool) (e : AlertEntry) (w : Sweep) : Sweep :=
  let key := (slot, e.type)
  if cond then
    let n := w.st.hyst key + 1
    if n ≥ appAlertHysteresis then setHyst key 0 (pushAlert e (setHyst key n w))
    else setHyst key n w
  else setHyst key 0 w

def ifaceIsDown (iface : NetIfaceState) : Bool := !iface.info.isUp || !iface.info.isRunning

def hasErrors (iface : NetIfaceState) : Bool :=
  iface.rates.rxErrorsPerSec + iface.rates.txErrorsPerSec > appAlertErrThreshold

def ifaceDownAlert (iface : NetIfaceState) (now : UInt32) : AlertEntry :=
  alertEntry .ifaceDown .critical (some iface.info.name) (CStr.lit "Interface is down") now

def packetErrorsAlert (iface : NetIfaceState) (now : UInt32) : AlertEntry :=
  alertEntry .packetErrors .warning (some iface.info.name) (CStr.lit "High packet error rate") now

def gatewayAlert (now : UInt32) : AlertEntry :=
  alertEntry .gatewayUnreachable .critical none (CStr.lit "Gateway unreachable") now

def dnsAlert (now : UInt32) : AlertEntry :=
  alertEntry .dnsFailure .warning none (CStr.lit "DNS resolution failed") now

/-- The body of the interface loop. -/
def checkIface (net : NetState) (now : UInt32) (w : Sweep) (i : Nat) : Sweep :=
  let iface := net.ifaces i
  if isIgnoredIface w.st iface.info.name then w
  else
    guardedCheck i (hasErrors iface) (packetErrorsAlert iface now)
      (guardedCheck i (ifaceIsDown iface) (ifaceDownAlert iface now) w)

def checkGateway (net : NetState) (now : UInt32) (w : Sweep) : Sweep :=
  guardedCheck 0 (!net.connectivity.gatewayReachable) (gatewayAlert now) w

/-- The latency alerts have no hysteresis. -/
def latencyAlerts (net : NetState) (now : UInt32) : List AlertEntry :=
  let c := net.connectivity
  if c.gatewayReachable && c.gatewayLatencyMs > appAlertPingCritMs then
    [alertEntry .highLatency .critical none (CStr.lit "Very high gateway latency") now]
  else if c.gatewayReachable && c.gatewayLatencyMs > appAlertPingWarnMs then
    [alertEntry .highLatency .warning none (CStr.lit "High gateway latency") now]
  else []

def checkLatency (net : NetState) (now : UInt32) (w : Sweep) : Sweep :=
  (latencyAlerts net now).foldl (fun w e => pushAlert e w) w

def checkDns (net : NetState) (now : UInt32) (w : Sweep) : Sweep :=
  guardedCheck 0 (!net.connectivity.dnsReachable) (dnsAlert now) w

/-- The entries in use that are still active. -/
def activeInLog (log : Ring AlertEntry 64) : Nat := log.slots.countP (·.active)

/-- `alerts_check`, the clock reading `now` being `time(NULL)`. -/
def alertsCheck (st : Alerts) (net : NetState) (now : UInt32) : Sweep :=
  let w : Sweep := ⟨{ st with activeCount := 0 }, []⟩
  let w := (List.range net.numIfaces.toNat).foldl (checkIface net now) w
  let w := checkDns net now (checkLatency net now (checkGateway net now w))
  { w with st := { w.st with activeCount := w.st.activeCount + activeInLog w.st.log } }

def alertsActiveCount (st : Alerts) : Nat := st.activeCount

def alertsClearAll (st : Alerts) : Alerts :=
  { st with log := st.log.map fun e => { e with active := false }, activeCount := 0 }

/-! ## The engine over time -/

inductive AlertOp where
  | check (net : NetState) (now : UInt32)
  | clearAll

/-- The engine under checks and dismissals; it emits what it pushes. -/
def alertEngine : Machine Alerts AlertOp AlertEntry where
  step st op :=
    match op with
    | .check net now => (alertsCheck st net now).st
    | .clearAll => alertsClearAll st
  out st op :=
    match op with
    | .check net now => (alertsCheck st net now).pushed
    | .clearAll => []

/-! ## What a check pushes -/

/-- A source's counter would reach the limit. -/
def fires (st : Alerts) (slot : Nat) (cond : Bool) (e : AlertEntry) : Bool :=
  cond && decide (appAlertHysteresis ≤ st.hyst (slot, e.type) + 1)

/-- What a guarded source pushes. -/
def guardedAlerts (st : Alerts) (slot : Nat) (cond : Bool) (e : AlertEntry) : List AlertEntry :=
  if fires st slot cond e then [e] else []

/-- What an interface row pushes. -/
def ifaceAlerts (st : Alerts) (net : NetState) (now : UInt32) (i : Nat) : List AlertEntry :=
  let iface := net.ifaces i
  if isIgnoredIface st iface.info.name then []
  else
    guardedAlerts st i (ifaceIsDown iface) (ifaceDownAlert iface now) ++
      guardedAlerts st i (hasErrors iface) (packetErrorsAlert iface now)

/-- What the sweep has done since `st`: it pushed `es`, logged and counted them, and left
the counters `keep` allows alone. -/
structure Sweep.Did (w : Sweep) (st : Alerts) (es : List AlertEntry)
    (keep : Nat × AlertType → Prop) : Prop where
  pushed : w.pushed = es
  log : w.st.log = es.foldl Ring.push st.log
  count : w.st.activeCount = es.length
  ignore : w.st.ignoreIfaces = st.ignoreIfaces
  hyst : ∀ key, keep key → w.st.hyst key = st.hyst key

theorem Sweep.Did.guardedCheck {w : Sweep} {st : Alerts} {es : List AlertEntry}
    {keep : Nat × AlertType → Prop} (h : w.Did st es keep) (slot : Nat) (cond : Bool)
    (e : AlertEntry) (hkeep : keep (slot, e.type)) :
    (guardedCheck slot cond e w).Did st (es ++ guardedAlerts st slot cond e)
      (fun key => keep key ∧ key ≠ (slot, e.type)) := by
  have hother : ∀ key n, keep key ∧ key ≠ (slot, e.type) →
      Function.update w.st.hyst (slot, e.type) n key = st.hyst key := by
    rintro key n ⟨hk, hne⟩
    rw [Function.update_of_ne hne, h.hyst key hk]
  unfold NetMon.Core.guardedCheck guardedAlerts fires
  cases cond with
  | false =>
    simp only [Bool.false_eq_true, if_false, Bool.false_and, List.append_nil]
    exact ⟨h.pushed, h.log, h.count, h.ignore, fun key hk => hother key 0 hk⟩
  | true =>
    simp only [if_true, Bool.true_and, ge_iff_le, decide_eq_true_eq, h.hyst _ hkeep]
    split
    · refine ⟨?_, ?_, ?_, h.ignore, fun key hk => ?_⟩
      · simp only [setHyst, pushAlert, h.pushed]
      · simp only [setHyst, pushAlert, h.log, List.foldl_append, List.foldl_cons, List.foldl_nil]
      · simp only [setHyst, pushAlert, h.count, List.length_append, List.length_singleton]
      · simp only [setHyst, pushAlert, Function.update_idem]
        exact hother key 0 hk
    · rw [List.append_nil]
      exact ⟨h.pushed, h.log, h.count, h.ignore, fun key hk => hother key _ hk⟩

theorem Sweep.Did.mono {w : Sweep} {st : Alerts} {es : List AlertEntry}
    {keep keep' : Nat × AlertType → Prop} (h : w.Did st es keep)
    (hk : ∀ key, keep' key → keep key) : w.Did st es keep' :=
  { h with hyst := fun key h' => h.hyst key (hk key h') }

/-- The counters the first `n` rows do not touch. -/
def Untouched (n : Nat) (key : Nat × AlertType) : Prop :=
  n ≤ key.1 ∨ (key.2 ≠ .ifaceDown ∧ key.2 ≠ .packetErrors)

theorem Sweep.Did.ifaces (st : Alerts) (net : NetState) (now : UInt32) (n : Nat) :
    ((List.range n).foldl (checkIface net now) ⟨{ st with activeCount := 0 }, []⟩).Did st
      ((List.range n).flatMap (ifaceAlerts st net now)) (Untouched n) := by
  induction n with
  | zero => exact ⟨rfl, rfl, rfl, rfl, fun _ _ => rfl⟩
  | succ n ih =>
    rw [List.range_succ, List.foldl_append, List.flatMap_append, List.foldl_cons, List.foldl_nil,
      List.flatMap_cons, List.flatMap_nil, List.append_nil]
    generalize (List.range n).foldl (checkIface net now) _ = w at ih ⊢
    unfold checkIface ifaceAlerts
    rw [show isIgnoredIface w.st = isIgnoredIface st from
      funext fun name => by rw [isIgnoredIface, ih.ignore, isIgnoredIface]]
    simp only
    split
    · rw [List.append_nil]
      exact ih.mono fun key hk => hk.imp (fun h => by omega) id
    · rw [← List.append_assoc]
      have hdown := ih.guardedCheck n (ifaceIsDown (net.ifaces n))
        (ifaceDownAlert (net.ifaces n) now) (Or.inl le_rfl)
      refine (hdown.guardedCheck n _ (packetErrorsAlert (net.ifaces n) now)
        ⟨Or.inl le_rfl, ?_⟩).mono fun key hk => ?_
      · simp [ifaceDownAlert, packetErrorsAlert, alertEntry]
      · rcases hk with hk | ⟨hk1, hk2⟩
        · exact ⟨⟨Or.inl (by omega), fun h => by rw [h] at hk; simp only at hk; omega⟩,
            fun h => by rw [h] at hk; simp only at hk; omega⟩
        · exact ⟨⟨Or.inr ⟨hk1, hk2⟩, fun h => hk1 (by rw [h]; rfl)⟩, fun h => hk2 (by rw [h]; rfl)⟩

theorem Sweep.Did.pushAll {w : Sweep} {st : Alerts} {es : List AlertEntry}
    {keep : Nat × AlertType → Prop} (h : w.Did st es keep) (new : List AlertEntry) :
    (new.foldl (fun w e => pushAlert e w) w).Did st (es ++ new) keep := by
  induction new generalizing w es with
  | nil => rwa [List.append_nil]
  | cons e new ih =>
    rw [List.foldl_cons, ← List.singleton_append, ← List.append_assoc]
    refine ih ⟨?_, ?_, ?_, h.ignore, h.hyst⟩
    · rw [pushAlert, h.pushed]
    · rw [pushAlert, List.foldl_append, ← h.log]
      rfl
    · rw [pushAlert, List.length_append, List.length_singleton, ← h.count]

/-- Everything a check pushes, from the counters before it. -/
def checkAlerts (st : Alerts) (net : NetState) (now : UInt32) : List AlertEntry :=
  (List.range net.numIfaces.toNat).flatMap (ifaceAlerts st net now) ++
    guardedAlerts st 0 (!net.connectivity.gatewayReachable) (gatewayAlert now) ++
    latencyAlerts net now ++
    guardedAlerts st 0 (!net.connectivity.dnsReachable) (dnsAlert now)

theorem Sweep.Did.check (st : Alerts) (net : NetState) (now : UInt32) :
    (checkDns net now (checkLatency net now (checkGateway net now
      ((List.range net.numIfaces.toNat).foldl (checkIface net now)
        ⟨{ st with activeCount := 0 }, []⟩)))).Did st (checkAlerts st net now)
      (fun key => Untouched net.numIfaces.toNat key ∧ key ≠ (0, .gatewayUnreachable) ∧
        key ≠ (0, .dnsFailure)) := by
  have hifaces := Sweep.Did.ifaces st net now net.numIfaces.toNat
  have hgateway := hifaces.guardedCheck 0 (!net.connectivity.gatewayReachable) (gatewayAlert now)
    (Or.inr ⟨by simp [gatewayAlert, alertEntry], by simp [gatewayAlert, alertEntry]⟩)
  have hlatency := hgateway.pushAll (latencyAlerts net now)
  have hdns := hlatency.guardedCheck 0 (!net.connectivity.dnsReachable) (dnsAlert now)
    ⟨Or.inr ⟨by simp [dnsAlert, alertEntry], by simp [dnsAlert, alertEntry]⟩,
      by simp [dnsAlert, gatewayAlert, alertEntry]⟩
  exact hdns.mono fun key h => ⟨⟨h.1, h.2.1⟩, h.2.2⟩

theorem alertsCheck_pushed (st : Alerts) (net : NetState) (now : UInt32) :
    (alertsCheck st net now).pushed = checkAlerts st net now := (Sweep.Did.check st net now).pushed

theorem alertsCheck_log (st : Alerts) (net : NetState) (now : UInt32) :
    (alertsCheck st net now).st.log = (checkAlerts st net now).foldl Ring.push st.log :=
  (Sweep.Did.check st net now).log

theorem alertsCheck_activeCount (st : Alerts) (net : NetState) (now : UInt32) :
    (alertsCheck st net now).st.activeCount =
      (checkAlerts st net now).length + activeInLog (alertsCheck st net now).st.log :=
  congrArg (· + activeInLog (alertsCheck st net now).st.log) (Sweep.Did.check st net now).count

end NetMon.Core
