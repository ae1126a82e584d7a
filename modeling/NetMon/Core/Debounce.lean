import NetMon.Core.Alerts
import NetMon.Lib.RunLength

/-!
# The debounce of the guarded alerts

The sources with hysteresis (an interface that is down or has errors, the gateway, DNS)
share a two-dimensional array of counters. `alertsCheck_hyst` is what a check does to the
counter of one source, `checkAlerts_guarded` what it pushes for all of them.
-/

namespace NetMon.Core

open NetMon.Lib NetMon.Net

/-- A source of alerts with hysteresis. -/
inductive GuardedSource where
  | ifaceDown (row : Nat)
  | packetErrors (row : Nat)
  | gateway
  | dns
  deriving DecidableEq

namespace GuardedSource

/-- Where the source's counter is kept: the global ones share row 0 with the first
interface. -/
def key : GuardedSource → Nat × AlertType
  | ifaceDown row => (row, .ifaceDown)
  | packetErrors row => (row, .packetErrors)
  | gateway => (0, .gatewayUnreachable)
  | dns => (0, .dnsFailure)

def condition (net : NetState) : GuardedSource → Bool
  | ifaceDown row => ifaceIsDown (net.ifaces row)
  | packetErrors row => hasErrors (net.ifaces row)
  | gateway => !net.connectivity.gatewayReachable
  | dns => !net.connectivity.dnsReachable

def alert (net : NetState) (now : UInt32) : GuardedSource → AlertEntry
  | ifaceDown row => ifaceDownAlert (net.ifaces row) now
  | packetErrors row => packetErrorsAlert (net.ifaces row) now
  | gateway => gatewayAlert now
  | dns => dnsAlert now

/-- The row is in the table and its interface is not to be ignored. -/
def rowWatched (ignore : List IfaceName) (net : NetState) (row : Nat) : Bool :=
  decide ((row : Int) < net.numIfaces) && !ignore.contains (net.ifaces row).info.name

/-- A check looks at the source. -/
def watched (ignore : List IfaceName) (net : NetState) : GuardedSource → Bool
  | ifaceDown row => rowWatched ignore net row
  | packetErrors row => rowWatched ignore net row
  | gateway => true
  | dns => true

/-- The source's counter reaches the limit at a check of `net`. -/
def due (st : Alerts) (net : NetState) (src : GuardedSource) : Bool :=
  src.watched st.ignoreIfaces net &&
    (src.condition net && decide (appAlertHysteresis ≤ st.hyst src.key + 1))

theorem alert_type (net : NetState) (now : UInt32) (src : GuardedSource) :
    (src.alert net now).type = src.key.2 := by cases src <;> rfl

theorem alert_guarded (net : NetState) (now : UInt32) (src : GuardedSource) :
    (src.alert net now).type ≠ .highLatency := by
  cases src <;> simp [alert, ifaceDownAlert, packetErrorsAlert, gatewayAlert, dnsAlert, alertEntry]

end GuardedSource

open GuardedSource

/-- The sources in the order a check goes through them. -/
def guardedSources (net : NetState) : List GuardedSource :=
  (List.range net.numIfaces.toNat).flatMap (fun row => [.ifaceDown row, .packetErrors row]) ++
    [.gateway, .dns]

theorem ifaceDown_mem_sources {net : NetState} {row : Nat} :
    .ifaceDown row ∈ guardedSources net ↔ (row : Int) < net.numIfaces := by
  simp [guardedSources]

/-! ## What a check does to one counter -/

theorem guardedCheck_hyst (slot : Nat) (cond : Bool) (e : AlertEntry) (w : Sweep) :
    (guardedCheck slot cond e w).st.hyst = Function.update w.st.hyst (slot, e.type)
      (countUp appAlertHysteresis cond (w.st.hyst (slot, e.type))) := by
  unfold guardedCheck countUp
  cases cond with
  | false => rfl
  | true =>
    simp only [if_true]
    split
    · exact Function.update_idem ..
    · rfl

/-- The body of the interface loop leaves the counters of the other rows alone. -/
theorem checkIface_hyst_of_ne (net : NetState) (now : UInt32) (w : Sweep) {i : Nat}
    {key : Nat × AlertType} (h : key.1 ≠ i) :
    (checkIface net now w i).st.hyst key = w.st.hyst key := by
  have hne : ∀ t : AlertType, key ≠ (i, t) := fun t heq => h (congrArg Prod.fst heq)
  unfold checkIface
  simp only
  split
  · rfl
  · rw [guardedCheck_hyst, Function.update_of_ne (hne _), guardedCheck_hyst,
      Function.update_of_ne (hne _)]

/-- The counters of its own row it moves on, each by its own condition. -/
theorem checkIface_hyst_self (net : NetState) (now : UInt32) (w : Sweep) (i : Nat)
    {src : GuardedSource} (hsrc : src = .ifaceDown i ∨ src = .packetErrors i) :
    (checkIface net now w i).st.hyst src.key =
      if isIgnoredIface w.st (net.ifaces i).info.name then w.st.hyst src.key
      else countUp appAlertHysteresis (src.condition net) (w.st.hyst src.key) := by
  unfold checkIface
  simp only
  split
  · rfl
  · rw [guardedCheck_hyst, guardedCheck_hyst]
    rcases hsrc with rfl | rfl
    · have hne : key (.ifaceDown i) ≠ (i, (packetErrorsAlert (net.ifaces i) now).type) := by
        simp [key, packetErrorsAlert, alertEntry]
      rw [Function.update_of_ne hne]
      exact Function.update_self ..
    · have hne : key (.packetErrors i) ≠ (i, (ifaceDownAlert (net.ifaces i) now).type) := by
        simp [key, ifaceDownAlert, alertEntry]
      exact (Function.update_self ..).trans
        (congrArg (countUp _ _) (Function.update_of_ne hne ..))

/-- The counters after the first `n` rows. -/
theorem ifaces_hyst (st : Alerts) (net : NetState) (now : UInt32) (n : Nat) {i : Nat}
    {src : GuardedSource} (hsrc : src = .ifaceDown i ∨ src = .packetErrors i) :
    ((List.range n).foldl (checkIface net now) ⟨{ st with activeCount := 0 }, []⟩).st.hyst src.key =
      if i < n ∧ isIgnoredIface st (net.ifaces i).info.name = false then
        countUp appAlertHysteresis (src.condition net) (st.hyst src.key)
      else st.hyst src.key := by
  have hrow : src.key.1 = i := by rcases hsrc with rfl | rfl <;> rfl
  induction n with
  | zero => rw [if_neg (by simp)]; rfl
  | succ n ih =>
    have hdid := Sweep.Did.ifaces st net now n
    rw [List.range_succ, List.foldl_append, List.foldl_cons, List.foldl_nil]
    generalize (List.range n).foldl (checkIface net now) _ = w at ih hdid ⊢
    rcases Nat.lt_trichotomy i n with hlt | rfl | hgt
    · rw [checkIface_hyst_of_ne net now w (by omega), ih]
      simp [hlt, Nat.lt_succ_of_lt hlt]
    · rw [checkIface_hyst_self net now w i hsrc, ih, isIgnoredIface, hdid.ignore, isIgnoredIface]
      cases st.ignoreIfaces.contains (net.ifaces i).info.name <;> simp
    · rw [checkIface_hyst_of_ne net now w (by omega), ih]
      rw [if_neg (by omega), if_neg (by omega)]

theorem foldl_pushAlert_hyst (es : List AlertEntry) (w : Sweep) :
    (es.foldl (fun w e => pushAlert e w) w).st.hyst = w.st.hyst := by
  induction es generalizing w with
  | nil => rfl
  | cons e es ih => exact ih (pushAlert e w)

/-- The counters after a check, from those after the interface loop. -/
theorem alertsCheck_hyst_eq (st : Alerts) (net : NetState) (now : UInt32) :
    let loop := ((List.range net.numIfaces.toNat).foldl (checkIface net now)
      ⟨{ st with activeCount := 0 }, []⟩).st.hyst
    let next := fun src : GuardedSource =>
      countUp appAlertHysteresis (src.condition net) (loop src.key)
    (alertsCheck st net now).st.hyst =
      Function.update (Function.update loop (key .gateway) (next .gateway)) (key .dns)
        (next .dns) := by
  intro loop next
  have hgateway : (checkGateway net now ((List.range net.numIfaces.toNat).foldl
      (checkIface net now) ⟨{ st with activeCount := 0 }, []⟩)).st.hyst =
        Function.update loop (key .gateway) (next .gateway) := guardedCheck_hyst ..
  unfold alertsCheck checkDns checkLatency
  simp only
  rw [guardedCheck_hyst, foldl_pushAlert_hyst, hgateway]
  -- the gateway's counter is not the one of DNS
  have hdns : Function.update loop (key .gateway) (next .gateway) (key .dns) = loop (key .dns) :=
    Function.update_of_ne (by decide) ..
  rw [show (0, (dnsAlert now).type) = key .dns from rfl, hdns]
  rfl

/-- A check moves the counter of every source it looks at on by that source's own
condition, and leaves the counters of the others alone. -/
theorem alertsCheck_hyst (st : Alerts) (net : NetState) (now : UInt32) (src : GuardedSource) :
    (alertsCheck st net now).st.hyst src.key = if src.watched st.ignoreIfaces net then
      countUp appAlertHysteresis (src.condition net) (st.hyst src.key)
    else st.hyst src.key := by
  have hkeep := (Sweep.Did.ifaces st net now net.numIfaces.toNat).hyst
  have hrow : ∀ i, src = .ifaceDown i ∨ src = .packetErrors i →
      src.watched st.ignoreIfaces net = rowWatched st.ignoreIfaces net i := by
    rintro i (rfl | rfl) <;> rfl
  have hiface : ∀ i, src = .ifaceDown i ∨ src = .packetErrors i → src.key ≠ key .dns →
      src.key ≠ key .gateway → (alertsCheck st net now).st.hyst src.key =
        if src.watched st.ignoreIfaces net then
          countUp appAlertHysteresis (src.condition net) (st.hyst src.key)
        else st.hyst src.key := by
    intro i hi hdns hgateway
    rw [alertsCheck_hyst_eq]
    simp only
    rw [Function.update_of_ne hdns, Function.update_of_ne hgateway,
      ifaces_hyst st net now net.numIfaces.toNat hi, hrow i hi, rowWatched]
    simp only [isIgnoredIface, Bool.and_eq_true, decide_eq_true_eq, Bool.not_eq_true',
      Int.lt_toNat]
  cases src with
  | ifaceDown i => exact hiface i (Or.inl rfl) (by simp [key]) (by simp [key])
  | packetErrors i => exact hiface i (Or.inr rfl) (by simp [key]) (by simp [key])
  | gateway =>
    rw [alertsCheck_hyst_eq]
    simp only
    rw [Function.update_of_ne (by decide), Function.update_self,
      hkeep (key .gateway) (Or.inr (by decide))]
    rfl
  | dns =>
    rw [alertsCheck_hyst_eq]
    simp only
    rw [Function.update_self, hkeep (key .dns) (Or.inr (by decide))]
    rfl

theorem alertsCheck_ignore (st : Alerts) (net : NetState) (now : UInt32) :
    (alertsCheck st net now).st.ignoreIfaces = st.ignoreIfaces :=
  (Sweep.Did.check st net now).ignore

/-! ## What a check pushes -/

/-- The sources' alerts, as far as they are due. -/
def dueAlerts (st : Alerts) (net : NetState) (now : UInt32) (srcs : List GuardedSource) :
    List AlertEntry := (srcs.filter (due st net)).map (alert net now)

theorem dueAlerts_append (st : Alerts) (net : NetState) (now : UInt32)
    (a b : List GuardedSource) :
    dueAlerts st net now (a ++ b) = dueAlerts st net now a ++ dueAlerts st net now b := by
  rw [dueAlerts, List.filter_append, List.map_append]
  rfl

theorem guardedAlerts_eq {st : Alerts} {net : NetState} (now : UInt32) (src : GuardedSource)
    (h : src.watched st.ignoreIfaces net = true) :
    guardedAlerts st src.key.1 (src.condition net) (src.alert net now) =
      dueAlerts st net now [src] := by
  have hfires : fires st src.key.1 (src.condition net) (src.alert net now) = due st net src := by
    unfold fires due
    rw [h, alert_type, Bool.true_and]
  unfold guardedAlerts dueAlerts
  rw [hfires, List.filter_cons, List.filter_nil]
  cases due st net src <;> rfl

theorem ifaceAlerts_eq (st : Alerts) (net : NetState) (now : UInt32) {i : Nat}
    (hi : (i : Int) < net.numIfaces) :
    ifaceAlerts st net now i = dueAlerts st net now [.ifaceDown i, .packetErrors i] := by
  rw [show [GuardedSource.ifaceDown i, .packetErrors i] = [.ifaceDown i] ++ [.packetErrors i] from
    rfl, dueAlerts_append]
  cases hign : isIgnoredIface st (net.ifaces i).info.name with
  | true =>
    have hw : rowWatched st.ignoreIfaces net i = false := by
      rw [isIgnoredIface] at hign
      rw [rowWatched, hign, Bool.not_true, Bool.and_false]
    have hdown : due st net (.ifaceDown i) = false := by rw [due, watched, hw, Bool.false_and]
    have herrs : due st net (.packetErrors i) = false := by rw [due, watched, hw, Bool.false_and]
    simp only [ifaceAlerts, hign, dueAlerts, List.filter_cons, hdown, herrs]
    rfl
  | false =>
    have hw : rowWatched st.ignoreIfaces net i = true := by
      rw [isIgnoredIface] at hign
      rw [rowWatched, hign, decide_eq_true hi]
      rfl
    simp only [ifaceAlerts, hign]
    rw [← guardedAlerts_eq now (.ifaceDown i) hw,
      ← guardedAlerts_eq now (.packetErrors i) hw]
    rfl

/-- Everything a check pushes, by source. -/
theorem checkAlerts_eq (st : Alerts) (net : NetState) (now : UInt32) :
    checkAlerts st net now = dueAlerts st net now ((List.range net.numIfaces.toNat).flatMap
        fun row => [.ifaceDown row, .packetErrors row]) ++
      dueAlerts st net now [.gateway] ++ latencyAlerts net now ++ dueAlerts st net now [.dns] := by
  have hrows : (List.range net.numIfaces.toNat).flatMap (ifaceAlerts st net now) =
      dueAlerts st net now ((List.range net.numIfaces.toNat).flatMap
        fun row => [.ifaceDown row, .packetErrors row]) := by
    rw [dueAlerts, List.filter_flatMap, List.map_flatMap]
    apply List.flatMap_congr
    intro i hi
    rw [List.mem_range, Int.lt_toNat] at hi
    exact ifaceAlerts_eq st net now hi
  unfold checkAlerts
  rw [hrows, ← guardedAlerts_eq now .gateway rfl,
    ← guardedAlerts_eq now .dns rfl]
  rfl

/-- There is at most one latency alert. -/
theorem latencyAlerts_cases (net : NetState) (now : UInt32) : latencyAlerts net now = [] ∨
    ∃ sev msg, latencyAlerts net now = [alertEntry .highLatency sev none msg now] := by
  unfold latencyAlerts
  simp only
  split
  · exact Or.inr ⟨_, _, rfl⟩
  · split
    · exact Or.inr ⟨_, _, rfl⟩
    · exact Or.inl rfl

theorem mem_latencyAlerts {net : NetState} {now : UInt32} {e : AlertEntry}
    (he : e ∈ latencyAlerts net now) :
    ∃ sev msg, e = alertEntry .highLatency sev none msg now := by
  rcases latencyAlerts_cases net now with hnil | ⟨sev, msg, hone⟩
  · rw [hnil] at he
    cases he
  · rw [hone] at he
    exact ⟨sev, msg, List.mem_singleton.mp he⟩

/-- The guarded alerts of a check are those of the sources that are due, in order. -/
theorem checkAlerts_guarded (st : Alerts) (net : NetState) (now : UInt32) :
    (checkAlerts st net now).filter (fun e => e.type ≠ .highLatency) =
      dueAlerts st net now (guardedSources net) := by
  have hguarded : ∀ srcs, (dueAlerts st net now srcs).filter (fun e => e.type ≠ .highLatency) =
      dueAlerts st net now srcs := by
    intro srcs
    refine List.filter_eq_self.mpr fun e he => decide_eq_true ?_
    obtain ⟨src, -, rfl⟩ := List.mem_map.mp he
    exact alert_guarded net now src
  have hlatency : (latencyAlerts net now).filter (fun e => e.type ≠ .highLatency) = [] := by
    apply List.filter_eq_nil_iff.mpr
    intro e he
    obtain ⟨sev, msg, rfl⟩ := mem_latencyAlerts he
    simp [alertEntry]
  rw [checkAlerts_eq]
  simp only [List.filter_append, hguarded, hlatency, List.append_nil]
  rw [← dueAlerts_append, ← dueAlerts_append, List.append_assoc]
  rfl

/-- A source that is due has its alert pushed. -/
theorem alert_mem_checkAlerts {st : Alerts} {net : NetState} {src : GuardedSource}
    (now : UInt32) (hsrc : src ∈ guardedSources net) (hdue : due st net src = true) :
    src.alert net now ∈ checkAlerts st net now := by
  have hmem : src.alert net now ∈ dueAlerts st net now (guardedSources net) :=
    List.mem_map_of_mem (List.mem_filter.mpr ⟨hsrc, hdue⟩)
  rw [← checkAlerts_guarded] at hmem
  exact List.mem_of_mem_filter hmem

end NetMon.Core
