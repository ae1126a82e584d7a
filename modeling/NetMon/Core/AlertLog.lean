import NetMon.Core.AlertCounter
import NetMon.Core.AlertRuns

/-!
# The active entries of the alert log

Nothing keeps a source that fires again from being logged a second time while its entry is
still active. `noRepeat_iff` says at which checks no such entry is added, and
`oneActive_iff` for which runs the log never has two active entries of one pair.
-/

namespace NetMon.Core

open NetMon.Lib NetMon.Net GuardedSource

/-- What an alert is about. -/
def AlertEntry.pair (e : AlertEntry) : AlertType × IfaceName := (e.type, e.iface)

/-- The pairs of the entries that are still active, in memory order. -/
def activePairs (log : Ring AlertEntry 64) : List (AlertType × IfaceName) :=
  (log.slots.filter (·.active)).map AlertEntry.pair

/-- At most one active entry for each type and interface. -/
def OneActive (st : Alerts) : Prop := (activePairs st.log).Nodup

/-- The call logs no further copy of an active entry, nor two alerts of one pair. -/
structure NoRepeat (st : Alerts) (op : AlertOp) : Prop where
  distinct : ((alertEngine.out st op).map AlertEntry.pair).Nodup
  fresh : ∀ e ∈ alertEngine.out st op, e.pair ∉ activePairs st.log

instance (st : Alerts) : Decidable (OneActive st) := inferInstanceAs (Decidable (List.Nodup _))

/-- What a source's alert is about. -/
def GuardedSource.pair (net : NetState) (src : GuardedSource) : AlertType × IfaceName :=
  (src.alert net 0).pair

theorem alert_pair (net : NetState) (now : UInt32) (src : GuardedSource) :
    (src.alert net now).pair = src.pair net := by cases src <;> rfl

/-- What the latency alerts are about. -/
def latencyPair : AlertType × IfaceName := (.highLatency, CharArray.blank 16)

/-- A check at which no source is due whose alert is still active, and no two rows of one
name are due for the same reason. -/
structure FreshCheck (st : Alerts) (net : NetState) : Prop where
  guarded : ∀ src ∈ guardedSources net, due st net src = true → src.pair net ∉ activePairs st.log
  latency : net.connectivity.gatewayReachable = true →
    appAlertPingWarnMs < net.connectivity.gatewayLatencyMs → latencyPair ∉ activePairs st.log
  rows : ∀ src ∈ guardedSources net, due st net src = true →
    ∀ src' ∈ guardedSources net, due st net src' = true → src.pair net = src'.pair net → src = src'

/-- A call that is fresh: a dismissal always is. -/
def FreshOp (st : Alerts) : AlertOp → Prop
  | .check net _ => FreshCheck st net
  | .clearAll => True

/-! ## What a check adds -/

theorem guardedSources_nodup (net : NetState) : (guardedSources net).Nodup := by
  unfold guardedSources
  refine List.nodup_append.mpr ⟨?_, by decide, fun a ha b hb => ?_⟩
  · rw [List.nodup_flatMap]
    refine ⟨fun row _ => by simp, List.nodup_range.imp fun hne => ?_⟩
    simp [Function.onFun, hne.symm]
  · obtain ⟨row, -, hrow⟩ := List.mem_flatMap.mp ha
    rcases List.mem_pair.mp hrow with rfl | rfl <;> rcases List.mem_pair.mp hb with rfl | rfl <;>
      simp

/-- The alerts of a check are those of the sources due and of the latency. -/
theorem checkAlerts_perm (st : Alerts) (net : NetState) (now : UInt32) :
    (checkAlerts st net now).Perm
      (dueAlerts st net now (guardedSources net) ++ latencyAlerts net now) := by
  rw [checkAlerts_eq, guardedSources, show [GuardedSource.gateway, .dns] = [.gateway] ++ [.dns] from
    rfl, dueAlerts_append, dueAlerts_append]
  simp only [List.append_assoc]
  exact (List.perm_append_comm.append_left _).append_left _

theorem mem_checkAlerts {st : Alerts} {net : NetState} {now : UInt32} {e : AlertEntry} :
    e ∈ checkAlerts st net now ↔
      (∃ src ∈ guardedSources net, due st net src = true ∧ src.alert net now = e) ∨
        e ∈ latencyAlerts net now := by
  rw [(checkAlerts_perm st net now).mem_iff, List.mem_append, dueAlerts, List.mem_map]
  simp only [List.mem_filter, and_assoc]

theorem latencyAlerts_ne_nil {net : NetState} {now : UInt32} : latencyAlerts net now ≠ [] ↔
    net.connectivity.gatewayReachable = true ∧
      appAlertPingWarnMs < net.connectivity.gatewayLatencyMs := by
  rw [Ne, latencyAlerts_eq_nil, Classical.not_imp, not_le]

theorem mem_latencyAlerts_pair {net : NetState} {now : UInt32} {e : AlertEntry}
    (he : e ∈ latencyAlerts net now) : e.pair = latencyPair := by
  obtain ⟨sev, msg, rfl⟩ := mem_latencyAlerts he
  rfl

/-- A source's alert is not about the latency. -/
theorem pair_ne_latency (net : NetState) (src : GuardedSource) : src.pair net ≠ latencyPair :=
  fun h => alert_guarded net 0 src (congrArg Prod.fst h)

theorem dueAlerts_pairs (st : Alerts) (net : NetState) (now : UInt32) (srcs : List GuardedSource) :
    (dueAlerts st net now srcs).map AlertEntry.pair =
      (srcs.filter (due st net)).map (GuardedSource.pair net) := by
  rw [dueAlerts, List.map_map]
  exact List.map_congr_left fun src _ => alert_pair net now src

/-- A check logs two alerts of one pair only through two rows of one name. -/
theorem checkAlerts_pairs_nodup (st : Alerts) (net : NetState) (now : UInt32) :
    ((checkAlerts st net now).map AlertEntry.pair).Nodup ↔
      ∀ src ∈ guardedSources net, due st net src = true →
        ∀ src' ∈ guardedSources net, due st net src' = true →
          src.pair net = src'.pair net → src = src' := by
  have hguarded : ((dueAlerts st net now (guardedSources net)).map AlertEntry.pair).Nodup ↔
      ∀ src ∈ guardedSources net, due st net src = true →
        ∀ src' ∈ guardedSources net, due st net src' = true →
          src.pair net = src'.pair net → src = src' := by
    rw [dueAlerts_pairs, List.nodup_map_iff_inj_on ((guardedSources_nodup net).filter _)]
    simp only [List.mem_filter, and_imp]
  rw [((checkAlerts_perm st net now).map _).nodup_iff, List.map_append, ← hguarded]
  rcases latencyAlerts_cases net now with hnil | ⟨sev, msg, hone⟩
  · rw [hnil, List.map_nil, List.append_nil]
  · rw [hone, List.map_singleton, show (alertEntry _ sev _ msg now).pair = latencyPair from rfl]
    refine ⟨fun h => (List.nodup_append.mp h).1, fun h => List.nodup_append.mpr ⟨h, by simp, ?_⟩⟩
    intro p hp q hq
    rw [dueAlerts_pairs] at hp
    obtain ⟨src, -, rfl⟩ := List.mem_map.mp hp
    rw [List.mem_singleton.mp hq]
    exact pair_ne_latency net src

/-- A call repeats nothing exactly when it is fresh. -/
theorem noRepeat_iff (st : Alerts) (op : AlertOp) : NoRepeat st op ↔ FreshOp st op := by
  cases op with
  | clearAll => exact ⟨fun _ => trivial, fun _ => ⟨List.nodup_nil, fun e he => by cases he⟩⟩
  | check net now =>
    have hout : alertEngine.out st (.check net now) = checkAlerts st net now :=
      alertsCheck_pushed st net now
    constructor
    · rintro ⟨hdistinct, hfresh⟩
      rw [hout] at hdistinct hfresh
      refine ⟨fun src hsrc hdue => ?_, fun hreach hhigh => ?_,
        (checkAlerts_pairs_nodup st net now).mp hdistinct⟩
      · rw [← alert_pair net now src]
        exact hfresh _ (mem_checkAlerts.mpr (Or.inl ⟨src, hsrc, hdue, rfl⟩))
      · obtain ⟨e, he⟩ := List.exists_mem_of_ne_nil _ (latencyAlerts_ne_nil.mpr ⟨hreach, hhigh⟩)
        rw [← mem_latencyAlerts_pair he]
        exact hfresh e (mem_checkAlerts.mpr (Or.inr he))
    · rintro ⟨hguarded, hlatency, hrows⟩
      refine ⟨?_, fun e he => ?_⟩
      · rw [hout]
        exact (checkAlerts_pairs_nodup st net now).mpr hrows
      · rw [hout] at he
        rcases mem_checkAlerts.mp he with ⟨src, hsrc, hdue, rfl⟩ | he
        · rw [alert_pair]
          exact hguarded src hsrc hdue
        · obtain ⟨hreach, hhigh⟩ := latencyAlerts_ne_nil.mp (List.ne_nil_of_mem he)
          rw [mem_latencyAlerts_pair he]
          exact hlatency hreach hhigh

/-! ## The log over runs -/

/-- The ring's entries are where a walk from the head expects them. -/
theorem step_packed (st : Alerts) (op : AlertOp) (h : st.log.Packed) :
    (alertEngine.step st op).log.Packed := by
  cases op with
  | clearAll => exact Ring.map_packed h _
  | check net now =>
    show (alertsCheck st net now).st.log.Packed
    rw [alertsCheck_log]
    exact Ring.foldl_push_packed h _

/-- The active pairs in the order the alerts were logged. -/
theorem activePairs_perm (log : Ring AlertEntry 64) :
    (activePairs log).Perm ((log.recent.filter (·.active)).map AlertEntry.pair) :=
  ((log.recent_perm.symm.filter _).map _)

theorem activePairs_cleared (st : Alerts) : activePairs (alertsClearAll st).log = [] := by
  unfold activePairs alertsClearAll
  rw [Ring.map_slots, List.filter_map]
  simp

/-- Alerts that repeat nothing leave at most one active entry for each pair. -/
theorem oneActive_step {st : Alerts} {op : AlertOp} (hpacked : st.log.Packed) (h : OneActive st)
    (hnew : NoRepeat st op) : OneActive (alertEngine.step st op) := by
  cases op with
  | clearAll =>
    show (activePairs (alertsClearAll st).log).Nodup
    rw [activePairs_cleared]
    exact List.nodup_nil
  | check net now =>
    obtain ⟨hdistinct, hfresh⟩ := hnew
    have hlog : (alertEngine.step st (.check net now)).log.recent =
        (st.log.recent ++ alertEngine.out st (.check net now)).rtake 64 := by
      show (alertsCheck st net now).st.log.recent = _
      rw [alertsCheck_log, Ring.foldl_push_recent hpacked, ← alertsCheck_pushed]
      rfl
    have hall : (((st.log.recent ++ alertEngine.out st (.check net now)).filter (·.active)).map
        AlertEntry.pair).Nodup := by
      rw [List.filter_append, List.map_append]
      refine List.nodup_append.mpr ⟨(activePairs_perm st.log).nodup_iff.mp h,
        hdistinct.sublist (List.filter_sublist.map _), fun p hp q hq => ?_⟩
      obtain ⟨e, he, rfl⟩ := List.mem_map.mp hq
      rintro rfl
      exact hfresh e (List.mem_of_mem_filter he) ((activePairs_perm st.log).mem_iff.mpr hp)
    rw [OneActive, (activePairs_perm _).nodup_iff, hlog]
    exact hall.sublist (((List.drop_sublist _ _).filter _).map _)

/-- **One active alert per condition.** Through a run of checks and dismissals the log never
has two active entries of one pair and no check logs a copy of one, exactly when every
check is fresh. -/
theorem oneActive_iff (cfg : Config) (ops : List AlertOp) :
    (alertEngine.After OneActive (alertsInit cfg) ops ∧
      alertEngine.Along NoRepeat (alertsInit cfg) ops) ↔
    alertEngine.Along FreshOp (alertsInit cfg) ops := by
  have hsame : alertEngine.Along NoRepeat (alertsInit cfg) ops ↔
      alertEngine.Along FreshOp (alertsInit cfg) ops :=
    alertEngine.along_congr (I := fun _ => True) (fun _ _ _ _ => trivial)
      (fun st op _ => noRepeat_iff st op) trivial ops
  rw [← hsame]
  refine ⟨fun h => h.2, fun h => ⟨?_, h⟩⟩
  have hinit : (alertsInit cfg).log.Packed ∧ OneActive (alertsInit cfg) :=
    ⟨Ring.fresh_packed _ _, List.nodup_nil⟩
  have hrun := alertEngine.after_of_along (Q := fun st => st.log.Packed ∧ OneActive st)
    (fun st op hst hnew => ⟨step_packed st op hst.1, oneActive_step hst.1 hst.2 hnew⟩) hinit h
  exact hrun.mono fun _ _ hst => hst.2

/-- An outage that goes on for six checks: the gateway and DNS are logged twice each, and
all four entries are active. -/
theorem outage_logged_twice :
    let ops := List.replicate 6 (AlertOp.check NetState.zero 10)
    (activePairs (alertEngine.exec (alertsInit Config.empty) ops).log).map Prod.fst =
      [.gatewayUnreachable, .dnsFailure, .gatewayUnreachable, .dnsFailure] ∧
    ¬ alertEngine.After OneActive (alertsInit Config.empty) ops := by
  refine ⟨by decide +kernel, fun h => ?_⟩
  have hlast : OneActive (alertEngine.exec (alertsInit Config.empty)
      (List.replicate 6 (AlertOp.check NetState.zero 10))) := h.2.2.2.2.2.1
  exact absurd hlast (by decide +kernel)

end NetMon.Core
