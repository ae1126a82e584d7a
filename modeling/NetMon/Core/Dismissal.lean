import NetMon.Core.AlertLog

/-!
# Dismissal

No check ever clears an entry's active flag. What a run of checks has logged is a function
of the states the checks have seen (`raised`), and the log holds the last 64 alerts of it,
all active (`log_of_checks`, `log_active`). So an alert whose condition is gone is off
the log exactly when 64 others have been raised since (`dismissed_iff`).
-/

namespace NetMon.Core

open NetMon.Lib NetMon.Net GuardedSource

/-! ## The rule -/

/-- The alerts of the sources whose condition has now held at a positive multiple of three
checks in a row. -/
def repeatedAlerts (ignore : List IfaceName) (past : List Check) (c : Check)
    (srcs : List GuardedSource) : List AlertEntry :=
  (srcs.filter fun src => src.watched ignore c.1 && src.repeated ignore (past ++ [c])).map
    (alert c.1 c.2)

/-- What the rules of debouncing raise at a check, from the states the checks have seen. -/
def raisedAt (ignore : List IfaceName) (past : List Check) (c : Check) : List AlertEntry :=
  repeatedAlerts ignore past c ((List.range c.1.numIfaces.toNat).flatMap
      fun row => [.ifaceDown row, .packetErrors row]) ++
    repeatedAlerts ignore past c [.gateway] ++ latencyAlerts c.1 c.2 ++
    repeatedAlerts ignore past c [.dns]

/-- What they raise at the checks `cs` that follow those in `past`. -/
def raised (ignore : List IfaceName) (past : List Check) : List Check → List AlertEntry
  | [] => []
  | c :: cs => raisedAt ignore past c ++ raised ignore (past ++ [c]) cs

/-- The condition of a pair: the interface rows of its name for the interface alerts. No
source raises the other two. -/
def conditionOf (net : NetState) (pair : AlertType × IfaceName) : Bool :=
  match pair.1 with
  | .ifaceDown => net.rows.any fun r => r.info.name = pair.2 && ifaceIsDown r
  | .packetErrors => net.rows.any fun r => r.info.name = pair.2 && hasErrors r
  | .gatewayUnreachable => !net.connectivity.gatewayReachable
  | .dnsFailure => !net.connectivity.dnsReachable
  | .highLatency => net.connectivity.gatewayReachable &&
      decide (appAlertPingWarnMs < net.connectivity.gatewayLatencyMs)
  | .highBandwidth => false
  | .packetDrops => false

/-- The pair's condition has been false at the last three checks, or more. -/
def FalseAtLast (cs : List Check) (pair : AlertType × IfaceName) : Prop :=
  ∃ past last, cs = past ++ last ∧ appAlertHysteresis ≤ last.length ∧
    ∀ c ∈ last, conditionOf c.1 pair = false

/-- Then no entry of the pair is active. -/
def Dismissed (cfg : Config) (cs : List Check) (pair : AlertType × IfaceName) : Prop :=
  FalseAtLast cs pair → ∀ e ∈ (afterChecks cfg cs).log.slots, e.pair = pair → e.active = false

/-! ## The engine follows the rule -/

theorem dueAlerts_of_run (cfg : Config) (past : List Check) (c : Check)
    (srcs : List GuardedSource) : dueAlerts (afterChecks cfg past) c.1 c.2 srcs =
      repeatedAlerts (ignoreList cfg) past c srcs := by
  unfold dueAlerts repeatedAlerts
  congr 1
  exact List.filter_congr fun src _ => due_iff cfg past c src

/-- A check of a run pushes what the rule raises. -/
theorem checkAlerts_of_run (cfg : Config) (past : List Check) (c : Check) :
    checkAlerts (afterChecks cfg past) c.1 c.2 = raisedAt (ignoreList cfg) past c := by
  rw [checkAlerts_eq]
  simp only [dueAlerts_of_run]
  rfl

theorem afterChecks_packed (cfg : Config) (cs : List Check) :
    (afterChecks cfg cs).log.Packed :=
  alertEngine.exec_inv (P := fun st => st.log.Packed) (fun st op h => step_packed st op h)
    (Ring.fresh_packed _ _) _

/-- A run of checks logs what the rule raises. -/
theorem log_append (cfg : Config) (past cs : List Check) :
    (afterChecks cfg (past ++ cs)).log.recent =
      ((afterChecks cfg past).log.recent ++ raised (ignoreList cfg) past cs).rtake 64 := by
  induction cs generalizing past with
  | nil =>
    rw [raised, List.append_nil, List.append_nil, List.rtake,
      Nat.sub_eq_zero_of_le (Ring.recent_length_le _)]
    rfl
  | cons c cs ih =>
    have hcheck : (afterChecks cfg (past ++ [c])).log.recent =
        ((afterChecks cfg past).log.recent ++ raisedAt (ignoreList cfg) past c).rtake 64 := by
      rw [afterChecks_concat, alertsCheck_log, Ring.foldl_push_recent (afterChecks_packed cfg past),
        checkAlerts_of_run]
    rw [List.append_cons, ih, hcheck, Ring.rtake_append_rtake, raised, List.append_assoc]

/-- After a run of checks the log holds the last 64 alerts the rule has raised. -/
theorem log_of_checks (cfg : Config) (cs : List Check) :
    (afterChecks cfg cs).log.recent = (raised (ignoreList cfg) [] cs).rtake 64 :=
  log_append cfg [] cs

theorem raisedAt_active {ignore : List IfaceName} {past : List Check} {c : Check}
    {e : AlertEntry} (he : e ∈ raisedAt ignore past c) : e.active = true := by
  have hrepeated : ∀ srcs, e ∈ repeatedAlerts ignore past c srcs → e.active = true := by
    intro srcs he
    obtain ⟨src, -, rfl⟩ := List.mem_map.mp he
    cases src <;> rfl
  simp only [raisedAt, List.mem_append] at he
  rcases he with ((he | he) | he) | he
  · exact hrepeated _ he
  · exact hrepeated _ he
  · obtain ⟨sev, msg, rfl⟩ := mem_latencyAlerts he
    rfl
  · exact hrepeated _ he

theorem raised_active {ignore : List IfaceName} {past cs : List Check} {e : AlertEntry}
    (he : e ∈ raised ignore past cs) : e.active = true := by
  induction cs generalizing past with
  | nil => cases he
  | cons c cs ih =>
    rcases List.mem_append.mp he with he | he
    · exact raisedAt_active he
    · exact ih he

/-- No check dismisses anything: every entry of the log is active. -/
theorem log_active {cfg : Config} {cs : List Check} {e : AlertEntry}
    (he : e ∈ (afterChecks cfg cs).log.slots) : e.active = true := by
  rw [← (Ring.recent_perm _).mem_iff, log_of_checks] at he
  exact raised_active (List.mem_of_mem_drop he)

/-- **Dismissal.** When the condition of a pair has been false at the last three checks or
more, no entry of the pair is active exactly when none of the last 64 alerts the rule has
raised is about it. -/
theorem dismissed_iff (cfg : Config) (cs : List Check) (pair : AlertType × IfaceName) :
    Dismissed cfg cs pair ↔
      (FalseAtLast cs pair →
        pair ∉ ((raised (ignoreList cfg) [] cs).rtake 64).map AlertEntry.pair) := by
  apply imp_congr_right
  intro _
  rw [← log_of_checks, List.mem_map, not_exists]
  apply forall_congr'
  intro e
  rw [(Ring.recent_perm _).mem_iff, not_and]
  apply imp_congr_right
  intro he
  rw [log_active he]
  simp

/-- A healthy network. -/
def reachableNet : NetState :=
  { NetState.zero with connectivity := ⟨true, 1, true, true, 1⟩ }

/-- After an outage of three checks and three healthy ones the gateway's alert is still
active. -/
theorem outage_not_dismissed :
    let cs := List.replicate 3 (NetState.zero, 10) ++ List.replicate 3 (reachableNet, 20)
    ¬ Dismissed Config.empty cs (.gatewayUnreachable, CharArray.blank 16) := by
  intro cs h
  have hfalse : FalseAtLast cs (.gatewayUnreachable, CharArray.blank 16) :=
    ⟨_, _, rfl, by decide, fun c hc => by rw [List.eq_of_mem_replicate hc]; rfl⟩
  have hmem : gatewayAlert 10 ∈ (afterChecks Config.empty cs).log.slots := by decide +kernel
  exact absurd (h hfalse _ hmem rfl) (by decide)

end NetMon.Core
