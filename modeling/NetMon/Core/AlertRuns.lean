import Mathlib.Data.List.Chain
import NetMon.Core.Debounce

/-!
# The guarded alerts over a run of checks

After any run of checks from `alerts_init` a source's counter is the length of the run of
checks its condition has held, among those that looked at the source, modulo three
(`hyst_eq_runLength`). So whether it is due at a check is a function of the states the checks
have seen (`due_iff`), and where the interface table only grows a guarded source pushes
exactly at the positive multiples of three (`debounce_exact`).
-/

namespace NetMon.Core

open NetMon.Lib NetMon.Net GuardedSource

/-- The state and the time a call of `alerts_check` reads. -/
abbrev Check := NetState × UInt32

/-- The engine after a run of checks from its start. -/
def afterChecks (cfg : Config) (cs : List Check) : Alerts :=
  alertEngine.exec (alertsInit cfg) (cs.map fun c => .check c.1 c.2)

/-- The interfaces the engine is told to ignore. -/
def ignoreList (cfg : Config) : List IfaceName := (alertsInit cfg).ignoreIfaces

theorem afterChecks_concat (cfg : Config) (cs : List Check) (c : Check) :
    afterChecks cfg (cs ++ [c]) = (alertsCheck (afterChecks cfg cs) c.1 c.2).st := by
  unfold afterChecks
  rw [List.map_append, Machine.exec_append]
  rfl

theorem afterChecks_ignore (cfg : Config) (cs : List Check) :
    (afterChecks cfg cs).ignoreIfaces = ignoreList cfg := by
  induction cs using List.reverseRecOn with
  | nil => rfl
  | append_singleton cs c ih => rw [afterChecks_concat, alertsCheck_ignore, ih]

/-! ## The counters -/

/-- What the checks that looked at the source have seen of its condition. -/
def GuardedSource.history (ignore : List IfaceName) (cs : List Check) (src : GuardedSource) :
    List Bool := (cs.filter fun c => src.watched ignore c.1).map fun c => src.condition c.1

theorem history_concat (ignore : List IfaceName) (cs : List Check) (c : Check)
    (src : GuardedSource) : src.history ignore (cs ++ [c]) =
      if src.watched ignore c.1 then src.history ignore cs ++ [src.condition c.1]
      else src.history ignore cs := by
  unfold GuardedSource.history
  rw [List.filter_append, List.map_append, List.filter_singleton]
  cases src.watched ignore c.1 with
  | true => rfl
  | false => exact List.append_nil _

/-- Each counter follows its own source and no other. -/
theorem hyst_eq_runLength (cfg : Config) (cs : List Check) (src : GuardedSource) :
    (afterChecks cfg cs).hyst src.key =
      runLength (src.history (ignoreList cfg) cs) % appAlertHysteresis := by
  induction cs using List.reverseRecOn with
  | nil => rfl
  | append_singleton cs c ih =>
    rw [afterChecks_concat, alertsCheck_hyst, afterChecks_ignore, history_concat]
    split
    · rw [ih, countUp_runLength (by decide)]
    · exact ih

/-- The condition has held at a positive multiple of three checks in a row. -/
def GuardedSource.repeated (ignore : List IfaceName) (cs : List Check) (src : GuardedSource) :
    Bool :=
  let n := runLength (src.history ignore cs)
  decide (0 < n ∧ appAlertHysteresis ∣ n)

theorem due_iff (cfg : Config) (cs : List Check) (c : Check) (src : GuardedSource) :
    due (afterChecks cfg cs) c.1 src =
      (src.watched (ignoreList cfg) c.1 && src.repeated (ignoreList cfg) (cs ++ [c])) := by
  unfold due GuardedSource.repeated
  rw [afterChecks_ignore, history_concat, hyst_eq_runLength]
  cases src.watched (ignoreList cfg) c.1 with
  | false => rfl
  | true =>
    rw [Bool.true_and, Bool.true_and, if_pos rfl, Bool.eq_iff_iff, Bool.and_eq_true,
      decide_eq_true_eq, decide_eq_true_eq]
    exact limit_reached_iff (by decide) _ _

/-! ## Over a growing table -/

/-- The source is there: its row, if it has one, is in the table. -/
def GuardedSource.present (net : NetState) : GuardedSource → Bool
  | .ifaceDown row => decide ((row : Int) < net.numIfaces)
  | .packetErrors row => decide ((row : Int) < net.numIfaces)
  | .gateway => true
  | .dns => true

/-- The source's own condition holds. -/
def GuardedSource.holds (net : NetState) (src : GuardedSource) : Bool :=
  src.present net && src.condition net

/-- A source watched in the later table was watched before as soon as it was there. -/
theorem watched_of_grows {ignore : List IfaceName} {s s' : NetState} {src : GuardedSource}
    (hgrow : Grows s s') (h : src.watched ignore s' = true) :
    src.watched ignore s = src.present s := by
  have hrow : ∀ row : Nat, rowWatched ignore s' row = true →
      rowWatched ignore s row = decide ((row : Int) < s.numIfaces) := by
    intro row hw
    unfold rowWatched at hw ⊢
    rw [Bool.and_eq_true] at hw
    by_cases hlt : (row : Int) < s.numIfaces
    · rw [← hgrow.name row hlt, hw.2, Bool.and_true]
    · rw [decide_eq_false hlt, Bool.false_and]
  cases src with
  | ifaceDown row => exact hrow row h
  | packetErrors row => exact hrow row h
  | gateway => rfl
  | dns => rfl

theorem present_of_grows {s s' : NetState} {src : GuardedSource} (hgrow : Grows s s')
    (h : src.present s = true) : src.present s' = true := by
  cases src with
  | ifaceDown row => exact decide_eq_true ((of_decide_eq_true h).trans_le hgrow.numIfaces)
  | packetErrors row => exact decide_eq_true ((of_decide_eq_true h).trans_le hgrow.numIfaces)
  | gateway => rfl
  | dns => rfl

/-- While the table grows, the checks that look at a source are those from its first one
on, so its history is that of its own condition. -/
theorem runLength_history {ignore : List IfaceName} {cs : List Check} {c : Check}
    {src : GuardedSource} (hgrow : ((cs ++ [c]).map Prod.fst).IsChain Grows)
    (h : src.watched ignore c.1 = true) : runLength (src.history ignore (cs ++ [c])) =
      runLength ((cs ++ [c]).map fun c => src.holds c.1) := by
  have hpair := List.pairwise_map.mp (List.isChain_iff_pairwise.mp hgrow)
  have hlast : ∀ x ∈ cs, Grows x.1 c.1 := by
    rw [List.pairwise_append] at hpair
    exact fun x hx => hpair.2.2 x hx c (List.mem_singleton_self c)
  have hwatched : ∀ x ∈ cs ++ [c], src.watched ignore x.1 = src.present x.1 := by
    intro x hx
    rcases List.mem_append.mp hx with hx | hx
    · exact watched_of_grows (hlast x hx) h
    · rw [List.mem_singleton.mp hx]
      exact watched_of_grows ⟨le_rfl, fun _ _ => rfl⟩ h
  unfold GuardedSource.history
  rw [List.filter_congr hwatched]
  exact runLength_filter (hpair.imp fun hxy => present_of_grows hxy)

/-- **Exact debounce.** In a run of checks over a growing table, the guarded alerts of the
last check are, in the order of the sources, one for each watched source whose own
condition has now held at a positive multiple of three checks in a row. -/
theorem debounce_exact (cfg : Config) (past : List Check) (net : NetState) (now : UInt32)
    (hgrow : ((past ++ [(net, now)]).map Prod.fst).IsChain Grows) :
    (alertsCheck (afterChecks cfg past) net now).pushed.filter (fun e => e.type ≠ .highLatency) =
      (((guardedSources net).filter (watched (ignoreList cfg) net)).filter fun src =>
        let n := runLength ((past ++ [(net, now)]).map fun c => src.holds c.1)
        0 < n ∧ 3 ∣ n).map (alert net now) := by
  rw [alertsCheck_pushed, checkAlerts_guarded, dueAlerts, List.filter_filter]
  congr 1
  apply List.filter_congr
  intro src _
  rw [due_iff cfg past (net, now) src]
  cases hw : src.watched (ignoreList cfg) net with
  | false => simp
  | true =>
    rw [GuardedSource.repeated, runLength_history hgrow hw, Bool.true_and, Bool.and_true]
    rfl

/-- With nothing reachable the third check in a row raises the alerts of the gateway and of
DNS. -/
theorem debounce_third_check :
    (alertsCheck (afterChecks Config.empty [(NetState.zero, 10), (NetState.zero, 15)])
      NetState.zero 20).pushed.filter (fun e => e.type ≠ .highLatency) =
        [gatewayAlert 20, dnsAlert 20] :=
  (debounce_exact Config.empty [(NetState.zero, 10), (NetState.zero, 15)] NetState.zero 20
    (by
      have hself : Grows NetState.zero NetState.zero := ⟨le_rfl, fun _ _ => rfl⟩
      exact .cons_cons hself (.cons_cons hself (.singleton _)))).trans (by decide)

end NetMon.Core
