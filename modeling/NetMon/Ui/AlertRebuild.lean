import NetMon.Core.AlertCounter
import NetMon.Ui.AlertScreen

/-!
# The skipped rebuild

`ui_alerts_update` leaves its list alone while the number of log entries stays what it was at
the last update. From 64 entries on the number never changes, and a push overwrites the oldest
one. The list stays right exactly when the alerts pushed since the last update show the rows of
those they overwrote (`rebuilt_iff`).
-/

namespace NetMon.Ui

open NetMon.Lib NetMon.Core

inductive ListCall where
  | engine (op : AlertOp)
  | update

/-- The screen, with the alerts pushed so far and those of them pushed before the last update. -/
structure Watched where
  screen : AlertScreen
  pushed : List AlertEntry
  seen : Option (List AlertEntry)

/-- The screen under the calls of the engine and of its own timer. -/
def alertList : Machine Watched ListCall AlertEntry where
  step w call :=
    match call with
    | .engine op => { w with
        screen := { w.screen with alerts := alertEngine.step w.screen.alerts op }
        pushed := w.pushed ++ alertEngine.out w.screen.alerts op }
    | .update => { w with screen := uiAlertsUpdate w.screen, seen := some w.pushed }
  out w call :=
    match call with
    | .engine op => alertEngine.out w.screen.alerts op
    | .update => []

def Watched.start (cfg : Config) : Watched := ⟨.start cfg, [], none⟩

/-- The rows a rebuild creates whatever `g_last_count` holds. -/
def unconditional (s : AlertScreen) : List AlertRow := (rebuild { s with lastCount := -1 }).getD []

/-- Behind an update the screen shows what a rebuild would. -/
def Rebuilt (w : Watched) : ListCall → Prop
  | .update => (uiAlertsUpdate w.screen).rows = unconditional (uiAlertsUpdate w.screen)
  | .engine _ => True

/-- At an update the log has room at the last one, or the alerts pushed since then turn its rows
into themselves. -/
def Unchanged (w : Watched) : ListCall → Prop
  | .update => ∀ es ∈ w.seen, 64 ≤ es.length →
      lastRows w.pushed = (lastRows es).rotate (w.pushed.length - es.length)
  | .engine _ => True

/-! ## The log -/

theorem Shows.of_log {s s' : AlertScreen} {es : List AlertEntry} (h : Shows s es)
    (hlog : s'.alerts.log = s.alerts.log) : Shows s' es :=
  ⟨hlog ▸ h.packed, hlog ▸ h.head, hlog ▸ h.rows⟩

theorem Shows.pushAll {s s' : AlertScreen} {es : List AlertEntry} (h : Shows s es)
    {new : List AlertEntry} (hlog : s'.alerts.log = new.foldl Ring.push s.alerts.log) :
    Shows s' (es ++ new) := by
  induction new generalizing s es with
  | nil =>
    rw [List.append_nil]
    exact h.of_log hlog
  | cons e new ih =>
    rw [List.append_cons]
    exact ih (h.step (.push e)) hlog

theorem Shows.engine {s : AlertScreen} {es : List AlertEntry} (h : Shows s es) (op : AlertOp) :
    Shows { s with alerts := alertEngine.step s.alerts op }
      (es ++ alertEngine.out s.alerts op) := by
  cases op with
  | check net now =>
    rw [show alertEngine.out s.alerts (.check net now) = checkAlerts s.alerts net now from
      alertsCheck_pushed s.alerts net now]
    exact h.pushAll (alertsCheck_log s.alerts net now)
  | clearAll => exact (h.step .clearAll).of_log rfl

/-- The slots are the last rows, turned back by the number of alerts pushed. -/
theorem Shows.slots {s : AlertScreen} {es : List AlertEntry} (h : Shows s es) :
    (s.alerts.log.slots.map createAlertEntry).rotate es.length = lastRows es := by
  have hturned : (s.alerts.log.slots.map createAlertEntry).rotate s.alerts.log.head =
      lastRows es := by
    rw [← List.map_rotate, ← h.rows]
    rfl
  rw [← hturned, h.head]
  have hlen := congrArg List.length hturned
  rw [List.length_rotate, lastRows_length] at hlen
  by_cases hfew : es.length < 64
  · rw [Nat.mod_eq_of_lt hfew]
  · rw [← List.rotate_mod _ es.length, hlen, min_eq_right (not_lt.mp hfew)]

theorem Shows.count {s : AlertScreen} {es : List AlertEntry} (h : Shows s es) :
    s.alerts.log.count = min es.length 64 := by
  have hlen := congrArg List.length h.slots
  rwa [List.length_rotate, List.length_map, Ring.slots_length, lastRows_length] at hlen

theorem unconditional_eq (s : AlertScreen) :
    unconditional s = (s.alerts.log.slots.map createAlertEntry).reverse := by
  rw [unconditional, rebuild_eq, if_neg (by show ¬ (s.alerts.log.count : Int) = -1; omega)]
  rfl

/-- What an update leaves. -/
theorem uiAlertsUpdate_spec (s : AlertScreen) :
    (uiAlertsUpdate s).lastCount = s.alerts.log.count ∧ (uiAlertsUpdate s).rows =
      if (s.alerts.log.count : Int) = s.lastCount then s.rows
      else (s.alerts.log.slots.map createAlertEntry).reverse := by
  unfold uiAlertsUpdate
  rw [rebuild_eq]
  split_ifs with h
  · exact ⟨h.symm, rfl⟩
  · exact ⟨rfl, rfl⟩

/-! ## The screen -/

/-- What is remembered of the last update: the rows it left, if they were right. -/
structure Remembered (w : Watched) : Prop where
  shows : Shows w.screen w.pushed
  unseen : w.seen = none → w.screen.lastCount = -1
  seen : ∀ es ∈ w.seen, (∃ new, w.pushed = es ++ new) ∧
    w.screen.lastCount = (min es.length 64 : Nat) ∧
    w.screen.rows.reverse.rotate es.length = lastRows es

theorem start_remembered (cfg : Config) : Remembered (.start cfg) :=
  ⟨start_shows cfg, fun _ => rfl, fun _ h => by cases h⟩

/-- The list is right after an update exactly when the rows it stood for are unchanged. -/
theorem rebuilt_step {w : Watched} (hw : Remembered w) (call : ListCall) :
    Rebuilt w call ↔ Unchanged w call := by
  cases call with
  | engine op => exact Iff.rfl
  | update =>
    have hcount := hw.shows.count
    have hslots := hw.shows.slots
    unfold Rebuilt Unchanged
    rw [unconditional_eq, uiAlertsUpdate_alerts, (uiAlertsUpdate_spec w.screen).2, hcount]
    cases hseen : w.seen with
    | none =>
      rw [hw.unseen hseen, if_neg (by omega)]
      exact iff_of_true rfl fun es hes => by cases hes
    | some es =>
      obtain ⟨⟨new, hnew⟩, hlast, hrows⟩ := hw.seen es hseen
      have hlen : w.pushed.length = es.length + new.length := by rw [hnew, List.length_append]
      simp only [Option.mem_some_iff, forall_eq']
      rw [hlast, hlen, Nat.add_sub_cancel_left]
      by_cases hfull : 64 ≤ es.length
      · -- the number of entries stays 64, so the rows do too
        rw [if_pos (by omega), imp_iff_right hfull, ← hslots, ← hrows, hlen, List.rotate_rotate,
          List.rotate_eq_rotate, eq_comm, List.reverse_eq_iff]
      · refine iff_of_true ?_ fun h => absurd h hfull
        split
        · rename_i hsame
          have hnil : new = [] := List.eq_nil_of_length_eq_zero (by omega)
          rw [hnil, List.append_nil] at hnew
          rw [hnew, ← hrows, List.rotate_eq_rotate] at hslots
          rw [hslots, List.reverse_reverse]
        · rfl

/-- An update whose rows are right remembers them. -/
theorem step_remembered {w : Watched} (hw : Remembered w) {call : ListCall}
    (h : Unchanged w call) : Remembered (alertList.step w call) := by
  cases call with
  | engine op =>
    refine ⟨hw.shows.engine op, hw.unseen, fun es hes => ?_⟩
    obtain ⟨⟨new, hnew⟩, hlast, hrows⟩ := hw.seen es hes
    refine ⟨⟨new ++ alertEngine.out w.screen.alerts op, ?_⟩, hlast, hrows⟩
    rw [← List.append_assoc, ← hnew]
    rfl
  | update =>
    have hright : (uiAlertsUpdate w.screen).rows = unconditional (uiAlertsUpdate w.screen) :=
      (rebuilt_step hw .update).mpr h
    have hshows : Shows (uiAlertsUpdate w.screen) w.pushed :=
      hw.shows.of_log (by rw [uiAlertsUpdate_alerts])
    refine ⟨hshows, nofun, fun es hes => ?_⟩
    obtain rfl : w.pushed = es := Option.some.inj hes
    refine ⟨⟨[], (List.append_nil _).symm⟩, ?_, ?_⟩
    · exact (uiAlertsUpdate_spec w.screen).1.trans (by rw [hw.shows.count])
    · show (uiAlertsUpdate w.screen).rows.reverse.rotate w.pushed.length = _
      rw [hright, unconditional_eq, List.reverse_reverse, hshows.slots]

/-- **Skipping the rebuild.** In every run the list is right after each update exactly when at
each update the rows of the last one, if the log was full by then, are unchanged. -/
theorem rebuilt_iff (cfg : Config) (calls : List ListCall) :
    alertList.Along Rebuilt (.start cfg) calls ↔ alertList.Along Unchanged (.start cfg) calls :=
  alertList.along_congr (I := Remembered) (fun _ _ hw h => step_remembered hw h)
    (fun _ call hw => rebuilt_step hw call) (start_remembered cfg) calls

/-- Checks of a gateway that answers late, each of which pushes one alert. -/
def slowChecks (times : List Nat) : List ListCall :=
  times.map fun t => .engine (.check slowGateway (UInt32.ofNat t))

/-- A 65th alert between two updates is in the log but not on the screen. -/
theorem newest_not_shown :
    let calls := slowChecks (List.range 64) ++ .update :: slowChecks [64]
    let s := uiAlertsUpdate (alertList.exec (.start Config.empty) calls).screen
    (∀ row ∈ s.rows, row.timestamp ≠ 64) ∧ (∃ row ∈ unconditional s, row.timestamp = 64) ∧
      ¬ alertList.Along Rebuilt (.start Config.empty) (calls ++ [.update]) := by
  intro calls s
  have hold : ∀ row ∈ s.rows, row.timestamp ≠ 64 := by decide +kernel
  have hnew : ∃ row ∈ unconditional s, row.timestamp = 64 := by decide +kernel
  refine ⟨hold, hnew, fun h => ?_⟩
  have hright : s.rows = unconditional s := (alertList.along_append.mp h).2.1
  obtain ⟨row, hrow, htime⟩ := hnew
  exact hold row (hright ▸ hrow) htime

end NetMon.Ui
