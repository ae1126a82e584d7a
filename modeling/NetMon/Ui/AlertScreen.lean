import NetMon.Core.Alerts

/-!
# The alert screen

`ui_alerts.c` walks the array `alerts_get_log` hands out from its last used slot to its
first. That is the order of the pushes as long as the ring has not wrapped
(`newestFirst_iff`).
-/

namespace NetMon.Ui

open NetMon.Lib NetMon.Core

/-- What `create_alert_entry` shows of an alert: its icon and colour are those of the
severity. -/
structure AlertRow where
  severity : AlertSeverity
  timestamp : UInt32
  iface : NetMon.Net.IfaceName
  message : CharArray 128
  deriving DecidableEq

def createAlertEntry (e : AlertEntry) : AlertRow := ⟨e.severity, e.timestamp, e.iface, e.message⟩

/-- `alerts_get_log`: the array and the number of slots in use. -/
def alertsGetLog (st : Alerts) : Vector AlertEntry 64 × Nat := (st.log.buf, st.log.count)

/-- The alert engine's log, and the screen's list and `g_last_count`. -/
structure AlertScreen where
  alerts : Alerts
  lastCount : Int
  rows : List AlertRow

/-- The screen as `ui_alerts_create` leaves it to the first update. -/
def AlertScreen.start (cfg : Config) : AlertScreen := ⟨alertsInit cfg, -1, []⟩

/-- The rows `ui_alerts_update` creates, if it rebuilds its list. -/
def rebuild (s : AlertScreen) : Option (List AlertRow) :=
  let (entries, count) := alertsGetLog s.alerts
  if (count : Int) = s.lastCount then none
  else
    some ((List.range count).reverse.map fun i => createAlertEntry (entries.toList.getD i default))

def uiAlertsUpdate (s : AlertScreen) : AlertScreen :=
  match rebuild s with
  | none => s
  | some rows => { s with lastCount := (alertsGetLog s.alerts).2, rows := rows }

inductive ScreenOp where
  | push (e : AlertEntry)
  | clearAll
  | update

/-- The screen while alerts are pushed and cleared; it emits the lists it builds. -/
def alertScreen : Machine AlertScreen ScreenOp (List AlertRow) where
  step s op :=
    match op with
    | .push e => { s with alerts := (pushAlert e ⟨s.alerts, []⟩).st }
    | .clearAll => { s with alerts := alertsClearAll s.alerts }
    | .update => uiAlertsUpdate s
  out s op :=
    match op with
    | .update => (rebuild s).toList
    | _ => []

/-- The alerts pushed in the course of the operations. -/
def pushes (ops : List ScreenOp) : List AlertEntry :=
  ops.filterMap fun
    | .push e => some e
    | _ => none

/-- The rows of the last 64 alerts, in the order they were pushed. -/
def lastRows (es : List AlertEntry) : List AlertRow := (es.rtake 64).map createAlertEntry

/-! ## What the log shows -/

/-- The log holds the rows of the last alerts of `es`, with its head behind them. -/
structure Shows (s : AlertScreen) (es : List AlertEntry) : Prop where
  packed : s.alerts.log.Packed
  head : s.alerts.log.head = es.length % 64
  rows : s.alerts.log.recent.map createAlertEntry = lastRows es

theorem start_shows (cfg : Config) : Shows (.start cfg) [] where
  packed := Ring.fresh_packed _ _
  head := rfl
  rows := rfl

theorem uiAlertsUpdate_alerts (s : AlertScreen) : (uiAlertsUpdate s).alerts = s.alerts := by
  unfold uiAlertsUpdate
  split <;> rfl

theorem lastRows_append (es : List AlertEntry) (e : AlertEntry) :
    lastRows (es ++ [e]) = (lastRows es ++ [createAlertEntry e]).rtake 64 := by
  unfold lastRows
  rw [Ring.map_rtake, Ring.map_rtake, List.map_append, List.map_singleton,
    Ring.rtake_append_rtake]

/-- A push is shown, and nothing else changes what the log shows. -/
theorem Shows.step {s : AlertScreen} {es : List AlertEntry} (h : Shows s es) (op : ScreenOp) :
    Shows (alertScreen.step s op) (es ++ pushes [op]) := by
  cases op with
  | push e =>
    have hes : es ++ pushes [.push e] = es ++ [e] := rfl
    rw [hes]
    refine ⟨Ring.push_packed h.packed e, ?_, ?_⟩
    · show (s.alerts.log.head + 1) % 64 = _
      rw [h.head, Nat.mod_add_mod, List.length_append, List.length_singleton]
    · show (s.alerts.log.push e).recent.map createAlertEntry = _
      rw [Ring.push_recent h.packed, Ring.map_rtake, List.map_append, h.rows, lastRows_append]
      rfl
  | clearAll =>
    have hes : es ++ pushes [.clearAll] = es := List.append_nil es
    rw [hes]
    refine ⟨Ring.map_packed h.packed _, h.head, ?_⟩
    show (s.alerts.log.map fun e => { e with active := false }).recent.map createAlertEntry = _
    rw [Ring.map_recent, List.map_map]
    exact h.rows
  | update =>
    have hes : es ++ pushes [.update] = es := List.append_nil es
    have halerts : (alertScreen.step s .update).alerts = s.alerts := uiAlertsUpdate_alerts s
    rw [hes]
    exact ⟨halerts ▸ h.packed, halerts ▸ h.head, halerts ▸ h.rows⟩

theorem exec_shows (cfg : Config) (ops : List ScreenOp) :
    Shows (alertScreen.exec (.start cfg) ops) (pushes ops) := by
  have hrun : ∀ s es, Shows s es → Shows (alertScreen.exec s ops) (es ++ pushes ops) := by
    induction ops with
    | nil =>
      intro s es h
      rwa [show pushes [] = [] from rfl, List.append_nil]
    | cons op ops ih =>
      intro s es h
      have hcons : pushes (op :: ops) = pushes [op] ++ pushes ops := by
        rw [pushes, pushes, pushes, ← List.filterMap_append, List.singleton_append]
      rw [hcons, ← List.append_assoc]
      exact ih _ _ (h.step op)
  exact hrun _ [] (start_shows cfg)

/-! ## What the screen lists -/

theorem lastRows_length (es : List AlertEntry) : (lastRows es).length = min es.length 64 := by
  simp only [lastRows, List.rtake, List.length_map, List.length_drop]
  omega

/-- Turning the rows by the head is turning them by the number of alerts pushed. -/
theorem Shows.turn {s : AlertScreen} {es : List AlertEntry} (h : Shows s es) :
    (lastRows es).rotate s.alerts.log.head = (lastRows es).rotate es.length := by
  rw [h.head]
  by_cases hfew : es.length < 64
  · rw [Nat.mod_eq_of_lt hfew]
  · have hmod := List.rotate_mod (lastRows es) es.length
    rwa [lastRows_length, min_eq_right (not_lt.mp hfew)] at hmod

/-- The walk from the last used slot to the first. -/
theorem rebuild_eq (s : AlertScreen) : rebuild s =
    if (s.alerts.log.count : Int) = s.lastCount then none
    else some (s.alerts.log.slots.map createAlertEntry).reverse := by
  have hwalk : (List.range s.alerts.log.count).map (fun i =>
      createAlertEntry (s.alerts.log.buf.toList.getD i default)) =
        s.alerts.log.slots.map createAlertEntry := by
    have hcount := s.alerts.log.count_le
    apply List.ext_getElem (by simp [Ring.slots_length])
    intro i h1 h2
    rw [List.length_map, List.length_range] at h1
    have hi : i < s.alerts.log.buf.toList.length := by rw [Vector.length_toList]; omega
    rw [List.getElem_map, List.getElem_map, List.getElem_range, List.getD_eq_getElem _ _ hi]
    simp only [Ring.slots, List.getElem_take]
  unfold rebuild alertsGetLog
  simp only [List.map_reverse, hwalk]

/-- **Newest first.** A list the screen builds shows the last 64 alerts, each once and the
newest first, exactly when at most 64 alerts have been pushed, or the rows of the last 64
are the same list when turned by the number of alerts pushed. -/
theorem newestFirst_iff (cfg : Config) (ops : List ScreenOp) :
    (∀ rows ∈ rebuild (alertScreen.exec (.start cfg) ops), rows = (lastRows (pushes ops)).reverse) ↔
      ((alertScreen.exec (.start cfg) ops).alerts.log.count : Int) =
          (alertScreen.exec (.start cfg) ops).lastCount ∨
        (pushes ops).length ≤ 64 ∨
        (lastRows (pushes ops)).rotate (pushes ops).length = lastRows (pushes ops) := by
  have hshows := exec_shows cfg ops
  generalize alertScreen.exec (.start cfg) ops = s at hshows ⊢
  generalize pushes ops = es at hshows ⊢
  have hrows : s.alerts.log.slots.map createAlertEntry = lastRows es ↔
      (lastRows es).rotate es.length = lastRows es := by
    rw [← hshows.turn, ← hshows.rows]
    exact Ring.map_slots_eq_iff createAlertEntry s.alerts.log
  have hfew : es.length ≤ 64 → (lastRows es).rotate es.length = lastRows es := by
    intro hle
    have hlen := lastRows_length es
    rw [min_eq_left hle] at hlen
    rw [← hlen, List.rotate_length]
  rw [rebuild_eq]
  by_cases hcount : (s.alerts.log.count : Int) = s.lastCount
  · simp [hcount]
  · rw [if_neg hcount, or_iff_right hcount, or_iff_right_of_imp hfew, ← hrows]
    simp [List.reverse_inj]

/-- Alerts of the gateway at the times 0, 1, 2 and on. -/
def gatewayPushes (n : Nat) : List ScreenOp :=
  (List.range n).map fun i => .push (gatewayAlert (UInt32.ofNat i))

/-- With 65 alerts pushed before the screen is opened, the newest is listed last. -/
theorem newest_listed_last :
    let s := alertScreen.exec (.start Config.empty) (gatewayPushes 65)
    (rebuild s).map (·.map (·.timestamp)) =
        some ((List.range 64).reverse.map fun i => UInt32.ofNat (if i = 0 then 64 else i)) ∧
      ¬ ∀ rows ∈ rebuild s, rows = (lastRows (pushes (gatewayPushes 65))).reverse := by
  decide +kernel

end NetMon.Ui
