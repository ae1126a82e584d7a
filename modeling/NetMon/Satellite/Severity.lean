import Mathlib.Order.Bounds.Defs
import Mathlib.Order.Lattice
import NetMon.Core.AlertCounter
import NetMon.Satellite.Status

/-!
# The severity the satellite shows

`alert_severity_t` counts from `ALERT_SEV_INFO` = 0, `sat_severity_t` from
`SAT_SEVERITY_NONE` = 0. The encoder copies the greatest number among the active entries,
so the satellite shows each severity one grade too low (`encoded_severity`), and the
right one only when nothing is active (`severity_iff`).
-/

namespace NetMon.Satellite

open NetMon.Lib NetMon.Core NetMon.Net NetMon.Api Receiver

instance : LinearOrder AlertSeverity :=
  LinearOrder.lift' AlertSeverity.code (by rintro ⟨⟩ ⟨⟩ h <;> first | rfl | cases h)

/-- The satellite's name for a severity. -/
def SatSeverity.ofAlert : AlertSeverity → SatSeverity
  | .info => .info
  | .warning => .warning
  | .critical => .critical

/-- The severities of the active entries. -/
def activeSeverities (log : Ring AlertEntry 64) : Set AlertSeverity :=
  {sev | ∃ e ∈ log.slots, e.active = true ∧ e.severity = sev}

/-- `sev` is the satellite's code for the log: none when nothing is active, otherwise that
of the greatest active severity. -/
structure ShowsSeverity (log : Ring AlertEntry 64) (sev : UInt8) : Prop where
  none : activeSeverities log = ∅ → sev = SatSeverity.none.code
  greatest : ∀ g, IsGreatest (activeSeverities log) g → sev = (SatSeverity.ofAlert g).code

/-! ## The maximum the encoder takes -/

/-- A severity's number as the encoder reads it. -/
def rawCode (sev : AlertSeverity) : UInt8 := toUInt8 (sev.code : ℚ)

theorem rawCode_toNat (sev : AlertSeverity) : (rawCode sev).toNat = sev.code := by
  unfold rawCode toUInt8
  rw [trunc_natCast]
  cases sev <;> rfl

/-- One entry raises the number to its own if it is active, and does nothing else. -/
theorem severityStep_jsonAlert (n : UInt8) (e : AlertEntry) :
    n ≤ severityStep n (jsonAlert e) ∧
    (e.active = true → rawCode e.severity ≤ severityStep n (jsonAlert e)) ∧
    (severityStep n (jsonAlert e) = n ∨
      e.active = true ∧ severityStep n (jsonAlert e) = rawCode e.severity) := by
  have hstep : severityStep n (jsonAlert e) =
      if e.active then (if rawCode e.severity > n then rawCode e.severity else n) else n := rfl
  rw [hstep]
  cases e.active with
  | false => simp
  | true =>
    simp only [if_true]
    by_cases h : rawCode e.severity > n
    · rw [if_pos h]
      exact ⟨UInt8.le_of_lt h, fun _ => UInt8.le_refl _, Or.inr ⟨trivial, rfl⟩⟩
    · rw [if_neg h]
      exact ⟨UInt8.le_refl _, fun _ => UInt8.not_lt.mp h, Or.inl rfl⟩

/-- The fold ends at the greatest number it saw. -/
theorem foldl_severityStep (es : List AlertEntry) (n : UInt8) :
    n ≤ (es.map jsonAlert).foldl severityStep n ∧
    (∀ e ∈ es, e.active = true → rawCode e.severity ≤ (es.map jsonAlert).foldl severityStep n) ∧
    ((es.map jsonAlert).foldl severityStep n = n ∨
      ∃ e ∈ es, e.active = true ∧
        (es.map jsonAlert).foldl severityStep n = rawCode e.severity) := by
  induction es generalizing n with
  | nil => simp
  | cons e es ih =>
    rw [List.map_cons, List.foldl_cons, List.forall_mem_cons]
    obtain ⟨hn, hactive, hcase⟩ := severityStep_jsonAlert n e
    obtain ⟨hle, hall, hsome⟩ := ih (severityStep n (jsonAlert e))
    refine ⟨UInt8.le_trans hn hle, ⟨fun h => UInt8.le_trans (hactive h) hle, hall⟩, ?_⟩
    rcases hsome with heq | ⟨x, hx, hxa, hxe⟩
    · rw [heq]
      exact hcase.imp id fun h => ⟨e, List.mem_cons_self, h.1, h.2⟩
    · exact Or.inr ⟨x, List.mem_cons_of_mem _ hx, hxa, hxe⟩

/-- **The encoded severity** is zero without an active entry and otherwise the number
`alerts.h` gives the greatest active severity. -/
theorem encoded_severity (alerts : Alerts) :
    (activeSeverities alerts.log = ∅ → maxSeverity (some (apiJsonAlerts alerts)) = 0) ∧
    ∀ g, IsGreatest (activeSeverities alerts.log) g →
      maxSeverity (some (apiJsonAlerts alerts)) = rawCode g := by
  rw [maxSeverity_status]
  obtain ⟨_, hall, hsome⟩ := foldl_severityStep alerts.log.slots 0
  refine ⟨fun hempty => ?_, fun g ⟨⟨e, he, hea, heg⟩, hub⟩ => ?_⟩
  · refine hsome.resolve_right fun ⟨e, he, hea, _⟩ => ?_
    have hmem : e.severity ∈ activeSeverities alerts.log := ⟨e, he, hea, rfl⟩
    rw [hempty] at hmem
    exact hmem
  · have hge := hall e he hea
    rw [heg] at hge
    refine UInt8.le_antisymm ?_ hge
    rcases hsome with hzero | ⟨x, hx, hxa, hxe⟩
    · rw [hzero]
      exact UInt8.le_iff_toNat_le.mpr (Nat.zero_le _)
    · rw [hxe, UInt8.le_iff_toNat_le, rawCode_toNat, rawCode_toNat]
      exact hub ⟨x, hx, hxa, rfl⟩

/-- The satellite's code is one above the number in the log. -/
theorem ofAlert_code (sev : AlertSeverity) :
    ((SatSeverity.ofAlert sev).code).toNat = (rawCode sev).toNat + 1 := by
  rw [rawCode_toNat]
  cases sev <;> rfl

/-- A log with an active entry has a greatest active severity. -/
theorem exists_greatest {log : Ring AlertEntry 64} (h : (activeSeverities log).Nonempty) :
    ∃ g, IsGreatest (activeSeverities log) g := by
  by_cases hc : .critical ∈ activeSeverities log
  · exact ⟨.critical, hc, fun sev _ => by cases sev <;> decide⟩
  by_cases hw : .warning ∈ activeSeverities log
  · refine ⟨.warning, hw, fun sev hsev => ?_⟩
    cases sev with
    | critical => exact absurd hsev hc
    | _ => decide
  · obtain ⟨sev, hsev⟩ := h
    cases sev with
    | info => exact ⟨.info, hsev, fun x hx => by
        cases x with
        | info => exact le_rfl
        | warning => exact absurd hx hw
        | critical => exact absurd hx hc⟩
    | warning => exact absurd hsev hw
    | critical => exact absurd hsev hc

/-- **Severity on the satellite.** For every monitor, encoding its status document and
feeding the frame to a receiver between frames shows the right severity exactly when no
alert is active. -/
theorem severity_iff (m : Monitor) (now : UInt32) (seq : UInt16) (r : Receiver) (hr : r.Ready)
    (s : List Stamped)
    (hs : (encoderJsonToFrame (some (apiJsonStatus m)) now satMaxFrameSize seq).1 =
      some (s.map Prod.snd)) :
    ShowsSeverity m.alerts.log (feed r s).data.maxSeverity ↔
      ∀ e ∈ m.alerts.log.slots, e.active = false := by
  obtain ⟨t, hdata⟩ := feed_encoded hr hs
  have hshown : (feed r s).data.maxSeverity = maxSeverity (some (apiJsonAlerts m.alerts)) := by
    rw [hdata, encodeSnapshot_status]
    rfl
  obtain ⟨hnone, hgreatest⟩ := encoded_severity m.alerts
  rw [hshown]
  constructor
  · intro h e he
    by_contra hactive
    have hmem : e.severity ∈ activeSeverities m.alerts.log :=
      ⟨e, he, Bool.not_eq_false _ ▸ hactive, rfl⟩
    obtain ⟨g, hg⟩ := exists_greatest ⟨_, hmem⟩
    have hcode := congrArg UInt8.toNat ((hgreatest g hg).symm.trans (h.greatest g hg))
    rw [ofAlert_code] at hcode
    omega
  · intro hquiet
    have hempty : activeSeverities m.alerts.log = ∅ := by
      apply Set.eq_empty_of_forall_notMem
      intro g
      rintro ⟨e, he, hea, _⟩
      rw [hquiet e he] at hea
      cases hea
    refine ⟨fun _ => hnone hempty, fun g hg => ?_⟩
    have := hg.1
    rw [hempty] at this
    exact this.elim

/-- A monitor after these alert checks of one network. -/
def monitorAfter (state : NetState) (checks : List AlertOp) : Monitor where
  state := state
  alerts := alertEngine.exec (alertsInit Config.empty) checks
  wan := default
  hostname := CStr.lit "netmon"

/-- Its status frame, all bytes arriving at time 0. -/
def statusStream (m : Monitor) : List Stamped :=
  (snapshotMessage (some (apiJsonStatus m)) 0 0).frame.map fun b => (0, b)

theorem statusStream_sent (m : Monitor) :
    (encoderJsonToFrame (some (apiJsonStatus m)) 0 satMaxFrameSize 0).1 =
      some ((statusStream m).map Prod.snd) := by
  rw [encoderJsonToFrame_eq, statusStream, List.map_map]
  exact congrArg some (List.map_id _).symm

theorem severity_quiet : ShowsSeverity (monitorAfter NetState.zero []).alerts.log
    (feed reset (statusStream (monitorAfter NetState.zero []))).data.maxSeverity :=
  (severity_iff (monitorAfter NetState.zero []) 0 0 reset ⟨rfl, rfl⟩ _
    (statusStream_sent (monitorAfter NetState.zero []))).mpr (by decide +kernel)

/-- The warning about a slow gateway arrives as information. -/
theorem slowGateway_shown_as_info :
    ¬ ShowsSeverity (monitorAfter slowGateway [.check slowGateway 0]).alerts.log
      (feed reset
        (statusStream (monitorAfter slowGateway [.check slowGateway 0]))).data.maxSeverity := by
  intro h
  have hub : ∀ e ∈ (monitorAfter slowGateway [.check slowGateway 0]).alerts.log.slots,
      e.active = true ∧ e.severity = .warning := by decide +kernel
  have hmem : ∃ e ∈ (monitorAfter slowGateway [.check slowGateway 0]).alerts.log.slots,
      e.active = true ∧ e.severity = .warning := by decide +kernel
  have hwarning := h.greatest .warning ⟨hmem, fun sev ⟨e, he, _, hsev⟩ => hsev ▸ (hub e he).2.le⟩
  revert hwarning
  decide +kernel

end NetMon.Satellite
