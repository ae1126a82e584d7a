import NetMon.Core.ConfigFile
import NetMon.Net.Infra

/-!
# The settings screen

The part of `ui_settings.c` that edits the infrastructure devices. The screen keeps its own
count of them, which `num_infra` is copied from and to. `settings` runs the screen beside
the collector and emits the slots it touches of `g_state.infra` and of its own arrays of
widgets: all of them are inside exactly when the configured number of devices is not
negative (`infra_bounds_iff`).
-/

namespace NetMon.Ui

open NetMon.Lib NetMon.Core NetMon.Net

/-- The arrays of `APP_MAX_INFRA_DEVICES` slots. -/
inductive InfraArray where
  | infra | cards | nameLbls | typeDds | switches | ipEditors
  deriving DecidableEq

/-- A slot of one of them. -/
structure Access where
  array : InfraArray
  index : Int
  deriving DecidableEq

/-- The collector, and the screen's `g_infra_count`; the buttons are there once the screen
was created. -/
structure SettingsApp where
  collector : Collector
  created : Bool
  infraCount : Int

/-! ## The form -/

/-- The four rollers of an address. -/
abbrev IpEditor := Vector UInt8 4

/-- The widgets of a device card that can be changed. -/
structure DeviceForm where
  ip : IpEditor
  type : InfraDeviceType
  enabled : Bool

/-- What the screen's widgets hold when the save button is pressed. -/
structure SettingsForm where
  pingTarget : IpEditor
  dnsTarget : IpEditor
  dnsTestHostname : CharArray 64
  bwWarnPct : Int
  bwCritPct : Int
  pingWarnMs : Int
  pingCritMs : Int
  errThreshold : Int
  wifiEnabled : Bool
  wifiSsid : CharArray 64
  wifiPassword : CStr
  devices : Nat → DeviceForm

/-- `ui_ip_editor_get_value` -/
def uiIpEditorGetValue (e : IpEditor) : CStr := CStr.lit s!"{e[0]}.{e[1]}.{e[2]}.{e[3]}"

/-- `'.'` -/
def dot : UInt8 := 46

theorem uiIpEditorGetValue_bytes (e : IpEditor) : (uiIpEditorGetValue e).bytes =
    decimal e[0].toNat ++ (dot :: (decimal e[1].toNat ++ (dot ::
      (decimal e[2].toNat ++ (dot :: decimal e[3].toNat))))) := by
  have hdot : CStr.chars "." = [dot] := by decide
  have hchars : CStr.chars s!"{e[0]}.{e[1]}.{e[2]}.{e[3]}" =
      decimal e[0].toNat ++ (dot :: (decimal e[1].toNat ++ (dot ::
        (decimal e[2].toNat ++ (dot :: decimal e[3].toNat))))) := by
    show CStr.chars (e[0].toNat.repr ++ "." ++ e[1].toNat.repr ++ "." ++ e[2].toNat.repr ++ "." ++
      e[3].toNat.repr) = _
    simp only [CStr.chars_append, CStr.chars_repr, hdot, List.append_assoc, List.cons_append,
      List.nil_append]
  have hnul : ∀ n, 0 ∉ decimal n := fun n h => absurd (isdigit_decimal n 0 h) (by decide)
  have hnul' : 0 ∉ CStr.chars s!"{e[0]}.{e[1]}.{e[2]}.{e[3]}" := by
    rw [hchars]
    simp only [List.mem_append, List.mem_cons, hnul, false_or, or_false]
    decide
  exact (CStr.lit_bytes hnul').trans hchars

theorem uiIpEditorGetValue_visible (e : IpEditor) :
    ∀ b ∈ (uiIpEditorGetValue e).bytes, isspace b = false := by
  have hdot : isspace dot = false := by decide
  rw [uiIpEditorGetValue_bytes]
  simp only [List.forall_mem_append, List.forall_mem_cons]
  exact ⟨decimal_visible _, hdot, decimal_visible _, hdot, decimal_visible _, hdot,
    decimal_visible _⟩

theorem uiIpEditorGetValue_length (e : IpEditor) : (uiIpEditorGetValue e).length ≤ 15 := by
  have hdecimal : ∀ b : UInt8, (decimal b.toNat).length ≤ 3 := fun b =>
    decimal_length_le (by decide) (lt_trans b.toNat_lt (by decide))
  rw [CStr.length, uiIpEditorGetValue_bytes]
  simp only [List.length_append, List.length_cons]
  have h0 := hdecimal e[0]
  have h1 := hdecimal e[1]
  have h2 := hdecimal e[2]
  have h3 := hdecimal e[3]
  omega

/-- The editor never shows nothing. -/
theorem uiIpEditorGetValue_ne_nil (e : IpEditor) :
    (CharArray.copy 16 (uiIpEditorGetValue e)).bytes ≠ [] := by
  have hwhole : (CharArray.copy 16 (uiIpEditorGetValue e)).bytes = (uiIpEditorGetValue e).bytes :=
    congrArg CStr.bytes (CStr.trunc_of_le (uiIpEditorGetValue_length e))
  rw [hwhole, uiIpEditorGetValue_bytes]
  simp

/-- The configuration's word for the text shown in the type dropdown. -/
def typeWord : InfraDeviceType → CStr
  | .router => CStr.lit "router"
  | .switch => CStr.lit "switch"
  | .ap => CStr.lit "ap"
  | .other => CStr.lit "other"

/-! ## The callbacks -/

/-- The slots `create_infra_device_card` touches. -/
def cardAccesses (idx : Int) : List Access :=
  [⟨.infra, idx⟩, ⟨.cards, idx⟩, ⟨.nameLbls, idx⟩, ⟨.typeDds, idx⟩, ⟨.switches, idx⟩,
    ⟨.ipEditors, idx⟩]

def uiSettingsCreate (u : SettingsApp) : SettingsApp :=
  { u with
    created := true
    infraCount := min u.collector.state.numInfra appMaxInfraDevices }

def createAccesses (u : SettingsApp) : List Access :=
  (List.range (uiSettingsCreate u).infraCount.toNat).flatMap fun i : Nat => cardAccesses i

/-- The device the add button makes. -/
def newDevice (idx : Int) : InfraDevice where
  name := CharArray.copy 32 (CStr.lit s!"Device {idx}")
  ipStr := default
  type := .other
  enabled := true
  reachable := false
  latencyMs := 0
  consecutiveFails := 0

/-- `add_device_cb`. At a negative count the slots are those of `addAccesses`, and what lies there
is not part of the state. -/
def addDeviceCb (u : SettingsApp) : SettingsApp :=
  if u.infraCount ≥ appMaxInfraDevices then u
  else
    let state := { u.collector.state with
      infra := Function.update u.collector.state.infra u.infraCount (newDevice u.infraCount)
      numInfra := u.infraCount + 1 }
    { u with
      collector := { u.collector with state := state }
      infraCount := u.infraCount + 1 }

def addAccesses (u : SettingsApp) : List Access :=
  if u.infraCount ≥ appMaxInfraDevices then []
  else ⟨.infra, u.infraCount⟩ :: cardAccesses u.infraCount

/-- The settings that are not about devices. -/
def saveGeneral (form : SettingsForm) (cfg : Config) : Config :=
  let cfg := configSetStr cfg (CStr.lit "ping_target") (uiIpEditorGetValue form.pingTarget)
  let cfg := configSetStr cfg (CStr.lit "dns_target") (uiIpEditorGetValue form.dnsTarget)
  let cfg := configSetStr cfg (CStr.lit "dns_test_hostname") form.dnsTestHostname.str
  let cfg := configSetInt cfg (CStr.lit "alert_bw_warn_pct") form.bwWarnPct
  let cfg := configSetInt cfg (CStr.lit "alert_bw_crit_pct") form.bwCritPct
  let cfg := configSetInt cfg (CStr.lit "alert_ping_warn_ms") form.pingWarnMs
  let cfg := configSetInt cfg (CStr.lit "alert_ping_crit_ms") form.pingCritMs
  let cfg := configSetInt cfg (CStr.lit "alert_err_threshold") form.errThreshold
  let cfg := configSetInt cfg (CStr.lit "wifi_enabled") (if form.wifiEnabled then 1 else 0)
  let cfg := if form.wifiSsid.bytes ≠ [] then
      configSetStr cfg (CStr.lit "wifi_ssid") form.wifiSsid.str
    else cfg
  configSetStr cfg (CStr.lit "wifi_password") form.wifiPassword

/-- The body of the loop over the devices; the type is stored in the configuration only. -/
def saveDevice (form : SettingsForm) (c : Collector) (i : Nat) : Collector :=
  let dev := form.devices i
  let ip := uiIpEditorGetValue dev.ip
  let cfg := configSetStr c.cfg (infraKey i "ip") ip
  let cfg := configSetStr cfg (infraKey i "type") (typeWord dev.type)
  let infra := Function.update c.state.infra i
    { c.state.infra i with ipStr := CharArray.copy 16 ip, enabled := dev.enabled }
  { c with cfg := cfg, state := { c.state with infra := infra } }

/-- `save_btn_cb` up to the writing of the file. -/
def saveBtnCb (u : SettingsApp) (form : SettingsForm) : SettingsApp :=
  let cfg := saveGeneral form u.collector.cfg
  let cfg := configSetInt cfg (CStr.lit "infra_count") u.infraCount
  let c := (List.range u.infraCount.toNat).foldl (saveDevice form) { u.collector with cfg := cfg }
  { u with collector := { c with state := { c.state with numInfra := u.infraCount } } }

def saveAccesses (u : SettingsApp) : List Access :=
  (List.range u.infraCount.toNat).flatMap fun i : Nat =>
    [⟨.infra, i⟩, ⟨.ipEditors, i⟩, ⟨.typeDds, i⟩, ⟨.switches, i⟩]

/-! ## The screen over time -/

inductive SettingsOp where
  | tick (t : Tick)
  | create
  | addDevice
  | save (form : SettingsForm)

/-- The collector's timers and the screen's buttons in any order. -/
def settings : Machine SettingsApp SettingsOp Access where
  step u op :=
    match op with
    | .tick t => { u with collector := collector.step u.collector t }
    | .create => uiSettingsCreate u
    | .addDevice => if u.created then addDeviceCb u else u
    | .save form => if u.created then saveBtnCb u form else u
  out u op :=
    match op with
    | .tick (.medium m) => (mediumAccesses u.collector m).map (Access.mk .infra)
    | .tick _ => []
    | .create => createAccesses u
    | .addDevice => if u.created then addAccesses u else []
    | .save _ => if u.created then saveAccesses u else []

/-- The program after its start; `g_infra_count` is a static. -/
def SettingsApp.start (cfg : Config) (b : BootInput) : SettingsApp :=
  ⟨netCollectorInit cfg b, false, 0⟩

/-- The slots touched from the start on. -/
def infraAccesses (cfg : Config) (b : BootInput) (ops : List SettingsOp) : List Access :=
  (loadInfraAccesses cfg).map (Access.mk .infra) ++ settings.trace (.start cfg b) ops

/-- Both counts are within the table. -/
structure CountsOk (u : SettingsApp) : Prop where
  numInfra : InfraCountOk u.collector.state.numInfra
  infraCount : InfraCountOk u.infraCount

/-- What the callbacks and the buttons keep. -/
structure SettingsInv (u : SettingsApp) : Prop where
  collector : InfraInv u.collector
  infraCount : InfraCountOk u.infraCount

theorem SettingsInv.countsOk {u : SettingsApp} (h : SettingsInv u) : CountsOk u :=
  ⟨h.collector.count, h.infraCount⟩

/-! ## The counts -/

theorem uiSettingsCreate_inv {u : SettingsApp} (h : SettingsInv u) :
    SettingsInv (uiSettingsCreate u) := by
  obtain ⟨h0, _⟩ := h.collector.count
  refine ⟨h.collector, le_min h0 ?_, min_le_right _ _⟩
  decide

theorem addDeviceCb_inv {u : SettingsApp} (h : SettingsInv u) : SettingsInv (addDeviceCb u) := by
  unfold addDeviceCb
  split
  · exact h
  · next hroom =>
    have h0 := h.infraCount.1
    have hcount : InfraCountOk (u.infraCount + 1) := ⟨by omega, by omega⟩
    exact ⟨⟨hcount, h.collector.pingIdx⟩, hcount⟩

theorem foldl_saveDevice_pingIdx (form : SettingsForm) (is : List Nat) (c : Collector) :
    (is.foldl (saveDevice form) c).infraPingIdx = c.infraPingIdx := by
  induction is generalizing c with
  | nil => rfl
  | cons i is ih => exact ih (saveDevice form c i)

theorem saveBtnCb_inv {u : SettingsApp} (h : SettingsInv u) (form : SettingsForm) :
    SettingsInv (saveBtnCb u form) := by
  have hidx : (saveBtnCb u form).collector.infraPingIdx = u.collector.infraPingIdx :=
    foldl_saveDevice_pingIdx form _ _
  exact ⟨⟨h.infraCount, h.collector.pingIdx.trans_eq hidx.symm⟩, h.infraCount⟩

theorem settings_step_inv (u : SettingsApp) (op : SettingsOp) (h : SettingsInv u) :
    SettingsInv (settings.step u op) := by
  cases op with
  | tick t => exact ⟨step_infraInv u.collector t h.collector, h.infraCount⟩
  | create => exact uiSettingsCreate_inv h
  | addDevice =>
    show SettingsInv (if u.created then addDeviceCb u else u)
    split
    · exact addDeviceCb_inv h
    · exact h
  | save form =>
    show SettingsInv (if u.created then saveBtnCb u form else u)
    split
    · exact saveBtnCb_inv h form
    · exact h

/-! ## The slots -/

theorem cardAccesses_index {idx : Int} {a : Access} (ha : a ∈ cardAccesses idx) :
    a.index = idx := by
  simp only [cardAccesses, List.mem_cons, List.not_mem_nil, or_false] at ha
  rcases ha with rfl | rfl | rfl | rfl | rfl | rfl <;> rfl

theorem createAccesses_inInfra {u : SettingsApp} (h : SettingsInv u) :
    ∀ a ∈ createAccesses u, InInfra a.index := by
  intro a ha
  obtain ⟨i, hi, ha⟩ := List.mem_flatMap.mp ha
  rw [cardAccesses_index ha]
  exact inInfra_of_range (uiSettingsCreate_inv h).infraCount i (List.mem_map_of_mem hi)

theorem addAccesses_inInfra {u : SettingsApp} (h : SettingsInv u) :
    ∀ a ∈ addAccesses u, InInfra a.index := by
  intro a ha
  unfold addAccesses at ha
  split at ha
  · cases ha
  · next hroom =>
    have hidx : a.index = u.infraCount := by
      rcases List.mem_cons.mp ha with rfl | ha
      · rfl
      · exact cardAccesses_index ha
    rw [hidx]
    exact ⟨h.infraCount.1, by omega⟩

theorem saveAccesses_inInfra {u : SettingsApp} (h : SettingsInv u) :
    ∀ a ∈ saveAccesses u, InInfra a.index := by
  intro a ha
  obtain ⟨i, hi, ha⟩ := List.mem_flatMap.mp ha
  have hidx : a.index = i := by
    simp only [List.mem_cons, List.not_mem_nil, or_false] at ha
    rcases ha with rfl | rfl | rfl | rfl <;> rfl
  rw [hidx]
  exact inInfra_of_range h.infraCount i (List.mem_map_of_mem hi)

theorem settings_out_inInfra (u : SettingsApp) (op : SettingsOp) (h : SettingsInv u) :
    ∀ a ∈ settings.out u op, InInfra a.index := by
  intro a ha
  cases op with
  | tick t =>
    cases t with
    | medium m =>
      obtain ⟨i, hi, rfl⟩ := List.mem_map.mp ha
      exact mediumAccesses_inInfra h.collector m i hi
    | fast f => cases ha
    | slow i => cases ha
  | create => exact createAccesses_inInfra h a ha
  | addDevice =>
    have ha : a ∈ if u.created then addAccesses u else [] := ha
    split at ha
    · exact addAccesses_inInfra h a ha
    · cases ha
  | save form =>
    have ha : a ∈ if u.created then saveAccesses u else [] := ha
    split at ha
    · exact saveAccesses_inInfra h a ha
    · cases ha

theorem infraCountOk_zero : InfraCountOk 0 := by decide

theorem loadInfraAccesses_inInfra {cfg : Config}
    (h : 0 ≤ configGetInt cfg (CStr.lit "infra_count") 0) :
    ∀ i ∈ loadInfraAccesses cfg, InInfra i :=
  inInfra_of_range ((loadInfraConfig_ok_iff cfg NetState.zero).mpr h)

/-- **The infrastructure table's bounds.** Whatever ticks and presses follow, both counts
stay within the table and no slot outside it or outside the screen's arrays is touched,
exactly when the configured number of devices is not negative. -/
theorem infra_bounds_iff (cfg : Config) (b : BootInput) (ops : List SettingsOp) :
    (CountsOk (.start cfg b) ∧ settings.After CountsOk (.start cfg b) ops ∧
      ∀ a ∈ infraAccesses cfg b ops, InInfra a.index) ↔
    0 ≤ configGetInt cfg (CStr.lit "infra_count") 0 := by
  rw [← netCollectorInit_infraInv_iff cfg b]
  constructor
  · intro h
    exact ⟨h.1.numInfra, le_rfl⟩
  · intro h
    have hstart : SettingsInv (.start cfg b) := ⟨h, infraCountOk_zero⟩
    refine ⟨hstart.countsOk, ?_, fun a ha => ?_⟩
    · exact Machine.Along.mono (fun _ _ hinv => hinv.countsOk)
        (settings.after_of_inv settings_step_inv hstart ops)
    · rcases List.mem_append.mp ha with ha | ha
      · obtain ⟨i, hi, rfl⟩ := List.mem_map.mp ha
        exact loadInfraAccesses_inInfra ((netCollectorInit_infraInv_iff cfg b).mp h) i hi
      · exact settings.trace_inv settings_step_inv settings_out_inInfra hstart ops a ha

/-- A negative number is where the add button writes first. -/
theorem negative_count_add {cfg : Config} (b : BootInput)
    (h : configGetInt cfg (CStr.lit "infra_count") 0 < 0) :
    settings.trace (.start cfg b) [.create, .addDevice] =
      ⟨.infra, configGetInt cfg (CStr.lit "infra_count") 0⟩ ::
        cardAccesses (configGetInt cfg (CStr.lit "infra_count") 0) := by
  have h8 : 0 ≤ appMaxInfraDevices := by decide
  have hmin : min (configGetInt cfg (CStr.lit "infra_count") 0) appMaxInfraDevices =
      configGetInt cfg (CStr.lit "infra_count") 0 := min_eq_left (h.le.trans h8)
  have hcount : (uiSettingsCreate (.start cfg b)).infraCount =
      configGetInt cfg (CStr.lit "infra_count") 0 := by
    show min (netCollectorInit cfg b).state.numInfra appMaxInfraDevices = _
    rw [netCollectorInit_numInfra]
    show min (min _ _) _ = _
    rw [hmin, hmin]
  have hcreate : createAccesses (.start cfg b) = [] := by
    unfold createAccesses
    rw [hcount, Int.toNat_of_nonpos h.le]
    rfl
  have hadd : addAccesses (uiSettingsCreate (.start cfg b)) =
      ⟨.infra, configGetInt cfg (CStr.lit "infra_count") 0⟩ ::
        cardAccesses (configGetInt cfg (CStr.lit "infra_count") 0) := by
    unfold addAccesses
    rw [hcount, if_neg (by omega)]
  show createAccesses (.start cfg b) ++ (addAccesses (uiSettingsCreate (.start cfg b)) ++ []) = _
  rw [hcreate, hadd, List.nil_append, List.append_nil]

/-- With `infra_count=-1` in the file, the first press of the add button writes in front of
the table and of the screen's arrays. -/
theorem negative_count_writes_below : ¬ ∀ a ∈ infraAccesses
    (configLoad (some (CStr.lit "infra_count=-1\n").bytes)).2 ⟨some [], none, ⟨0, 0⟩⟩
    [.create, .addDevice], InInfra a.index := by
  decide +kernel

end NetMon.Ui
