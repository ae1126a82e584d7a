import NetMon.Net.Dns
import NetMon.Ui.EditWidgets
import NetMon.Ui.WifiPanel

/-!
# The settings screen as a whole

`ui_settings_create` fills the widgets from the configuration, the user changes them, the save
button writes what they hold into the configuration and the file, and the WiFi panel works on the
WiFi manager and the configuration in memory. `settingsUi` is all of this over time, with the
collector's ticks, failing writes and restarts in any order. It emits the commands of each
connection to a network.
-/

namespace NetMon.Ui

open NetMon.Lib NetMon.Core NetMon.Net

/-! ## The widgets -/

/-- The alert thresholds, each with a stepper. -/
inductive Threshold where
  | bwWarn | bwCrit | pingWarn | pingCrit | err
  deriving DecidableEq

namespace Threshold

def key : Threshold → CStr
  | bwWarn => .lit "alert_bw_warn_pct"
  | bwCrit => .lit "alert_bw_crit_pct"
  | pingWarn => .lit "alert_ping_warn_ms"
  | pingCrit => .lit "alert_ping_crit_ms"
  | err => .lit "alert_err_threshold"

/-- `APP_ALERT_..` -/
def dflt : Threshold → Int
  | bwWarn => 80
  | bwCrit => 95
  | pingWarn => 100
  | pingCrit => 500
  | err => 10

def min : Threshold → Int
  | bwWarn => 0
  | bwCrit => 0
  | pingWarn => 10
  | pingCrit => 100
  | err => 1

def max : Threshold → Int
  | bwWarn => 100
  | bwCrit => 100
  | pingWarn => 1000
  | pingCrit => 5000
  | err => 100

def step : Threshold → Int
  | bwWarn => 5
  | bwCrit => 5
  | pingWarn => 10
  | pingCrit => 100
  | err => 1

def unit : Threshold → CStr
  | bwWarn => .lit "%"
  | bwCrit => .lit "%"
  | pingWarn => .lit " ms"
  | pingCrit => .lit " ms"
  | err => .empty

def stepper (t : Threshold) (cfg : Config) : Stepper :=
  uiCreateStepper t.min t.max t.step (configGetInt cfg t.key t.dflt) t.unit

end Threshold

/-- The options of the list of test hosts. -/
def dnsHosts : Vector CStr 3 :=
  #v[.lit "google.com", .lit "cloudflare.com", .lit "one.one.one.one"]

/-- The option that shows the configured host; another host is shown as the first. -/
def selectDnsHost (curHost : CStr) : Fin 3 :=
  if curHost = .lit "cloudflare.com" then 1
  else if curHost = .lit "one.one.one.one" then 2
  else 0

/-- What the widgets of the screen hold. -/
structure SettingsScreen (δ : Type) where
  pingTarget : IpEditor
  dnsTarget : IpEditor
  dnsHost : Fin 3
  wifi : WifiPanel δ
  steppers : Threshold → Stepper
  devices : Nat → DeviceForm

/-- `APP_DEFAULT_PING_TARGET`, `APP_DEFAULT_WIFI_SSID` and `APP_DEFAULT_WIFI_PASSWORD` -/
def defaultPingTarget : CStr := .lit "10.0.0.1"

def defaultWifiSsid : CStr := .lit "solarian"

def defaultWifiPassword : CStr := .lit "S0l@r1@n"

/-- The widgets of `create_infra_device_card`. -/
def deviceForm (roller : LvRoller) (dev : InfraDevice) : DeviceForm where
  ip := uiCreateIpEditor roller dev.ipStr.str
  type := dev.type
  enabled := dev.enabled

section Screen

variable {δ : Type} (lv : LvList δ) (roller : LvRoller)

def createWifiPanel (cfg : Config) (ws : WifiLink) : WifiPanel δ where
  wifiSwitch := configGetInt cfg (.lit "wifi_enabled") 1 ≠ 0 && ws.iface.bytes ≠ []
  statusLbl :=
    if ws.connected then (CharArray.copy 128 (.lit "Connected: " ++ ws.currentSsid.str)).str
    else if ws.iface.bytes ≠ [] then .lit "Not connected"
    else .lit "No WiFi adapter found"
  ssidDd := lv.setOptions lv.create (configGetStr cfg (.lit "wifi_ssid") defaultWifiSsid)
  password := configGetStr cfg (.lit "wifi_password") defaultWifiPassword

/-- The widgets `ui_settings_create` makes. -/
def createScreen (cfg : Config) (state : NetState) (ws : WifiLink) : SettingsScreen δ where
  pingTarget :=
    uiCreateIpEditor roller (configGetStr cfg (.lit "ping_target") defaultPingTarget)
  dnsTarget := uiCreateIpEditor roller (configGetStr cfg (.lit "dns_target") defaultDnsTarget)
  dnsHost := selectDnsHost (configGetStr cfg (.lit "dns_test_hostname") defaultDnsHost)
  wifi := createWifiPanel lv cfg ws
  steppers t := t.stepper cfg
  devices i := deviceForm roller (state.infra i)

/-- What `save_btn_cb` reads off the widgets. -/
def SettingsScreen.form (sc : SettingsScreen δ) : SettingsForm where
  pingTarget := sc.pingTarget
  dnsTarget := sc.dnsTarget
  dnsTestHostname := .copy 64 dnsHosts[sc.dnsHost]
  bwWarnPct := (sc.steppers .bwWarn).value
  bwCritPct := (sc.steppers .bwCrit).value
  pingWarnMs := (sc.steppers .pingWarn).value
  pingCritMs := (sc.steppers .pingCrit).value
  errThreshold := (sc.steppers .err).value
  wifiEnabled := sc.wifi.wifiSwitch
  wifiSsid := selectedSsid lv sc.wifi
  wifiPassword := sc.wifi.password
  devices := sc.devices

/-! ## Edits -/

/-- A roller turned, an option selected, a button of a stepper pressed, a text typed. -/
inductive Edit where
  | pingTarget (i : Fin 4) (octet : UInt8)
  | dnsTarget (i : Fin 4) (octet : UInt8)
  | dnsHost (i : Fin 3)
  | minus (t : Threshold)
  | plus (t : Threshold)
  | ssid (i : Nat)
  | password (text : CStr)
  | deviceIp (d : Nat) (i : Fin 4) (octet : UInt8)
  | deviceType (d : Nat) (type : InfraDeviceType)
  | deviceEnabled (d : Nat) (on : Bool)

/-- An option has to be one of the list, and a text of one line. -/
def Edit.apply (sc : SettingsScreen δ) : Edit → SettingsScreen δ
  | pingTarget i octet => { sc with pingTarget := sc.pingTarget.set i octet }
  | dnsTarget i octet => { sc with dnsTarget := sc.dnsTarget.set i octet }
  | dnsHost i => { sc with dnsHost := i }
  | minus t => { sc with
      steppers := Function.update sc.steppers t (stepperMinusCb (sc.steppers t)) }
  | plus t => { sc with
      steppers := Function.update sc.steppers t (stepperPlusCb (sc.steppers t)) }
  | ssid i =>
    if i < (optionsOf (lv.getOptions sc.wifi.ssidDd)).length then
      { sc with wifi := { sc.wifi with ssidDd := lv.setSelected sc.wifi.ssidDd i } }
    else sc
  | password text =>
    if newline ∈ text.bytes then sc else { sc with wifi := { sc.wifi with password := text } }
  | deviceIp d i octet => { sc with
      devices := Function.update sc.devices d
        { sc.devices d with ip := (sc.devices d).ip.set i octet } }
  | deviceType d type => { sc with
      devices := Function.update sc.devices d { sc.devices d with type := type } }
  | deviceEnabled d on => { sc with
      devices := Function.update sc.devices d { sc.devices d with enabled := on } }

/-! ## The program over time -/

/-- The collector and the number of devices, the WiFi manager, the screen once it was created, and
the configuration's file. -/
structure SettingsUi (δ : Type) where
  app : SettingsApp
  wifi : WifiLink
  screen : Option (SettingsScreen δ)
  file : Option Bytes

namespace SettingsUi

def cfg (s : SettingsUi δ) : Config := s.app.collector.cfg

/-- Another configuration in memory. -/
def setCfg (s : SettingsUi δ) (cfg : Config) : SettingsUi δ :=
  { s with app := { s.app with collector := { s.app.collector with cfg := cfg } } }

/-- `main` up to its loop. -/
def start (file : Option Bytes) (b : BootInput) (host : WifiHost) : SettingsUi δ where
  app := .start (configLoad file).2 b
  wifi := (autoConnect (configLoad file).2 host).1
  screen := none
  file := file

end SettingsUi

/-- What the user, the timers and the power switch do. -/
inductive UiEvent where
  | tick (t : Tick)
  | update (host : WifiHost)
  | create
  | edit (e : Edit)
  | addDevice
  | wifiSwitch (on : Bool) (shell : CStr → CmdResult)
  | wifiScan (shell : CStr → CmdResult)
  | wifiConnect (shell : CStr → CmdResult)
  | save (written : Bool)
  | restart (b : BootInput) (host : WifiHost)

/-- `add_device_cb`, and the widgets of the new card; the count is not negative. -/
def addDevice (s : SettingsUi δ) (sc : SettingsScreen δ) : SettingsUi δ :=
  let app := addDeviceCb s.app
  let devices := if s.app.infraCount ≥ appMaxInfraDevices then sc.devices
    else Function.update sc.devices s.app.infraCount.toNat
      (deviceForm roller (app.collector.state.infra s.app.infraCount))
  { s with app := app, screen := some { sc with devices := devices } }

/-- `wifi_connect_cb` on the screen -/
def connect (shell : CStr → CmdResult) (s : SettingsUi δ) (sc : SettingsScreen δ) :
    SettingsUi δ :=
  let (wifi, cfg, panel) := wifiConnectCb lv shell s.wifi s.cfg sc.wifi
  { s.setCfg cfg with wifi := wifi, screen := some { sc with wifi := panel } }

/-- `save_btn_cb`; a file that cannot be opened is left as it is. -/
def save (written : Bool) (s : SettingsUi δ) (sc : SettingsScreen δ) : SettingsUi δ :=
  let app := saveBtnCb s.app (sc.form lv)
  { s with app := app, file := if written then some (configSave app.collector.cfg) else s.file }

/-- The commands `wifi_connect_cb` runs. -/
def connectCommands (shell : CStr → CmdResult) (s : SettingsUi δ) (sc : SettingsScreen δ) :
    List CStr :=
  let ssid := selectedSsid lv sc.wifi
  if ssid.bytes = [] then []
  else (wifiMgrConnect shell s.wifi (some ssid.str) (some sc.wifi.password)).commands

/-- The program. The buttons are there once the screen was created, which is done once. -/
def settingsUi : Machine (SettingsUi δ) UiEvent (List CStr) where
  step s e :=
    match e, s.screen with
    | .tick t, _ => { s with app := settings.step s.app (.tick t) }
    | .update host, _ => { s with wifi := wifiMgrUpdate host s.wifi }
    | .restart b host, _ => .start s.file b host
    | .create, none =>
      { s with
        app := uiSettingsCreate s.app
        screen := some (createScreen lv roller s.cfg s.app.collector.state s.wifi) }
    | .create, some _ => s
    | .edit e, some sc => { s with screen := some (e.apply lv sc) }
    | .addDevice, some sc => addDevice roller s sc
    | .wifiSwitch on shell, some sc =>
      let (wifi, panel) := wifiSwitchCb shell on s.wifi sc.wifi
      { s with wifi := wifi, screen := some { sc with wifi := panel } }
    | .wifiScan shell, some sc =>
      let (wifi, panel) := wifiScanCb lv shell s.wifi sc.wifi
      { s with wifi := wifi, screen := some { sc with wifi := panel } }
    | .wifiConnect shell, some sc => connect lv shell s sc
    | .save written, some sc => save lv written s sc
    | _, none => s
  out s e :=
    match e, s.screen with
    | .wifiConnect shell, some sc => [connectCommands lv shell s sc]
    | .restart _ host, _ => [(autoConnect (configLoad s.file).2 host).2]
    | _, _ => []

end Screen

end NetMon.Ui
