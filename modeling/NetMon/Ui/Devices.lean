import Mathlib.Data.List.Flatten
import NetMon.Core.ConfigReload
import NetMon.Ui.Settings

/-!
# The devices after a restart

The save button stores the number of devices and, for each, its address and type, and
`load_infra_config` reads a name besides and takes a device with an address for enabled.
`survives_iff` says when the table comes back as it was shown: the names and the switches
are not in the file.
-/

namespace NetMon.Ui

open NetMon.Lib NetMon.Core NetMon.Net

/-- What a device's row and its card tell of it. -/
structure DeviceView where
  name : CharArray 32
  ipStr : CharArray 16
  type : InfraDeviceType
  enabled : Bool
  deriving DecidableEq

def view (dev : InfraDevice) : DeviceView := ⟨dev.name, dev.ipStr, dev.type, dev.enabled⟩

/-- What is shown when the button is pressed: the name is the table's, the rest is in the
widgets. -/
def shown (u : SettingsApp) (form : SettingsForm) (i : Nat) : DeviceView where
  name := (u.collector.state.infra i).name
  ipStr := CharArray.copy 16 (uiIpEditorGetValue (form.devices i).ip)
  type := (form.devices i).type
  enabled := (form.devices i).enabled

/-- The table a start makes of the saved file. -/
def restarted (u : SettingsApp) (form : SettingsForm) : NetState :=
  loadInfraConfig (reload (saveBtnCb u form).collector.cfg) NetState.zero

/-- The devices are the same after the restart. -/
structure Survives (u : SettingsApp) (form : SettingsForm) : Prop where
  count : (restarted u form).numInfra = u.infraCount
  devices : ∀ i : Nat, (i : Int) < u.infraCount →
    view ((restarted u form).infra i) = shown u form i

/-- A name comes back if the configuration has it already, a switch if it is on. Address and
type come back unless an entry with a cut key stands behind theirs and says otherwise. -/
structure Kept (u : SettingsApp) (form : SettingsForm) (i : Nat) : Prop where
  name : CharArray.copy 32 (configGetStr (reload u.collector.cfg) (infraKey i "name")
    (CStr.lit "Device")) = (u.collector.state.infra i).name
  enabled : (form.devices i).enabled = true
  ip : ∀ v ∈ laterReading u.collector.cfg (infraKey i "ip"),
    CharArray.copy 16 v = CharArray.copy 16 (uiIpEditorGetValue (form.devices i).ip)
  type : ∀ v ∈ laterReading u.collector.cfg (infraKey i "type"),
    infraParseType v = (form.devices i).type

/-- The state before the button is pressed, and the form, from which a restart comes back. -/
structure Restorable (u : SettingsApp) (form : SettingsForm) : Prop where
  count : ∀ v ∈ laterReading u.collector.cfg (CStr.lit "infra_count"),
    min ((strtol v).getD 0) appMaxInfraDevices = u.infraCount
  devices : ∀ i : Nat, (i : Int) < u.infraCount → Kept u form i

/-- No line breaks are in the entries of a dropdown and in a one-line text field. -/
structure OneLine (form : SettingsForm) : Prop where
  dnsTestHostname : newline ∉ form.dnsTestHostname.bytes
  wifiSsid : newline ∉ form.wifiSsid.bytes
  wifiPassword : newline ∉ form.wifiPassword.bytes

instance (form : SettingsForm) : Decidable (OneLine form) :=
  decidable_of_iff (newline ∉ form.dnsTestHostname.bytes ∧ newline ∉ form.wifiSsid.bytes ∧
    newline ∉ form.wifiPassword.bytes) ⟨fun ⟨h1, h2, h3⟩ => ⟨h1, h2, h3⟩, fun h => ⟨h.1, h.2, h.3⟩⟩

/-- The forms the save button finds. -/
def SettingsOp.OneLine : SettingsOp → Prop
  | .save form => NetMon.Ui.OneLine form
  | _ => True

/-- The keys a number of devices is stored under. -/
def deviceKeys (n : Nat) : List CStr :=
  CStr.lit "infra_count" :: (List.range n).flatMap fun i => [infraKey i "ip", infraKey i "type"]

/-- The table has room for these keys: all of them are in it once the button was pressed. -/
def Room (u : SettingsApp) (form : SettingsForm) : Prop :=
  ∀ key ∈ deviceKeys u.infraCount.toNat, (saveBtnCb u form).collector.cfg.Stored key

instance (u : SettingsApp) (form : SettingsForm) : Decidable (Room u form) :=
  inferInstanceAs (Decidable (∀ key ∈ deviceKeys u.infraCount.toNat,
    (saveBtnCb u form).collector.cfg.Stored key))

/-! ## What the button assigns -/

/-- The keys of the other settings. -/
def generalKeys : List CStr :=
  ["ping_target", "dns_target", "dns_test_hostname", "alert_bw_warn_pct", "alert_bw_crit_pct",
    "alert_ping_warn_ms", "alert_ping_crit_ms", "alert_err_threshold", "wifi_enabled"].map
      CStr.lit ++ [CStr.lit "wifi_ssid"] ++ [CStr.lit "wifi_password"]

def ssidWrites (form : SettingsForm) : List (CStr × CStr) :=
  if form.wifiSsid.bytes ≠ [] then [(CStr.lit "wifi_ssid", form.wifiSsid.str)] else []

def generalWrites (form : SettingsForm) : List (CStr × CStr) :=
  [(CStr.lit "ping_target", uiIpEditorGetValue form.pingTarget),
    (CStr.lit "dns_target", uiIpEditorGetValue form.dnsTarget),
    (CStr.lit "dns_test_hostname", form.dnsTestHostname.str),
    (CStr.lit "alert_bw_warn_pct", CStr.lit s!"{form.bwWarnPct}"),
    (CStr.lit "alert_bw_crit_pct", CStr.lit s!"{form.bwCritPct}"),
    (CStr.lit "alert_ping_warn_ms", CStr.lit s!"{form.pingWarnMs}"),
    (CStr.lit "alert_ping_crit_ms", CStr.lit s!"{form.pingCritMs}"),
    (CStr.lit "alert_err_threshold", CStr.lit s!"{form.errThreshold}"),
    (CStr.lit "wifi_enabled", CStr.lit s!"{if form.wifiEnabled then (1 : Int) else 0}")] ++
  ssidWrites form ++ [(CStr.lit "wifi_password", form.wifiPassword)]

def deviceWrites (form : SettingsForm) (i : Nat) : List (CStr × CStr) :=
  [(infraKey i "ip", uiIpEditorGetValue (form.devices i).ip),
    (infraKey i "type", typeWord (form.devices i).type)]

/-- All assignments, in order. -/
def saveWrites (form : SettingsForm) (n : Int) : List (CStr × CStr) :=
  generalWrites form ++ (CStr.lit "infra_count", CStr.lit s!"{n}") ::
    (List.range n.toNat).flatMap (deviceWrites form)

theorem saveGeneral_eq (form : SettingsForm) (cfg : Config) :
    saveGeneral form cfg = setAll cfg (generalWrites form) := by
  have hssid : ∀ cfg : Config,
      (if form.wifiSsid.bytes ≠ [] then
        configSetStr cfg (CStr.lit "wifi_ssid") form.wifiSsid.str
      else cfg) = setAll cfg (ssidWrites form) := by
    intro cfg
    unfold ssidWrites
    split <;> rfl
  rw [generalWrites, setAll_append, setAll_append, ← hssid]
  simp only [saveGeneral, setAll, List.foldl_cons, List.foldl_nil, configSetInt]

theorem foldl_saveDevice_cfg (form : SettingsForm) (is : List Nat) (c : Collector) :
    (is.foldl (saveDevice form) c).cfg = setAll c.cfg (is.flatMap (deviceWrites form)) := by
  induction is generalizing c with
  | nil => rfl
  | cons i is ih =>
    have hstep : (saveDevice form c i).cfg = setAll c.cfg (deviceWrites form i) := by
      simp only [saveDevice, setAll, deviceWrites, List.foldl_cons, List.foldl_nil]
    rw [List.foldl_cons, ih, hstep, List.flatMap_cons, setAll_append]

theorem saveBtnCb_cfg (u : SettingsApp) (form : SettingsForm) :
    (saveBtnCb u form).collector.cfg =
      setAll u.collector.cfg (saveWrites form u.infraCount) := by
  show (List.foldl (saveDevice form) _ _).cfg = _
  rw [foldl_saveDevice_cfg, saveGeneral_eq, saveWrites, setAll_append]
  rfl

/-! ## The keys -/

/-- The keys of the most devices there can be are different clean ones. -/
theorem keys_nodup : (generalKeys ++ deviceKeys 8).Nodup := by decide +kernel

theorem keys_clean : ∀ key ∈ generalKeys ++ deviceKeys 8,
    Clean key CStr.empty ∧ key.length < 64 := by decide +kernel

theorem nameKey_notMem : ∀ i < 8, infraKey i "name" ∉ generalKeys ++ deviceKeys 8 := by
  decide +kernel

/-- The keys of at most eight devices. -/
theorem deviceWrites_keys (form : SettingsForm) (value : CStr) {n : Nat} (hn : n ≤ 8) :
    (((CStr.lit "infra_count", value) ::
      (List.range n).flatMap (deviceWrites form)).map Prod.fst).Sublist (deviceKeys 8) := by
  have hdevices : ((List.range n).flatMap (deviceWrites form)).map Prod.fst =
      (List.range n).flatMap fun i => [infraKey i "ip", infraKey i "type"] := by
    rw [List.map_flatMap]
    rfl
  rw [List.map_cons, hdevices]
  exact ((List.range_sublist.mpr hn).flatMap _).cons_cons _

theorem saveWrites_keys (form : SettingsForm) {n : Int} (hn : n ≤ 8) :
    ((saveWrites form n).map Prod.fst).Sublist (generalKeys ++ deviceKeys 8) := by
  have hssid : ((ssidWrites form).map Prod.fst).Sublist [CStr.lit "wifi_ssid"] := by
    unfold ssidWrites
    split
    · exact List.Sublist.refl _
    · exact List.nil_sublist _
  have hgeneral : ((generalWrites form).map Prod.fst).Sublist generalKeys := by
    rw [generalWrites, List.map_append, List.map_append]
    exact ((List.Sublist.refl _).append hssid).append (List.Sublist.refl _)
  rw [saveWrites, List.map_append]
  exact hgeneral.append (deviceWrites_keys form _ (by omega))

/-! ## The values -/

theorem int_visible (z : Int) : ∀ b ∈ (CStr.lit s!"{z}").bytes, isspace b = false := by
  rw [CStr.lit_int, List.forall_mem_append]
  refine ⟨fun b hb => ?_, decimal_visible _⟩
  split at hb
  · rw [List.mem_singleton.mp hb]
    decide
  · cases hb

theorem typeWord_visible (t : InfraDeviceType) : ∀ b ∈ (typeWord t).bytes, isspace b = false := by
  have hall : (typeWord t).bytes.all (fun b => !isspace b) = true := by cases t <;> decide
  intro b hb
  simpa using List.all_eq_true.mp hall b hb

theorem typeWord_length (t : InfraDeviceType) : (typeWord t).length ≤ 127 := by
  cases t <;> decide

theorem infraParseType_typeWord (t : InfraDeviceType) : infraParseType (typeWord t) = t := by
  cases t <;> decide

/-- A device's values are visible, and short enough to be stored whole. -/
theorem deviceWrites_value (form : SettingsForm) (i : Nat) : ∀ kv ∈ deviceWrites form i,
    (∀ b ∈ kv.2.bytes, isspace b = false) ∧ kv.2.length ≤ 127 := by
  intro kv hkv
  simp only [deviceWrites, List.mem_cons, List.not_mem_nil, or_false] at hkv
  rcases hkv with rfl | rfl
  · exact ⟨uiIpEditorGetValue_visible _, (uiIpEditorGetValue_length _).trans (by decide)⟩
  · exact ⟨typeWord_visible _, typeWord_length _⟩

theorem newline_notMem {s : CStr} (h : ∀ b ∈ s.bytes, isspace b = false) : newline ∉ s.bytes :=
  fun hm => absurd (h newline hm) (by decide)

theorem saveWrites_newline {form : SettingsForm} (h : OneLine form) (n : Int) :
    ∀ kv ∈ saveWrites form n, newline ∉ kv.2.bytes := by
  have hssid : ∀ kv ∈ ssidWrites form, newline ∉ kv.2.bytes := by
    unfold ssidWrites
    split
    · exact List.forall_mem_singleton.mpr h.wifiSsid
    · exact fun kv hkv => nomatch hkv
  have hip : ∀ e, newline ∉ (uiIpEditorGetValue e).bytes :=
    fun e => newline_notMem (uiIpEditorGetValue_visible e)
  have hint : ∀ z : Int, newline ∉ (CStr.lit s!"{z}").bytes :=
    fun z => newline_notMem (int_visible z)
  simp only [saveWrites, generalWrites, List.forall_mem_append, List.forall_mem_cons]
  refine ⟨⟨⟨⟨hip _, hip _, h.dnsTestHostname, hint _, hint _, hint _, hint _, hint _, hint _,
    fun kv hkv => nomatch hkv⟩, hssid⟩, h.wifiPassword, fun kv hkv => nomatch hkv⟩, hint n,
    fun kv hkv => ?_⟩
  obtain ⟨i, -, hkv⟩ := List.mem_flatMap.mp hkv
  exact newline_notMem (deviceWrites_value form i kv hkv).1

/-! ## Before the button is pressed -/

/-- What every tick and press keeps: the configuration can be written, and the numbers of
devices are as small as a number in the file can be, and as large as the table. -/
structure DevicesInv (u : SettingsApp) : Prop where
  legible : u.collector.cfg.Legible
  numInfra : -2147483648 ≤ u.collector.state.numInfra
  infraCount_low : -2147483648 ≤ u.infraCount
  infraCount_high : u.infraCount ≤ 8

theorem saveWrites_legible {form : SettingsForm} (h : OneLine form) {n : Int} (hn : n ≤ 8) :
    ∀ kv ∈ saveWrites form n, Legible kv.1 kv.2 := by
  intro kv hkv
  have hkey := (saveWrites_keys form hn).subset (List.mem_map_of_mem hkv)
  obtain ⟨hhead, hequals, hnewline, -⟩ := (keys_clean kv.1 hkey).1.legible
  exact ⟨hhead, hequals, hnewline, saveWrites_newline h n kv hkv⟩

theorem saveWrites_trimmed (form : SettingsForm) {n : Int} (hn : n ≤ 8) :
    ∀ kv ∈ saveWrites form n, kv.1.Trimmed ∧ kv.1.length < 64 := by
  intro kv hkv
  have hkey := (saveWrites_keys form hn).subset (List.mem_map_of_mem hkv)
  exact ⟨(keys_clean kv.1 hkey).1.key_trimmed, (keys_clean kv.1 hkey).2⟩

theorem DevicesInv.saved_legible {u : SettingsApp} (h : DevicesInv u) {form : SettingsForm}
    (hform : OneLine form) : (saveBtnCb u form).collector.cfg.Legible := by
  rw [saveBtnCb_cfg]
  exact legible_setAll h.legible (saveWrites_legible hform h.infraCount_high)

theorem saveBtnCb_devicesInv {u : SettingsApp} (h : DevicesInv u) {form : SettingsForm}
    (hform : OneLine form) : DevicesInv (saveBtnCb u form) :=
  ⟨h.saved_legible hform, h.infraCount_low, h.infraCount_low, h.infraCount_high⟩

theorem addDeviceCb_devicesInv {u : SettingsApp} (h : DevicesInv u) :
    DevicesInv (addDeviceCb u) := by
  unfold addDeviceCb
  split
  · exact h
  · next hroom =>
    have hlow := h.infraCount_low
    have hhigh : u.infraCount < 8 := not_le.mp hroom
    exact ⟨h.legible, by show -2147483648 ≤ u.infraCount + 1; omega,
      by show -2147483648 ≤ u.infraCount + 1; omega, by show u.infraCount + 1 ≤ 8; omega⟩

theorem settings_step_devicesInv (u : SettingsApp) (op : SettingsOp) (hop : op.OneLine)
    (h : DevicesInv u) : DevicesInv (settings.step u op) := by
  cases op with
  | tick t =>
    obtain ⟨hcount, hcfg⟩ := step_keeps u.collector t
    exact ⟨hcfg ▸ h.legible, h.numInfra.trans_eq hcount.symm, h.infraCount_low, h.infraCount_high⟩
  | create =>
    exact ⟨h.legible, h.numInfra, le_min h.numInfra (by decide), min_le_right _ _⟩
  | addDevice =>
    show DevicesInv (if u.created then addDeviceCb u else u)
    split
    · exact addDeviceCb_devicesInv h
    · exact h
  | save form =>
    show DevicesInv (if u.created then saveBtnCb u form else u)
    split
    · exact saveBtnCb_devicesInv h hop
    · exact h

theorem configGetInt_low (cfg : Config) (key : CStr) :
    -2147483648 ≤ configGetInt cfg key 0 := by
  unfold configGetInt
  split
  · next idx _ =>
    cases hread : cfg.entries[idx]?.bind fun e => strtol e.value.str with
    | none => decide
    | some z =>
      obtain ⟨e, -, hz⟩ := Option.bind_eq_some_iff.mp hread
      obtain ⟨p, -, rfl⟩ := Option.map_eq_some_iff.mp hz
      exact le_max_left _ _
  · decide

theorem start_devicesInv (file : Option Bytes) (b : BootInput) :
    DevicesInv (.start (configLoad file).2 b) := by
  have hlow : (-2147483648 : Int) ≤ 0 := by decide
  have hhigh : (0 : Int) ≤ 8 := by decide
  refine ⟨legible_configLoad file, ?_, hlow, hhigh⟩
  show -2147483648 ≤ (netCollectorInit (configLoad file).2 b).state.numInfra
  rw [netCollectorInit_numInfra]
  exact le_min (configGetInt_low _ _) (by decide)

theorem run_devicesInv (file : Option Bytes) (b : BootInput) {ops : List SettingsOp}
    (hops : ∀ op ∈ ops, op.OneLine) :
    DevicesInv (settings.exec (.start (configLoad file).2 b) ops) :=
  settings.exec_inv_of_inputs settings_step_devicesInv (start_devicesInv file b) hops

/-! ## After the restart -/

section Restart

variable {u : SettingsApp} {form : SettingsForm}

/-- What a key of a device is read as in the saved file. -/
theorem get_saved (h : DevicesInv u) (hform : OneLine form) (hroom : Room u form)
    {key value : CStr} (hkey : key ∈ deviceKeys u.infraCount.toNat)
    (hmem : (key, value) ∈ saveWrites form u.infraCount)
    (hvalue : ∀ b ∈ value.bytes, isspace b = false) (hfits : value.length ≤ 127) (dflt : CStr) :
    configGetStr (reload (saveBtnCb u form).collector.cfg) key dflt =
      (laterReading u.collector.cfg key).getD value := by
  have hkept := hroom key hkey
  have hlegible := h.saved_legible hform
  rw [saveBtnCb_cfg] at hkept hlegible ⊢
  exact get_reload_assigned (saveWrites_trimmed form h.infraCount_high) hlegible
    (saveWrites_trimmed form h.infraCount_high _ hmem).1 hkept
    (lastAssigned_of_mem (keys_nodup.sublist (saveWrites_keys form h.infraCount_high)) hmem)
    (CStr.trimmed_of_visible hvalue) hfits dflt

theorem get_saved_name (h : DevicesInv u) (hform : OneLine form) {i : Nat} (hi : i < 8)
    (dflt : CStr) :
    configGetStr (reload (saveBtnCb u form).collector.cfg) (infraKey i "name") dflt =
      configGetStr (reload u.collector.cfg) (infraKey i "name") dflt := by
  have hlegible := h.saved_legible hform
  rw [saveBtnCb_cfg] at hlegible ⊢
  refine get_reload_other (saveWrites_trimmed form h.infraCount_high) h.legible hlegible
    (fun kv hkv heq => nameKey_notMem i hi ?_) dflt
  rw [← heq]
  exact (saveWrites_keys form h.infraCount_high).subset (List.mem_map_of_mem hkv)

/-- A reading is right if the one in its place is, if there is one. -/
theorem getD_iff {P : CStr → Prop} {o : Option CStr} {value : CStr} (h : P value) :
    P (o.getD value) ↔ ∀ v ∈ o, P v := by
  cases o with
  | none => exact iff_of_true h fun v hv => nomatch hv
  | some v => simp

theorem count_iff (h : DevicesInv u) (hform : OneLine form) (hroom : Room u form) :
    (restarted u form).numInfra = u.infraCount ↔
      ∀ v ∈ laterReading u.collector.cfg (CStr.lit "infra_count"),
        min ((strtol v).getD 0) appMaxInfraDevices = u.infraCount := by
  have hlow := h.infraCount_low
  have hhigh := h.infraCount_high
  have hmem : (CStr.lit "infra_count", CStr.lit s!"{u.infraCount}") ∈
      saveWrites form u.infraCount := List.mem_append_right _ List.mem_cons_self
  have hget := get_saved h hform hroom List.mem_cons_self hmem (int_visible _)
    ((CStr.lit_int_length_le hlow (by omega)).trans (by omega))
  have hown : min ((strtol (CStr.lit s!"{u.infraCount}")).getD 0) appMaxInfraDevices =
      u.infraCount := by
    rw [strtol_lit hlow (by omega)]
    exact min_eq_left hhigh
  show min (configGetInt _ _ _) _ = _ ↔ _
  rw [configGetInt_of_get hget]
  exact getD_iff (P := fun v => min ((strtol v).getD 0) appMaxInfraDevices = u.infraCount) hown

/-- What a device's address and type are read as. -/
theorem get_saved_device (h : DevicesInv u) (hform : OneLine form) (hroom : Room u form) {i : Nat}
    (hi : (i : Int) < u.infraCount) {key value : CStr} (hkv : (key, value) ∈ deviceWrites form i)
    (dflt : CStr) : configGetStr (reload (saveBtnCb u form).collector.cfg) key dflt =
      (laterReading u.collector.cfg key).getD value := by
  have hhigh := h.infraCount_high
  have hrange : i ∈ List.range u.infraCount.toNat := List.mem_range.mpr (by omega)
  have hwrite : (key, value) ∈ saveWrites form u.infraCount :=
    List.mem_append_right _ (List.mem_cons_of_mem _ (List.mem_flatMap.mpr ⟨i, hrange, hkv⟩))
  have hmem : key ∈ (deviceWrites form i).map Prod.fst := List.mem_map_of_mem hkv
  have hkey : key ∈ deviceKeys u.infraCount.toNat :=
    List.mem_cons_of_mem _ (List.mem_flatMap.mpr ⟨i, hrange, hmem⟩)
  obtain ⟨hvisible, hfits⟩ := deviceWrites_value form i _ hkv
  exact get_saved h hform hroom hkey hwrite hvisible hfits dflt

theorem device_iff (h : DevicesInv u) (hform : OneLine form) (hroom : Room u form) {i : Nat}
    (hi : (i : Int) < u.infraCount) :
    view (loadInfraDevice (reload (saveBtnCb u form).collector.cfg) i) = shown u form i ↔
      Kept u form i := by
  have hhigh := h.infraCount_high
  have hname := get_saved_name h hform (i := i) (by omega) (CStr.lit "Device")
  have hip := get_saved_device h hform hroom hi List.mem_cons_self CStr.empty
  have htype := get_saved_device h hform hroom hi
    (List.mem_cons_of_mem _ List.mem_cons_self) (CStr.lit "other")
  have hipIff := getD_iff (o := laterReading u.collector.cfg (infraKey i "ip"))
    (P := fun v => CharArray.copy 16 v =
      CharArray.copy 16 (uiIpEditorGetValue (form.devices i).ip)) rfl
  have htypeIff := getD_iff (o := laterReading u.collector.cfg (infraKey i "type"))
    (P := fun v => infraParseType v = (form.devices i).type) (infraParseType_typeWord _)
  rw [← hip] at hipIff
  rw [← htype] at htypeIff
  -- a device with an address is taken for enabled
  have henabled : CharArray.copy 16 (configGetStr (reload (saveBtnCb u form).collector.cfg)
        (infraKey i "ip") CStr.empty) =
      CharArray.copy 16 (uiIpEditorGetValue (form.devices i).ip) →
      (loadInfraDevice (reload (saveBtnCb u form).collector.cfg) i).enabled = true := fun heq => by
    apply decide_eq_true
    rw [heq]
    exact uiIpEditorGetValue_ne_nil _
  constructor
  · intro hview
    obtain ⟨hn, hi', ht, he⟩ := DeviceView.mk.inj hview
    refine ⟨?_, he.symm.trans (henabled hi'), hipIff.mp hi', htypeIff.mp ht⟩
    rw [← hname]
    exact hn
  · rintro ⟨hn, he, hi', ht⟩
    rw [← hname] at hn
    have hi' := hipIff.mpr hi'
    show DeviceView.mk _ _ _ _ = DeviceView.mk _ _ _ _
    rw [DeviceView.mk.injEq]
    exact ⟨hn, hi', htypeIff.mpr ht, (henabled hi').trans he.symm⟩

theorem restarted_infra {i : Nat} (hi : (i : Int) < (restarted u form).numInfra) :
    (restarted u form).infra i = loadInfraDevice (reload (saveBtnCb u form).collector.cfg) i :=
  if_pos ⟨Int.natCast_nonneg i, hi⟩

end Restart

/-- **Saved devices** come back from a restart, after any presses and edits, exactly when every
switch is on and every name is one that the configuration had before, and no cut key is in
the way. -/
theorem survives_iff (file : Option Bytes) (b : BootInput) (ops : List SettingsOp)
    (form : SettingsForm) (hops : ∀ op ∈ ops, op.OneLine) (hform : OneLine form)
    (hroom : Room (settings.exec (.start (configLoad file).2 b) ops) form) :
    Survives (settings.exec (.start (configLoad file).2 b) ops) form ↔
      Restorable (settings.exec (.start (configLoad file).2 b) ops) form := by
  have h := run_devicesInv file b hops
  generalize settings.exec (.start (configLoad file).2 b) ops = u at h hroom ⊢
  constructor
  · rintro ⟨hcount, hdevices⟩
    refine ⟨(count_iff h hform hroom).mp hcount, fun i hi => (device_iff h hform hroom hi).mp ?_⟩
    rw [← restarted_infra (hi.trans_eq hcount.symm)]
    exact hdevices i hi
  · rintro ⟨hlater, hkept⟩
    have hcount := (count_iff h hform hroom).mpr hlater
    refine ⟨hcount, fun i hi => ?_⟩
    rw [restarted_infra (hi.trans_eq hcount.symm)]
    exact (device_iff h hform hroom hi).mpr (hkept i hi)

/-- The form of a screen whose devices are all switches at one address. -/
def switchForm : SettingsForm where
  pingTarget := #v[1, 1, 1, 1]
  dnsTarget := #v[1, 1, 1, 1]
  dnsTestHostname := CharArray.copy 64 (CStr.lit "example.com")
  bwWarnPct := 80
  bwCritPct := 95
  pingWarnMs := 100
  pingCritMs := 500
  errThreshold := 10
  wifiEnabled := false
  wifiSsid := default
  wifiPassword := CStr.empty
  devices _ := ⟨#v[10, 0, 0, 2], .switch, true⟩

/-- One named device. -/
def oneDevice : Bytes := (CStr.lit "infra_count=1\ninfra_0_name=Rack\ninfra_0_ip=10.0.0.1\n").bytes

def noBoot : BootInput := ⟨some [], none, ⟨0, 0⟩⟩

/-- With another address and type it comes back. -/
theorem survives_rack :
    Survives (settings.exec (.start (configLoad (some oneDevice)).2 noBoot) [.create])
      switchForm := by
  refine (survives_iff (some oneDevice) noBoot [.create] switchForm
    (List.forall_mem_singleton.mpr trivial) (by decide +kernel) (by decide +kernel)).mpr
    ⟨by decide +kernel, fun i hi => ?_⟩
  have hone : (settings.exec (.start (configLoad (some oneDevice)).2 noBoot) [.create]).infraCount =
      1 := by decide +kernel
  obtain rfl : i = 0 := by omega
  exact ⟨by decide +kernel, rfl, by decide +kernel, by decide +kernel⟩

/-- A device that was added is called `Device 0`, and `Device` after the restart. -/
theorem added_device_renamed : ¬ ∀ (file : Option Bytes) (b : BootInput) (ops : List SettingsOp)
    (form : SettingsForm), (∀ op ∈ ops, op.OneLine) → OneLine form →
    Room (settings.exec (.start (configLoad file).2 b) ops) form →
    Survives (settings.exec (.start (configLoad file).2 b) ops) form := by
  intro h
  have hops : ∀ op ∈ [SettingsOp.create, .addDevice], op.OneLine := by
    simp [SettingsOp.OneLine]
  have hdevice := (h none noBoot [.create, .addDevice] switchForm hops (by decide +kernel)
    (by decide +kernel)).devices 0 (by decide +kernel)
  have hname := congrArg DeviceView.name hdevice
  revert hname
  decide +kernel

end NetMon.Ui
