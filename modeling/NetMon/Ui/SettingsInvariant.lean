import NetMon.Core.ConfigTidy
import NetMon.Ui.Devices
import NetMon.Ui.SettingsScreen

/-!
# What the settings screen keeps

`UiInv` is what every event keeps of the settings screen and what it stands on, from a file whose
keys are not too long: the configuration and the file have clean keys, the lists have options on
lines, the WiFi manager is consistent, and the steppers and the stored thresholds keep to bounds
around the steppers' ranges. From a file that is `FileOk`, the counts of the devices stay within
the arrays, too (`run_counts`).

The ranges themselves are such bounds, so a file that keeps to them stays so (`thresholds_inRange`).
-/

namespace NetMon.Ui

open NetMon.Lib NetMon.Core NetMon.Net

/-! ## Invariants -/

/-- The thresholds a configuration gives are within bounds. -/
def ThresholdsIn (lo hi : Threshold → Int) (cfg : Config) : Prop :=
  ∀ t : Threshold, lo t ≤ configGetInt cfg t.key t.dflt ∧ configGetInt cfg t.key t.dflt ≤ hi t

/-- Bounds around the ranges of the steppers, and a step away from the ends of an `int`. -/
structure Around (lo hi : Threshold → Int) : Prop where
  low : ∀ t, lo t ≤ t.min
  high : ∀ t, t.max ≤ hi t
  int_low : ∀ t, -2147483648 ≤ lo t - t.step
  int_high : ∀ t, hi t + t.step ≤ 2147483647

theorem Threshold.dflt_mem (t : Threshold) : t.min ≤ t.dflt ∧ t.dflt ≤ t.max := by
  cases t <;> decide

theorem Threshold.key_trimmed (t : Threshold) : t.key.Trimmed := by
  cases t <;> decide

theorem Threshold.key_general (t : Threshold) : t.key ∈ generalKeys := by
  cases t <;> decide

theorem Threshold.key_wifi (t : Threshold) :
    CStr.lit "wifi_ssid" ≠ t.key ∧ CStr.lit "wifi_password" ≠ t.key := by
  cases t <;> decide

theorem Threshold.step_range (t : Threshold) : 0 ≤ t.step ∧ t.min ≤ t.max := by
  cases t <;> decide

/-- The file's keys are not too long, and its thresholds are within bounds. -/
def FileInv (lo hi : Threshold → Int) (file : Option Bytes) : Prop :=
  ∀ text ∈ file, ShortKeys text ∧ ThresholdsIn lo hi (configLoad (some text)).2

/-- Bounds that leave every stepper a step within an `int`. -/
def clickLow (_ : Threshold) : Int := -2147483548

def clickHigh (_ : Threshold) : Int := 2147483547

/-- The file's keys are not too long, no threshold is at an end of an `int`, and the number of
devices is not negative. -/
structure FileOk (file : Option Bytes) : Prop where
  inv : FileInv clickLow clickHigh file
  count : 0 ≤ configGetInt (configLoad file).2 (.lit "infra_count") 0

section Invariant

variable {δ : Type} (lv : LvList δ) (roller : LvRoller) (lo hi : Threshold → Int)

/-- The screen's lists have a selected option, and an empty one only if the configured network has
no name; the password is one line, and the steppers are within their bounds. -/
structure ScreenInv (cfg : Config) (sc : SettingsScreen δ) : Prop where
  selected : lv.getSelected sc.wifi.ssidDd < (optionsOf (lv.getOptions sc.wifi.ssidDd)).length
  options : [] ∈ optionsOf (lv.getOptions sc.wifi.ssidDd) →
    lv.getOptions sc.wifi.ssidDd = .empty ∧
      configGetStr cfg (.lit "wifi_ssid") defaultWifiSsid = .empty
  password : newline ∉ sc.wifi.password.bytes
  steppers : ∀ t, (sc.steppers t).Within (lo t) (hi t)

structure UiInv (s : SettingsUi δ) : Prop where
  devices : DevicesInv s.app
  tidy : s.cfg.Tidy
  thresholds : ThresholdsIn lo hi s.cfg
  file : FileInv lo hi s.file
  wifi : WifiInv s.wifi
  screen : ∀ sc ∈ s.screen, ScreenInv lv lo hi s.cfg sc

end Invariant

/-! ## What the screen reads off -/

section Screen

variable {δ : Type} {lv : LvList δ} {roller : LvRoller} {lo hi : Threshold → Int} {cfg : Config}
  {sc : SettingsScreen δ}

/-- The selected name is an option, as far as it fits. -/
theorem selectedSsid_option (h : ScreenInv lv lo hi cfg sc) :
    ∃ t ∈ optionsOf (lv.getOptions sc.wifi.ssidDd),
      (selectedSsid lv sc.wifi).bytes = t.take 63 := by
  refine ⟨_, List.getElem_mem h.selected, ?_⟩
  have htext := lv.selectedStr sc.wifi.ssidDd 64 _ (List.getElem?_eq_getElem h.selected)
  show ((lv.getSelectedStr sc.wifi.ssidDd 64).bytes).take 63 = _
  rw [htext, List.take_take]
  rfl

theorem dnsHosts_line : ∀ i : Fin 3, newline ∉ (CharArray.copy 64 dnsHosts[i]).bytes := by
  decide

/-- A host that was stored is shown again. -/
theorem selectDnsHost_restored : ∀ i : Fin 3,
    selectDnsHost (((CharArray.copy 64 dnsHosts[i]).str.trunc 127).trim) = i := by
  decide

theorem selectedSsid_line (h : ScreenInv lv lo hi cfg sc) :
    newline ∉ (selectedSsid lv sc.wifi).bytes := by
  obtain ⟨t, ht, hbytes⟩ := selectedSsid_option h
  rw [hbytes]
  exact fun hmem => newline_notMem_fileLines ht (List.mem_of_mem_take hmem)

theorem form_oneLine (h : ScreenInv lv lo hi cfg sc) : OneLine (sc.form lv) :=
  ⟨dnsHosts_line sc.dnsHost, selectedSsid_line h, h.password⟩

/-- Nothing is selected only where nothing is configured. -/
theorem selectedSsid_nil (h : ScreenInv lv lo hi cfg sc)
    (hnil : (selectedSsid lv sc.wifi).bytes = []) : lv.getOptions sc.wifi.ssidDd = .empty ∧
      configGetStr cfg (.lit "wifi_ssid") defaultWifiSsid = .empty := by
  obtain ⟨t, ht, hbytes⟩ := selectedSsid_option h
  rw [hnil] at hbytes
  have ht0 : t = [] := (List.take_eq_nil_iff.mp hbytes.symm).resolve_left (by decide)
  exact h.options (ht0 ▸ ht)

theorem selectedSsid_of_empty (h : ScreenInv lv lo hi cfg sc)
    (hempty : lv.getOptions sc.wifi.ssidDd = .empty) : (selectedSsid lv sc.wifi).bytes = [] := by
  obtain ⟨t, ht, hbytes⟩ := selectedSsid_option h
  rw [hempty] at ht
  rw [hbytes, List.mem_singleton.mp ht]
  rfl

/-- The screen does not depend on the configuration but for the empty name. -/
theorem ScreenInv.of_cfg {cfg' : Config} (h : ScreenInv lv lo hi cfg sc)
    (hkeep : (selectedSsid lv sc.wifi).bytes = [] →
      configGetStr cfg' (.lit "wifi_ssid") defaultWifiSsid =
        configGetStr cfg (.lit "wifi_ssid") defaultWifiSsid) : ScreenInv lv lo hi cfg' sc := by
  refine ⟨h.selected, fun hnil => ?_, h.password, h.steppers⟩
  obtain ⟨hopt, hcfg⟩ := h.options hnil
  exact ⟨hopt, (hkeep (selectedSsid_of_empty h hopt)).trans hcfg⟩

/-! ## Creation -/

theorem legible_get {cfg : Config} (h : cfg.Legible) (key dflt : CStr)
    (hdflt : newline ∉ dflt.bytes) : newline ∉ (configGetStr cfg key dflt).bytes := by
  rw [configGetStr_eq]
  cases hfind : cfg.entries.find? fun e => e.key.str = key with
  | none => exact hdflt
  | some e => exact (h e (List.mem_of_find?_eq_some hfind)).value_newline

theorem createScreen_inv (hb : Around lo hi) (hlegible : cfg.Legible)
    (hthresholds : ThresholdsIn lo hi cfg) (state : NetState) (ws : WifiLink) :
    ScreenInv lv lo hi cfg (createScreen lv roller cfg state ws) := by
  have hline := legible_get hlegible (.lit "wifi_ssid") defaultWifiSsid (by decide)
  have hoptions : optionsOf (lv.getOptions (createScreen lv roller cfg state ws).wifi.ssidDd) =
      [(configGetStr cfg (.lit "wifi_ssid") defaultWifiSsid).bytes] := by
    show optionsOf (lv.getOptions (lv.setOptions _ _)) = _
    rw [lv.options_setOptions, optionsOf, List.splitOn_eq_singleton hline]
  constructor
  · rw [hoptions]
    show lv.getSelected (lv.setOptions _ _) < 1
    rw [lv.selected_setOptions]
    exact Nat.one_pos
  · intro hnil
    rw [hoptions, List.mem_singleton] at hnil
    have hempty : configGetStr cfg (.lit "wifi_ssid") defaultWifiSsid = .empty :=
      CStr.ext hnil.symm
    exact ⟨(lv.options_setOptions _ _).trans hempty, hempty⟩
  · exact legible_get hlegible _ _ (by decide)
  · intro t
    obtain ⟨hstep, hrange⟩ := t.step_range
    obtain ⟨hlow, hhigh⟩ := hthresholds t
    exact Stepper.within_create hstep hrange (hb.int_low t) (hb.int_high t) (hb.low t) (hb.high t)
      hlow hhigh _

/-! ## Edits -/

theorem edit_inv (h : ScreenInv lv lo hi cfg sc) (e : Edit) :
    ScreenInv lv lo hi cfg (e.apply lv sc) := by
  have hclick : ∀ (t : Threshold) {sd : Stepper}, sd.Within (lo t) (hi t) →
      ∀ t', (Function.update sc.steppers t sd t').Within (lo t') (hi t') := by
    intro t sd hsd t'
    by_cases ht : t' = t
    · subst ht
      rwa [Function.update_self]
    · rw [Function.update_of_ne ht]
      exact h.steppers t'
  cases e with
  | minus t =>
    exact ⟨h.selected, h.options, h.password, hclick t (Stepper.within_minus (h.steppers t))⟩
  | plus t =>
    exact ⟨h.selected, h.options, h.password, hclick t (Stepper.within_plus (h.steppers t))⟩
  | ssid i =>
    unfold Edit.apply
    dsimp only
    split
    · rename_i hi
      constructor
      · show lv.getSelected (lv.setSelected _ i) <
          (optionsOf (lv.getOptions (lv.setSelected _ i))).length
        rwa [lv.selected_setSelected _ _ hi, lv.options_setSelected]
      · show [] ∈ optionsOf (lv.getOptions (lv.setSelected _ i)) →
          lv.getOptions (lv.setSelected _ i) = _ ∧ _
        rw [lv.options_setSelected]
        exact h.options
      · exact h.password
      · exact h.steppers
    · exact h
  | password text =>
    unfold Edit.apply
    dsimp only
    split
    · exact h
    · rename_i hline
      exact ⟨h.selected, h.options, hline, h.steppers⟩
  | _ => exact ⟨h.selected, h.options, h.password, h.steppers⟩

end Screen

/-! ## Saving -/

section Save

variable {δ : Type} {u : SettingsApp} {form : SettingsForm}

theorem saved_tidy (h : DevicesInv u) (htidy : u.collector.cfg.Tidy) :
    (saveBtnCb u form).collector.cfg.Tidy := by
  rw [saveBtnCb_cfg]
  exact tidy_setAll htidy (saveWrites_trimmed form h.infraCount_high)

/-- A setting that is in the table behind the button is as much of the widget's text as fits. -/
theorem get_written (h : DevicesInv u) {key value : CStr}
    (hmem : (key, value) ∈ saveWrites form u.infraCount)
    (hstored : (saveBtnCb u form).collector.cfg.Stored key) (dflt : CStr) :
    configGetStr (saveBtnCb u form).collector.cfg key dflt = value.trunc 127 := by
  rw [saveBtnCb_cfg] at hstored ⊢
  rw [get_setAll_of_kept (fun kv hkv => (saveWrites_trimmed form h.infraCount_high kv hkv).2)
    (.inl hstored),
    lastAssigned_of_mem (keys_nodup.sublist (saveWrites_keys form h.infraCount_high)) hmem]
  rfl

theorem int_written (h : DevicesInv u) {key : CStr} {z : Int} (hlow : -2147483648 ≤ z)
    (hhigh : z ≤ 2147483647) (hmem : (key, CStr.lit s!"{z}") ∈ saveWrites form u.infraCount)
    (hstored : (saveBtnCb u form).collector.cfg.Stored key) (dflt : Int) :
    configGetInt (saveBtnCb u form).collector.cfg key dflt = z := by
  have hwhole : (CStr.lit s!"{z}").trunc 127 = CStr.lit s!"{z}" :=
    CStr.trunc_of_le ((CStr.lit_int_length_le hlow hhigh).trans (by decide))
  have hget := fun d => (get_written h hmem hstored d).trans hwhole
  rw [configGetInt_of_get hget, strtol_lit hlow hhigh]
  rfl

/-- No other assignment is to the name's key. -/
theorem ssidKey_other : CStr.lit "wifi_ssid" ∉
    generalKeys.erase (CStr.lit "wifi_ssid") ++ deviceKeys 8 := by
  decide +kernel

/-- Where nothing is selected the configured name stays. -/
theorem ssid_unwritten (h : DevicesInv u) (hnone : form.wifiSsid.bytes = []) (dflt : CStr) :
    configGetStr (saveBtnCb u form).collector.cfg (.lit "wifi_ssid") dflt =
      configGetStr u.collector.cfg (.lit "wifi_ssid") dflt := by
  have hhigh := h.infraCount_high
  have hssid : ssidWrites form = [] := if_neg (not_not.mpr hnone)
  have hgeneral : (generalWrites form).map Prod.fst =
      generalKeys.erase (CStr.lit "wifi_ssid") := by
    have herase : generalKeys.erase (CStr.lit "wifi_ssid") =
        ["ping_target", "dns_target", "dns_test_hostname", "alert_bw_warn_pct",
          "alert_bw_crit_pct", "alert_ping_warn_ms", "alert_ping_crit_ms",
          "alert_err_threshold", "wifi_enabled", "wifi_password"].map CStr.lit := by
      decide +kernel
    rw [herase, generalWrites, hssid]
    rfl
  have hkey : ∀ kv ∈ saveWrites form u.infraCount,
      kv.1 ∈ generalKeys.erase (CStr.lit "wifi_ssid") ++ deviceKeys 8 := by
    intro kv hkv
    rw [saveWrites, List.mem_append] at hkv
    rcases hkv with hkv | hkv
    · rw [← hgeneral]
      exact List.mem_append_left _ (List.mem_map_of_mem hkv)
    · have hdevices := deviceWrites_keys form (CStr.lit s!"{u.infraCount}")
        (n := u.infraCount.toNat) (by omega)
      exact List.mem_append_right _ (hdevices.subset (List.mem_map_of_mem hkv))
  rw [saveBtnCb_cfg]
  refine getStr_setAll_other (fun kv hkv => (saveWrites_trimmed form hhigh kv hkv).2)
    (fun kv hkv heq => ssidKey_other ?_) dflt
  have hother := hkey kv hkv
  rwa [heq] at hother

theorem threshold_general (lv : LvList δ) (sc : SettingsScreen δ) (t : Threshold) :
    (t.key, CStr.lit s!"{(sc.steppers t).value}") ∈ generalWrites (sc.form lv) := by
  refine List.mem_append_left _ (List.mem_append_left _ ?_)
  cases t <;> simp [Threshold.key, SettingsScreen.form]

theorem Stepper.Within.int {lo hi : Int} {sd : Stepper} (h : sd.Within lo hi) :
    -2147483648 ≤ sd.value ∧ sd.value ≤ 2147483647 := by
  obtain ⟨-, hstep, hint, hint', hlow, hhigh, -⟩ := h
  omega

/-- The stored thresholds are those of the steppers, or there was no room for them. -/
theorem thresholds_saved {lv : LvList δ} {lo hi : Threshold → Int} (hb : Around lo hi)
    (h : DevicesInv u) {cfg : Config} {sc : SettingsScreen δ} (hsc : ScreenInv lv lo hi cfg sc) :
    ThresholdsIn lo hi (saveBtnCb u (sc.form lv)).collector.cfg := by
  intro t
  by_cases hstored : (saveBtnCb u (sc.form lv)).collector.cfg.Stored t.key
  · have hwithin := hsc.steppers t
    rw [int_written h hwithin.int.1 hwithin.int.2
      (List.mem_append_left _ (threshold_general lv sc t)) hstored]
    exact ⟨hwithin.low, hwithin.high⟩
  · rw [getInt_of_new hstored]
    exact ⟨(hb.low t).trans t.dflt_mem.1, t.dflt_mem.2.trans (hb.high t)⟩

/-- The stored number of devices is the screen's, or there was no room for it. -/
theorem count_saved (h : DevicesInv u) (htidy : u.collector.cfg.Tidy) (hform : OneLine form)
    (hcount : 0 ≤ u.infraCount) :
    0 ≤ configGetInt (reload (saveBtnCb u form).collector.cfg) (.lit "infra_count") 0 := by
  rw [getInt_reload_tidy (saved_tidy h htidy) (h.saved_legible hform) (by decide)]
  by_cases hstored : (saveBtnCb u form).collector.cfg.Stored (.lit "infra_count")
  · have hmem : (CStr.lit "infra_count", CStr.lit s!"{u.infraCount}") ∈
        saveWrites form u.infraCount := List.mem_append_right _ List.mem_cons_self
    have hhigh := h.infraCount_high
    rwa [int_written h (by omega) (by omega) hmem hstored]
  · rw [getInt_of_new hstored]

end Save

/-! ## One event -/

section Events

variable {δ : Type} {lv : LvList δ} {roller : LvRoller} {lo hi : Threshold → Int}
  {s : SettingsUi δ} {sc : SettingsScreen δ}

/-- What a start reads, and what it falls back on, is within the bounds. -/
theorem thresholds_load (hb : Around lo hi) {file : Option Bytes}
    (hfile : ∀ text ∈ file, ThresholdsIn lo hi (configLoad (some text)).2) :
    ThresholdsIn lo hi (configLoad file).2 := by
  cases file with
  | none =>
    intro t
    have hnew : ¬ (configLoad none).2.Stored t.key := by
      rintro ⟨e, he, -⟩
      cases he
    rw [getInt_of_new hnew]
    exact ⟨(hb.low t).trans t.dflt_mem.1, t.dflt_mem.2.trans (hb.high t)⟩
  | some text => exact hfile text rfl

theorem start_inv (hb : Around lo hi) {file : Option Bytes} (hfile : FileInv lo hi file)
    (b : BootInput) (host : WifiHost) : UiInv lv lo hi (.start file b host) where
  devices := start_devicesInv file b
  tidy := tidy_configLoad fun text htext => (hfile text htext).1
  thresholds := thresholds_load hb fun text htext => (hfile text htext).2
  file := hfile
  wifi := WifiInv.start _ host
  screen := fun _ hsc => nomatch hsc

theorem ScreenInv.status {cfg : Config} (h : ScreenInv lv lo hi cfg sc) (text : CStr) :
    ScreenInv lv lo hi cfg { sc with wifi := { sc.wifi with statusLbl := text } } :=
  ⟨h.selected, h.options, h.password, h.steppers⟩

/-- The manager and the panel may change as long as there are names and options. -/
theorem UiInv.withPanel (h : UiInv lv lo hi s) {ws : WifiLink} (hws : WifiInv ws)
    (hsc : ScreenInv lv lo hi s.cfg sc) :
    UiInv lv lo hi { s with wifi := ws, screen := some sc } where
  devices := h.devices
  tidy := h.tidy
  thresholds := h.thresholds
  file := h.file
  wifi := hws
  screen := fun _ heq => Option.some.inj heq ▸ hsc

/-- The buttons and ticks that leave the configuration as it is. -/
theorem UiInv.withApp (h : UiInv lv lo hi s) {app : SettingsApp} (happ : DevicesInv app)
    (hcfg : app.collector.cfg = s.cfg) {screen : Option (SettingsScreen δ)}
    (hscreen : ∀ sc ∈ screen, ScreenInv lv lo hi s.cfg sc) :
    UiInv lv lo hi { s with app := app, screen := screen } := by
  refine ⟨happ, ?_, ?_, h.file, h.wifi, ?_⟩
  · show app.collector.cfg.Tidy
    rw [hcfg]
    exact h.tidy
  · show ThresholdsIn lo hi app.collector.cfg
    rw [hcfg]
    exact h.thresholds
  · show ∀ sc ∈ screen, ScreenInv lv lo hi app.collector.cfg sc
    rw [hcfg]
    exact hscreen

theorem addDevice_inv (h : UiInv lv lo hi s) (hsc : ScreenInv lv lo hi s.cfg sc) :
    UiInv lv lo hi (addDevice roller s sc) := by
  have hcfg : (addDeviceCb s.app).collector.cfg = s.cfg := by
    unfold addDeviceCb
    split <;> rfl
  refine h.withApp (addDeviceCb_devicesInv h.devices) hcfg fun _ heq => ?_
  rw [← Option.some.inj heq]
  exact ⟨hsc.selected, hsc.options, hsc.password, hsc.steppers⟩

theorem scan_inv (h : UiInv lv lo hi s) (hsc : ScreenInv lv lo hi s.cfg sc)
    (shell : CStr → CmdResult) : UiInv lv lo hi { s with
      wifi := (wifiScanCb lv shell s.wifi sc.wifi).1
      screen := some { sc with wifi := (wifiScanCb lv shell s.wifi sc.wifi).2 } } := by
  have hws := h.wifi.scan shell
  refine h.withPanel hws ?_
  unfold wifiScanCb
  dsimp only
  split
  · rename_i hsome
    have hne := scanOptions_ne_nil hws.names hsome
    constructor
    · show lv.getSelected (lv.setOptions _ _) <
        (optionsOf (lv.getOptions (lv.setOptions _ _))).length
      rw [lv.selected_setOptions]
      exact List.length_pos_of_ne_nil (List.splitOn_ne_nil _ _)
    · show [] ∈ optionsOf (lv.getOptions (lv.setOptions _ _)) → _
      rw [lv.options_setOptions]
      exact fun hnil => absurd rfl (hne _ hnil)
    · exact hsc.password
    · exact hsc.steppers
  · exact ⟨hsc.selected, hsc.options, hsc.password, hsc.steppers⟩

/-- Another configuration with which the screen and the thresholds are right. -/
theorem UiInv.withCfg (h : UiInv lv lo hi s) {cfg : Config} (hlegible : cfg.Legible)
    (htidy : cfg.Tidy) (hthresholds : ThresholdsIn lo hi cfg)
    (hscreen : ∀ sc ∈ s.screen, ScreenInv lv lo hi cfg sc) : UiInv lv lo hi (s.setCfg cfg) where
  devices := ⟨hlegible, h.devices.numInfra, h.devices.infraCount_low, h.devices.infraCount_high⟩
  tidy := htidy
  thresholds := hthresholds
  file := h.file
  wifi := h.wifi
  screen := hscreen

theorem connectWrites_line (hsc : ScreenInv lv lo hi s.cfg sc) (shell : CStr → CmdResult) :
    ∀ kv ∈ connectWrites lv shell s.wifi sc.wifi, newline ∉ kv.2.bytes := by
  intro kv hkv
  rcases connectWrites_cases hkv with rfl | rfl
  · exact selectedSsid_line hsc
  · exact hsc.password

theorem connect_inv (h : UiInv lv lo hi s) (hscreen : s.screen = some sc)
    (shell : CStr → CmdResult) : UiInv lv lo hi (connect lv shell s sc) := by
  have hsc := h.screen sc hscreen
  have hkey : ∀ kv ∈ connectWrites lv shell s.wifi sc.wifi, kv.1 ∈ generalKeys := by
    intro kv hkv
    have hkeys : CStr.lit "wifi_ssid" ∈ generalKeys ∧ CStr.lit "wifi_password" ∈ generalKeys := by
      decide
    rcases connectWrites_cases hkv with rfl | rfl
    · exact hkeys.1
    · exact hkeys.2
  have hclean := fun kv hkv => keys_clean kv.1 (List.mem_append_left _ (hkey kv hkv))
  have hother : ∀ kv ∈ connectWrites lv shell s.wifi sc.wifi, ∀ t : Threshold, kv.1 ≠ t.key := by
    intro kv hkv t
    rcases connectWrites_cases hkv with rfl | rfl
    · exact t.key_wifi.1
    · exact t.key_wifi.2
  have hcfg : UiInv lv lo hi (s.setCfg (setAll s.cfg (connectWrites lv shell s.wifi sc.wifi))) := by
    refine h.withCfg (legible_setAll h.devices.legible fun kv hkv => ?_)
      (tidy_setAll h.tidy fun kv hkv => ⟨(hclean kv hkv).1.key_trimmed, (hclean kv hkv).2⟩)
      (fun t => ?_) fun sc' hsc' => ?_
    · obtain ⟨hhead, hequals, hnewline, -⟩ := (hclean kv hkv).1.legible
      exact ⟨hhead, hequals, hnewline, connectWrites_line hsc shell kv hkv⟩
    · rw [getInt_congr (getStr_setAll_other (fun kv hkv => (hclean kv hkv).2)
        fun kv hkv => hother kv hkv t)]
      exact h.thresholds t
    · obtain rfl : sc = sc' := Option.some.inj (hscreen.symm.trans hsc')
      refine hsc.of_cfg fun hnil => ?_
      rw [connectWrites_nil hnil]
      rfl
  obtain ⟨text, hpanel⟩ := wifiConnectCb_panel lv shell s.wifi s.cfg sc.wifi
  rw [← wifiConnectCb_cfg lv shell s.wifi s.cfg sc.wifi] at hcfg
  refine hcfg.withPanel (h.wifi.connect lv shell s.cfg sc.wifi) ?_
  show ScreenInv lv lo hi _
    { sc with wifi := (wifiConnectCb lv shell s.wifi s.cfg sc.wifi).2.2 }
  rw [hpanel]
  exact (hcfg.screen sc hscreen).status text

theorem save_inv (hb : Around lo hi) (h : UiInv lv lo hi s) (hscreen : s.screen = some sc)
    (written : Bool) : UiInv lv lo hi (save lv written s sc) := by
  have hsc := h.screen sc hscreen
  have hlegible := h.devices.saved_legible (form_oneLine hsc)
  have htidy : (saveBtnCb s.app (sc.form lv)).collector.cfg.Tidy :=
    saved_tidy h.devices h.tidy
  have hthresholds := thresholds_saved hb h.devices hsc
  constructor
  · exact saveBtnCb_devicesInv h.devices (form_oneLine hsc)
  · exact htidy
  · exact hthresholds
  · intro text htext
    cases written with
    | false => exact h.file text htext
    | true =>
      rw [← Option.some.inj htext]
      refine ⟨shortKeys_configSave hlegible, fun t => ?_⟩
      show lo t ≤ configGetInt (reload _) t.key t.dflt ∧
        configGetInt (reload _) t.key t.dflt ≤ hi t
      rw [getInt_reload_tidy htidy hlegible t.key_trimmed]
      exact hthresholds t
  · exact h.wifi
  · intro sc' hsc'
    obtain rfl : sc = sc' := Option.some.inj (hscreen.symm.trans hsc')
    exact hsc.of_cfg fun hnil => ssid_unwritten h.devices hnil _

theorem tick_inv (h : UiInv lv lo hi s) (t : Tick) :
    UiInv lv lo hi { s with app := settings.step s.app (.tick t) } :=
  h.withApp (settings_step_devicesInv s.app (.tick t) trivial h.devices)
    (step_keeps s.app.collector t).2 h.screen

theorem update_inv (h : UiInv lv lo hi s) (host : WifiHost) :
    UiInv lv lo hi { s with wifi := wifiMgrUpdate host s.wifi } :=
  ⟨h.devices, h.tidy, h.thresholds, h.file, h.wifi.update host, h.screen⟩

theorem create_inv (hb : Around lo hi) (h : UiInv lv lo hi s) : UiInv lv lo hi { s with
    app := uiSettingsCreate s.app
    screen := some (createScreen lv roller s.cfg s.app.collector.state s.wifi) } := by
  refine h.withApp (settings_step_devicesInv s.app .create trivial h.devices) rfl fun sc hsc => ?_
  rw [← Option.some.inj hsc]
  exact createScreen_inv hb h.devices.legible h.thresholds _ _

theorem step_inv (hb : Around lo hi) (s : SettingsUi δ) (e : UiEvent) (h : UiInv lv lo hi s) :
    UiInv lv lo hi ((settingsUi lv roller).step s e) := by
  obtain ⟨app, wifi, screen, file⟩ := s
  cases screen with
  | none =>
    -- there are no buttons yet
    cases e with
    | tick t => exact tick_inv h t
    | update host => exact update_inv h host
    | restart b host => exact start_inv hb h.file b host
    | create => exact create_inv hb h
    | _ => exact h
  | some sc =>
    have hsc := h.screen sc rfl
    cases e with
    | tick t => exact tick_inv h t
    | update host => exact update_inv h host
    | restart b host => exact start_inv hb h.file b host
    | create => exact h
    | edit e => exact h.withPanel h.wifi (edit_inv hsc e)
    | addDevice => exact addDevice_inv h hsc
    | wifiSwitch on shell =>
      exact h.withPanel (h.wifi.setEnabled shell on)
        ⟨hsc.selected, hsc.options, hsc.password, hsc.steppers⟩
    | wifiScan shell => exact scan_inv h hsc shell
    | wifiConnect shell => exact connect_inv h rfl shell
    | save written => exact save_inv hb h rfl written

/-! ## The number of devices -/

/-- The counts are within the arrays, and will be so behind a restart. -/
structure CountInv (s : SettingsUi δ) : Prop where
  app : SettingsInv s.app
  file : 0 ≤ configGetInt (configLoad s.file).2 (.lit "infra_count") 0

theorem start_count {file : Option Bytes}
    (h : 0 ≤ configGetInt (configLoad file).2 (.lit "infra_count") 0) (b : BootInput)
    (host : WifiHost) : CountInv (δ := δ) (.start file b host) :=
  ⟨⟨(netCollectorInit_infraInv_iff _ b).mpr h, infraCountOk_zero⟩, h⟩

theorem save_count (h : UiInv lv lo hi s) (hcount : CountInv s)
    (hsc : ScreenInv lv lo hi s.cfg sc) (written : Bool) :
    CountInv (save lv written s sc) := by
  refine ⟨saveBtnCb_inv hcount.app _, ?_⟩
  cases written with
  | false => exact hcount.file
  | true => exact count_saved h.devices h.tidy (form_oneLine hsc) hcount.app.infraCount.1

theorem step_count (s : SettingsUi δ) (e : UiEvent) (h : UiInv lv lo hi s) (hcount : CountInv s) :
    CountInv ((settingsUi lv roller).step s e) := by
  obtain ⟨app, wifi, screen, file⟩ := s
  have hsame : ∀ (wifi' : WifiLink) (screen' : Option (SettingsScreen δ)),
      CountInv ⟨app, wifi', screen', file⟩ := fun _ _ => ⟨hcount.app, hcount.file⟩
  cases e with
  | tick t => exact ⟨settings_step_inv app (.tick t) hcount.app, hcount.file⟩
  | update host => exact hsame _ screen
  | restart b host => exact start_count hcount.file b host
  | create =>
    cases screen with
    | none => exact ⟨uiSettingsCreate_inv hcount.app, hcount.file⟩
    | some sc => exact hcount
  | addDevice =>
    cases screen with
    | none => exact hcount
    | some sc => exact ⟨addDeviceCb_inv hcount.app, hcount.file⟩
  | save written =>
    cases screen with
    | none => exact hcount
    | some sc => exact save_count h hcount (h.screen sc rfl) written
  | wifiConnect shell =>
    cases screen with
    | none => exact hcount
    | some sc =>
      exact ⟨⟨⟨hcount.app.collector.count, hcount.app.collector.pingIdx⟩, hcount.app.infraCount⟩,
        hcount.file⟩
  | _ => cases screen <;> exact hsame _ _

end Events

/-! ## Runs -/

section Runs

variable {δ : Type} {lv : LvList δ} {roller : LvRoller} {lo hi : Threshold → Int}

variable (lv roller)

theorem run_inv (hb : Around lo hi) {file : Option Bytes} (hfile : FileInv lo hi file)
    (b : BootInput) (host : WifiHost) (events : List UiEvent) :
    UiInv lv lo hi ((settingsUi lv roller).exec (.start file b host) events) :=
  (settingsUi lv roller).exec_inv (step_inv hb) (start_inv hb hfile b host) events

theorem around_steppers : Around Threshold.min Threshold.max := by
  constructor <;> intro t <;> cases t <;> decide

theorem around_click : Around clickLow clickHigh := by
  constructor <;> intro t <;> cases t <;> decide

/-- From a good file the counts stay within the arrays. -/
theorem run_counts {file : Option Bytes} (hfile : FileOk file) (b : BootInput) (host : WifiHost)
    (events : List UiEvent) :
    CountsOk ((settingsUi lv roller).exec (.start file b host) events).app := by
  have h := (settingsUi lv roller).exec_inv
    (P := fun s => UiInv lv clickLow clickHigh s ∧ CountInv s)
    (fun s e hs => ⟨step_inv around_click s e hs.1, step_count s e hs.1 hs.2⟩)
    ⟨start_inv around_click hfile.inv b host, start_count hfile.count b host⟩ events
  exact h.2.app.countsOk

/-- **Thresholds in range.** From a file whose thresholds are in the ranges of their steppers, they
are so in every run, in the configuration and on the screen, whose labels show them. -/
theorem thresholds_inRange {file : Option Bytes}
    (hfile : FileInv Threshold.min Threshold.max file) (b : BootInput) (host : WifiHost)
    (events : List UiEvent) :
    ThresholdsIn Threshold.min Threshold.max
        ((settingsUi lv roller).exec (.start file b host) events).cfg ∧
      ∀ sc ∈ ((settingsUi lv roller).exec (.start file b host) events).screen,
        ∀ t : Threshold, (sc.steppers t).Within t.min t.max := by
  have h := run_inv lv roller around_steppers hfile b host events
  exact ⟨h.thresholds, fun sc hsc => (h.screen sc hsc).steppers⟩

/-- **The WiFi panel.** In every run the manager names no network unless it is connected, and is off
without an adapter; the network that is selected has a name on one line, unless the configured one
has none. The devices stay within their arrays. -/
theorem wifi_named {file : Option Bytes} (hfile : FileOk file) (b : BootInput) (host : WifiHost)
    (events : List UiEvent) :
    CountsOk ((settingsUi lv roller).exec (.start file b host) events).app ∧
      ((settingsUi lv roller).exec (.start file b host) events).wifi.Consistent ∧
      ∀ sc ∈ ((settingsUi lv roller).exec (.start file b host) events).screen,
        newline ∉ (selectedSsid lv sc.wifi).bytes ∧ ((selectedSsid lv sc.wifi).bytes = [] →
          configGetStr ((settingsUi lv roller).exec (.start file b host) events).cfg
            (.lit "wifi_ssid") defaultWifiSsid = .empty) := by
  have h := run_inv lv roller around_click hfile.inv b host events
  refine ⟨run_counts lv roller hfile b host events, h.wifi.link, fun sc hsc => ?_⟩
  have hscreen := h.screen sc hsc
  exact ⟨selectedSsid_line hscreen, fun hnil => (selectedSsid_nil hscreen hnil).2⟩

end Runs

/-- A roller shows what was selected. -/
def simpleRoller : LvRoller := ⟨UInt16.toUInt8, fun b => by simp⟩

/-- One adapter, whose commands succeed and print nothing. -/
def wlanHost : WifiHost := ⟨some [.lit "wlan0"], fun _ => true, fun _ => none, succeeds⟩

def quietThresholds : Bytes := CStr.chars "alert_bw_warn_pct = 95\nalert_err_threshold = 1\n"

/-- Clicks past both ends, saved and restarted. -/
theorem thresholds_inRange_quiet :
    FileInv Threshold.min Threshold.max (some quietThresholds) ∧
      ThresholdsIn Threshold.min Threshold.max ((settingsUi simpleList simpleRoller).exec
        (.start (some quietThresholds) noBoot wlanHost)
        [.create, .edit (.plus .bwWarn), .edit (.plus .bwWarn), .edit (.minus .err), .save true,
          .restart noBoot wlanHost]).cfg := by
  have hfile : FileInv Threshold.min Threshold.max (some quietThresholds) := by
    rintro text htext
    rw [← Option.some.inj htext]
    refine ⟨by decide +kernel, fun t => ?_⟩
    cases t <;> decide +kernel
  exact ⟨hfile, (thresholds_inRange simpleList simpleRoller hfile noBoot wlanHost _).1⟩

/-- No file. -/
theorem fileOk_none : FileOk none := ⟨fun _ htext => (by cases htext), by decide⟩

/-- A scan of nothing, and a connection to the network that is still selected. -/
theorem wifi_named_connected :
    let s := (settingsUi simpleList simpleRoller).exec (.start none noBoot wlanHost)
      [.create, .wifiScan succeeds, .wifiConnect succeeds]
    s.wifi.Consistent ∧ s.wifi.connected = true ∧ ∃ sc, s.screen = some sc ∧
      newline ∉ (selectedSsid simpleList sc.wifi).bytes := by
  have h := wifi_named simpleList simpleRoller fileOk_none noBoot wlanHost
    [.create, .wifiScan succeeds, .wifiConnect succeeds]
  exact ⟨h.2.1, by decide +kernel, _, rfl, (h.2.2 _ rfl).1⟩

end NetMon.Ui
