import NetMon.Net.WifiManager
import NetMon.Ui.TrafficSelector

/-!
# The WiFi panel

The WiFi part of `ui_settings.c`: the switch, the list of networks that a scan fills, and the
connection to the selected one, which is kept in the configuration.

The scan button writes the names into a buffer of 1024 bytes and leaves the last one a byte less
than it needs: the list has the names of the scan unless there are sixteen of 63 bytes each
(`scanOptions_iff`).
-/

namespace NetMon.Ui

open NetMon.Lib NetMon.Core NetMon.Net

/-- LVGL's drop-down list selects the first option when the options are set. -/
structure LvList (δ : Type) extends LvDropdown δ where
  selected_setOptions : ∀ d text, getSelected (setOptions d text) = 0

/-- The widgets of the panel that change. -/
structure WifiPanel (δ : Type) where
  wifiSwitch : Bool
  statusLbl : CStr
  ssidDd : δ
  password : CStr

/-! ## The options of a scan -/

/-- `opts` up to `pos`: a name that is cut off leaves zeros behind it. -/
def addSsid (i : Nat) (ssid opts : Bytes) : Bytes :=
  let opts := if i > 0 ∧ opts.length < 1023 then opts ++ [newline] else opts
  let remaining := 1023 - opts.length
  if remaining = 0 then opts
  else opts ++ ssid.take (remaining - 1) ++ List.replicate (ssid.length - (remaining - 1)) 0

/-- The networks the loop of `wifi_scan_cb` lists. -/
def listedNames (ws : WifiLink) : List (CharArray 64) :=
  (List.range (min ws.numScanResults wifiMaxNetworks)).map fun i => (ws.scanResults i).ssid

def scanOptions (ws : WifiLink) : CStr :=
  CStr.ofBytes ((List.range (min ws.numScanResults wifiMaxNetworks)).foldl
    (fun opts i => addSsid i (ws.scanResults i).ssid.bytes opts) [])

/-! ## The callbacks -/

section Callbacks

variable {δ : Type} (lv : LvList δ)

/-- `wifi_switch_cb`, behind the change of the switch -/
def wifiSwitchCb (shell : CStr → CmdResult) (enabled : Bool) (ws : WifiLink) (p : WifiPanel δ) :
    WifiLink × WifiPanel δ :=
  ((wifiMgrSetEnabled shell enabled ws).1,
    { p with
      wifiSwitch := enabled
      statusLbl := if enabled then .lit "WiFi enabled" else .lit "WiFi disabled" })

/-- `wifi_scan_cb`: the results are shown though the scan may have failed. -/
def wifiScanCb (shell : CStr → CmdResult) (ws : WifiLink) (p : WifiPanel δ) :
    WifiLink × WifiPanel δ :=
  let ws := { ws with toWifiState := (wifiMgrScan shell ws.toWifiState).1 }
  (ws,
    if ws.numScanResults > 0 then
      { p with
        ssidDd := lv.setOptions p.ssidDd (scanOptions ws)
        statusLbl := .lit s!"Found {ws.numScanResults} networks" }
    else { p with statusLbl := .lit "No networks found" })

/-- The text `lv_dropdown_get_selected_str` copies into `ssid`. -/
def selectedSsid (p : WifiPanel δ) : CharArray 64 := .copy 64 (lv.getSelectedStr p.ssidDd 64)

/-- What `wifi_connect_cb` stores. -/
def wifiWrites (ssid password : CStr) : List (CStr × CStr) :=
  [(.lit "wifi_ssid", ssid), (.lit "wifi_password", password)]

/-- `wifi_connect_cb` -/
def wifiConnectCb (shell : CStr → CmdResult) (ws : WifiLink) (cfg : Config) (p : WifiPanel δ) :
    WifiLink × Config × WifiPanel δ :=
  let ssid := selectedSsid lv p
  if ssid.bytes = [] then (ws, cfg, p)
  else
    let connect := wifiMgrConnect shell ws (some ssid.str) (some p.password)
    (connect.state,
      if connect.result = 0 then
        configSetStr (configSetStr cfg (.lit "wifi_ssid") ssid.str) (.lit "wifi_password") p.password
      else cfg,
      { p with statusLbl := (CharArray.copy 128 (.lit "Connecting to " ++ ssid.str ++ .lit "...")).str })

/-- What a connection assigns. -/
def connectWrites (shell : CStr → CmdResult) (ws : WifiLink) (p : WifiPanel δ) :
    List (CStr × CStr) :=
  let ssid := selectedSsid lv p
  if ssid.bytes ≠ [] ∧ (wifiMgrConnect shell ws (some ssid.str) (some p.password)).result = 0 then
    wifiWrites ssid.str p.password
  else []

variable {lv}

theorem connectWrites_nil {shell : CStr → CmdResult} {ws : WifiLink} {p : WifiPanel δ}
    (hnil : (selectedSsid lv p).bytes = []) : connectWrites lv shell ws p = [] :=
  if_neg fun h => h.1 hnil

theorem connectWrites_cases {shell : CStr → CmdResult} {ws : WifiLink} {p : WifiPanel δ}
    {kv : CStr × CStr} (h : kv ∈ connectWrites lv shell ws p) :
    kv = (.lit "wifi_ssid", (selectedSsid lv p).str) ∨ kv = (.lit "wifi_password", p.password) := by
  unfold connectWrites at h
  dsimp only at h
  split at h
  · simpa only [wifiWrites, List.mem_cons, List.not_mem_nil, or_false] using h
  · cases h

variable (lv)

theorem wifiConnectCb_cfg (shell : CStr → CmdResult) (ws : WifiLink) (cfg : Config)
    (p : WifiPanel δ) :
    (wifiConnectCb lv shell ws cfg p).2.1 = setAll cfg (connectWrites lv shell ws p) := by
  unfold wifiConnectCb connectWrites
  dsimp only
  split
  · rename_i hnil
    rw [if_neg fun h => h.1 hnil]
    rfl
  · rename_i hname
    by_cases hresult : (wifiMgrConnect shell ws (some (selectedSsid lv p).str)
        (some p.password)).result = 0
    · rw [if_pos hresult, if_pos ⟨hname, hresult⟩]
      rfl
    · rw [if_neg hresult, if_neg fun h => hresult h.2]
      rfl

theorem wifiConnectCb_panel (shell : CStr → CmdResult) (ws : WifiLink) (cfg : Config)
    (p : WifiPanel δ) :
    ∃ text, (wifiConnectCb lv shell ws cfg p).2.2 = { p with statusLbl := text } := by
  unfold wifiConnectCb
  dsimp only
  split
  · exact ⟨p.statusLbl, rfl⟩
  · exact ⟨_, rfl⟩

end Callbacks

/-! ## The text of the options -/

/-- Names, one a line. -/
def joinLines (names : List Bytes) : Bytes := [newline].intercalate names

theorem joinLines_concat (names : List Bytes) (name : Bytes) :
    joinLines (names ++ [name]) = joinLines names ++ separator names.length ++ name := by
  unfold joinLines
  cases names with
  | nil => simp [separator]
  | cons n ns =>
    rw [intercalate_concat _ (List.cons_ne_nil n ns), separator,
      if_pos (List.length_pos_of_ne_nil (List.cons_ne_nil n ns)), List.append_assoc]

/-- While there is room for the separator, a name is added as far as the buffer goes. -/
theorem addSsid_eq (i : Nat) (ssid : Bytes) {opts : Bytes} (h : opts.length < 1022) :
    addSsid i ssid opts = opts ++ separator i ++
      ssid.take (1022 - (opts ++ separator i).length) ++
      List.replicate (ssid.length - (1022 - (opts ++ separator i).length)) 0 := by
  have hsep : (if i > 0 ∧ opts.length < 1023 then opts ++ [newline] else opts) =
      opts ++ separator i := by
    unfold separator
    by_cases hi : i > 0
    · rw [if_pos ⟨hi, by omega⟩, if_pos hi]
    · rw [if_neg fun hboth => hi hboth.1, if_neg hi, List.append_nil]
  have hlen := separator_length i
  have hlength : (opts ++ separator i).length = opts.length + (separator i).length :=
    List.length_append
  have hroom : 1023 - (opts ++ separator i).length - 1 = 1022 - (opts ++ separator i).length := by
    omega
  unfold addSsid
  simp only [hsep, hroom]
  rw [if_neg (by omega)]

section Names

variable {names : Nat → Bytes} (hlen : ∀ i, (names i).length ≤ 63)

include hlen

theorem joinLines_length_le (n : Nat) :
    (joinLines ((List.range n).map names)).length ≤ 64 * n - 1 := by
  induction n with
  | zero => exact Nat.zero_le _
  | succ n ih =>
    have hname := hlen n
    have hsep := separator_length n
    rw [List.range_succ, List.map_append, List.map_singleton, joinLines_concat, List.length_append,
      List.length_append, List.length_map, List.length_range]
    omega

/-- The first fifteen names are always whole. -/
theorem foldl_addSsid {n : Nat} (hn : n ≤ 15) :
    (List.range n).foldl (fun opts i => addSsid i (names i) opts) [] =
      joinLines ((List.range n).map names) := by
  induction n with
  | zero => rfl
  | succ n ih =>
    have hjoined := joinLines_length_le hlen n
    have hname := hlen n
    have hsep := separator_length n
    have hwhole : (names n).length ≤
        1022 - (joinLines ((List.range n).map names) ++ separator n).length := by
      rw [List.length_append]
      omega
    have hnone : (names n).length -
        (1022 - (joinLines ((List.range n).map names) ++ separator n).length) = 0 := by
      omega
    rw [List.range_succ, List.foldl_append, ih (by omega), List.foldl_cons, List.foldl_nil,
      addSsid_eq n (names n) (by omega), List.take_of_length_le hwhole, hnone,
      List.replicate_zero, List.append_nil, List.map_append, List.map_singleton, joinLines_concat,
      List.length_map, List.length_range]

/-- The text is as long as it can be only if every name is. -/
theorem joinLines_full_iff {n : Nat} (hn : 0 < n) :
    (joinLines ((List.range n).map names)).length = 64 * n - 1 ↔
      ∀ i < n, (names i).length = 63 := by
  induction n with
  | zero => exact absurd hn (Nat.lt_irrefl 0)
  | succ n ih =>
    have hname := hlen n
    have hsep := separator_length n
    have hjoined := joinLines_length_le hlen n
    rw [List.range_succ, List.map_append, List.map_singleton, joinLines_concat, List.length_append,
      List.length_append, List.length_map, List.length_range]
    rcases Nat.eq_zero_or_pos n with rfl | hpos
    · have hnil : (joinLines ((List.range 0).map names)).length = 0 := rfl
      constructor
      · intro h i hi
        obtain rfl : i = 0 := by omega
        omega
      · intro h
        have hfirst := h 0 Nat.one_pos
        omega
    · constructor
      · intro h i hi
        rcases Nat.lt_succ_iff_lt_or_eq.mp hi with hlt | rfl
        · exact (ih hpos).mp (by omega) i hlt
        · omega
      · intro h
        have hrest := (ih hpos).mpr fun i hi => h i (Nat.lt_succ_of_lt hi)
        have hlast := h n (Nat.lt_succ_self n)
        omega

end Names

theorem ssid_length (ws : WifiLink) (i : Nat) : (ws.scanResults i).ssid.bytes.length ≤ 63 :=
  CharArray.bytes_length_le _

theorem joinLines_nonul {names : List Bytes} (h : ∀ n ∈ names, 0 ∉ n) : 0 ∉ joinLines names := by
  induction names using List.reverseRecOn with
  | nil => exact List.not_mem_nil
  | append_singleton names name ih =>
    rw [List.forall_mem_append, List.forall_mem_singleton] at h
    have hsep : 0 ∉ separator names.length := by
      unfold separator
      split <;> decide
    rw [joinLines_concat, List.mem_append, List.mem_append, not_or, not_or]
    exact ⟨⟨ih h.1, hsep⟩, h.2⟩

/-- A string ends where the zeros begin. -/
theorem ofBytes_zeros {s : Bytes} (h : 0 ∉ s) (k : Nat) :
    (CStr.ofBytes (s ++ List.replicate k 0)).bytes = s := by
  have hs : ∀ b ∈ s, (b != 0) = true := fun b hb => bne_iff_ne.mpr fun heq => h (heq ▸ hb)
  show (s ++ List.replicate k 0).takeWhile (· != 0) = s
  rw [List.takeWhile_append_of_pos hs]
  cases k with
  | zero => exact List.append_nil s
  | succ k => exact List.append_nil s

section Options

variable {ws : WifiLink} {m : Nat}

/-- The names in front of the one that is listed last. -/
def namesBefore (ws : WifiLink) (m : Nat) : List Bytes :=
  (List.range m).map fun i => (ws.scanResults i).ssid.bytes

/-- What is left for a name behind `m` others. -/
def roomFor (ws : WifiLink) (m : Nat) : Nat :=
  1022 - (joinLines (namesBefore ws m) ++ separator m).length

theorem namesBefore_nonul (ws : WifiLink) (m : Nat) : ∀ n ∈ namesBefore ws m, 0 ∉ n := by
  intro n hn
  obtain ⟨i, -, rfl⟩ := List.mem_map.mp hn
  exact (ws.scanResults i).ssid.str.nonul

/-- The last name may be cut off. -/
theorem scanOptions_bytes (hm : min ws.numScanResults wifiMaxNetworks = m + 1) :
    (scanOptions ws).bytes =
      joinLines (namesBefore ws m ++ [(ws.scanResults m).ssid.bytes.take (roomFor ws m)]) := by
  have h16 : wifiMaxNetworks = 16 := rfl
  have hjoined := joinLines_length_le (ssid_length ws) m
  have hnonul : 0 ∉ joinLines (namesBefore ws m ++
      [(ws.scanResults m).ssid.bytes.take (roomFor ws m)]) := by
    apply joinLines_nonul
    rw [List.forall_mem_append, List.forall_mem_singleton]
    exact ⟨namesBefore_nonul ws m, fun h0 =>
      (ws.scanResults m).ssid.str.nonul (List.mem_of_mem_take h0)⟩
  rw [scanOptions, hm, List.range_succ, List.foldl_append,
    foldl_addSsid (ssid_length ws) (by omega), List.foldl_cons, List.foldl_nil,
    addSsid_eq m _ (by omega)]
  rw [joinLines_concat, namesBefore, List.length_map, List.length_range] at hnonul ⊢
  exact ofBytes_zeros hnonul _

theorem listedNames_bytes (hm : min ws.numScanResults wifiMaxNetworks = m + 1) :
    (listedNames ws).map CharArray.bytes = namesBefore ws m ++ [(ws.scanResults m).ssid.bytes] := by
  rw [listedNames, hm, List.range_succ, List.map_append, List.map_append, List.map_map]
  rfl

/-- Sixteen names, none with a byte to spare. -/
def Overfull (ws : WifiLink) : Prop :=
  wifiMaxNetworks ≤ ws.numScanResults ∧ ∀ i < wifiMaxNetworks,
    (ws.scanResults i).ssid.bytes.length = 63

instance (ws : WifiLink) : Decidable (Overfull ws) := inferInstanceAs (Decidable (_ ∧ _))

theorem roomFor_lt_iff (hm : min ws.numScanResults wifiMaxNetworks = m + 1) :
    roomFor ws m < (ws.scanResults m).ssid.bytes.length ↔ Overfull ws := by
  have h16 : wifiMaxNetworks = 16 := rfl
  have hname := ssid_length ws m
  have hsep := separator_length m
  have hjoined := joinLines_length_le (ssid_length ws) m
  have hroom : roomFor ws m = 1022 - ((joinLines ((List.range m).map fun i =>
      (ws.scanResults i).ssid.bytes)).length + (separator m).length) := by
    rw [roomFor, List.length_append]
    rfl
  constructor
  · intro hlt
    have hfifteen : m = 15 := by omega
    subst hfifteen
    have hfull := (joinLines_full_iff (ssid_length ws) (n := 15) (by decide)).mp (by omega)
    refine ⟨by omega, fun i hi => ?_⟩
    rcases Nat.lt_succ_iff_lt_or_eq.mp (show i < 15 + 1 by omega) with hi | rfl
    · exact hfull i hi
    · omega
  · rintro ⟨hmany, hall⟩
    obtain rfl : m = 15 := by omega
    have hfull := (joinLines_full_iff (ssid_length ws) (n := 15) (by decide)).mpr
      fun i hi => hall i (by omega)
    have hlast := hall 15 (by omega)
    omega

/-- The options are the names in front of the last one, and that as far as there is room. -/
theorem optionsOf_scan (hm : min ws.numScanResults wifiMaxNetworks = m + 1)
    (hbefore : ∀ l ∈ namesBefore ws m, newline ∉ l)
    (hlast : newline ∉ (ws.scanResults m).ssid.bytes) : optionsOf (scanOptions ws) =
      namesBefore ws m ++ [(ws.scanResults m).ssid.bytes.take (roomFor ws m)] := by
  rw [optionsOf, scanOptions_bytes hm, joinLines]
  apply List.splitOn_intercalate
  · rw [List.forall_mem_append, List.forall_mem_singleton]
    exact ⟨hbefore, fun hmem => hlast (List.mem_of_mem_take hmem)⟩
  · exact List.append_ne_nil_of_right_ne_nil _ (List.cons_ne_nil _ _)

/-- **The list of a scan.** Its options are the names, unless there are sixteen that are as long
as a name can be. -/
theorem scanOptions_iff (hsome : 0 < ws.numScanResults)
    (hnames : ∀ name ∈ listedNames ws, newline ∉ name.bytes) :
    optionsOf (scanOptions ws) = (listedNames ws).map CharArray.bytes ↔ ¬ Overfull ws := by
  have h16 : wifiMaxNetworks = 16 := rfl
  obtain ⟨m, hm⟩ : ∃ m, min ws.numScanResults wifiMaxNetworks = m + 1 :=
    ⟨min ws.numScanResults wifiMaxNetworks - 1, by omega⟩
  have hlines : ∀ l ∈ (listedNames ws).map CharArray.bytes, newline ∉ l := by
    intro l hl
    obtain ⟨name, hname, rfl⟩ := List.mem_map.mp hl
    exact hnames name hname
  rw [listedNames_bytes hm, List.forall_mem_append, List.forall_mem_singleton] at hlines
  rw [optionsOf_scan hm hlines.1 hlines.2, listedNames_bytes hm, List.append_cancel_left_eq,
    List.cons.injEq, List.take_eq_self_iff, ← roomFor_lt_iff hm, not_lt]
  exact and_iff_left rfl

end Options

/-! ## The names in a run -/

/-- The results have names, each on a line. -/
def NamesClean (ws : WifiLink) : Prop :=
  ∀ name ∈ listedNames ws, name.bytes ≠ [] ∧ newline ∉ name.bytes

theorem NamesClean.of_sameScan {s s' : WifiLink} (h : NamesClean s) (hs : SameScan s s') :
    NamesClean s' := by
  have hlisted : listedNames s' = listedNames s := by
    unfold listedNames
    rw [hs.num, hs.results]
  intro name hname
  exact h name (hlisted ▸ hname)

/-- After a scan that succeeds the list has the names on the lines, sixteen at most. -/
theorem listedNames_scan {shell : CStr → CmdResult} {s : WifiState} {output : Bytes}
    (hready : s.initialized ∧ s.enabled) (hscan : scanOutput shell s.iface = some output)
    {ws : WifiLink} (hws : ws.toWifiState = (wifiMgrScan shell s).1) :
    listedNames ws = (storedNames (scanLines output)).take wifiMaxNetworks := by
  have hstate : (wifiMgrScan shell s).1 = { s with
      numScanResults := (scanner.exec (.start s) (scanLines output)).total
      scanResults := (scanner.exec (.start s) (scanLines output)).results } := by
    unfold wifiMgrScan
    rw [if_neg (by simp [hready]), hscan]
  have hnum : ws.numScanResults = (scanner.exec (.start s) (scanLines output)).total := by
    rw [hws, hstate]
  have hresults : ws.scanResults = (scanner.exec (.start s) (scanLines output)).results := by
    rw [hws, hstate]
  rw [listedNames, hnum, hresults, scan_names]

theorem NamesClean.scan {ws : WifiLink} (h : NamesClean ws) (shell : CStr → CmdResult) :
    NamesClean { ws with toWifiState := (wifiMgrScan shell ws.toWifiState).1 } := by
  by_cases hready : ws.initialized ∧ ws.enabled
  · cases hscan : scanOutput shell ws.iface with
    | none =>
      have hsame : (wifiMgrScan shell ws.toWifiState).1 = ws.toWifiState := by
        unfold wifiMgrScan
        rw [if_neg (by simp [hready]), hscan]
      rw [hsame]
      exact h
    | some output =>
      intro name hname
      rw [listedNames_scan hready hscan rfl] at hname
      exact storedNames_clean name (List.mem_of_mem_take hname)
  · have hsame : (wifiMgrScan shell ws.toWifiState).1 = ws.toWifiState := by
      unfold wifiMgrScan
      rw [if_pos (by simpa [imp_iff_not_or] using hready)]
    rw [hsame]
    exact h

/-- The first sixteen names on the lines of a text, as they are stored, without the empty ones. -/
def printedNames (text : Bytes) : List (CharArray 64) :=
  (storedNames (tokens newline text)).take wifiMaxNetworks

/-- What a scan reads of what the command prints. -/
def scannedText (output : Bytes) : Bytes := (output.take 4095).takeWhile (· != 0)

theorem listedNames_length (ws : WifiLink) :
    (listedNames ws).length = min ws.numScanResults wifiMaxNetworks := by
  rw [listedNames, List.length_map, List.length_range]

theorem overfull_iff (ws : WifiLink) : Overfull ws ↔
    (listedNames ws).length = wifiMaxNetworks ∧
      ∀ name ∈ listedNames ws, name.bytes.length = 63 := by
  rw [listedNames_length, min_eq_right_iff]
  refine and_congr_right fun hmany => ?_
  rw [listedNames, min_eq_right hmany]
  simp

/-- **From the scan to the list.** The list shows the networks in what is read of the command's
output, in order, unless there are sixteen with names as long as they can be. -/
theorem wifiScanCb_lists {δ : Type} (lv : LvList δ) {shell : CStr → CmdResult} {ws : WifiLink}
    {output : Bytes} (hready : ws.initialized ∧ ws.enabled)
    (hscan : scanOutput shell ws.iface = some output)
    (hsome : printedNames (scannedText output) ≠ []) (p : WifiPanel δ) :
    optionsOf (lv.getOptions (wifiScanCb lv shell ws p).2.ssidDd) =
        (printedNames (scannedText output)).map CharArray.bytes ↔
      ¬ ((printedNames (scannedText output)).length = wifiMaxNetworks ∧
        ∀ name ∈ printedNames (scannedText output), name.bytes.length = 63) := by
  have hlisted : listedNames { ws with toWifiState := (wifiMgrScan shell ws.toWifiState).1 } =
      printedNames (scannedText output) := listedNames_scan hready hscan rfl
  have hclean : ∀ name ∈ printedNames (scannedText output), newline ∉ name.bytes := by
    intro name hname
    have hstored : name ∈ storedNames (scanLines output) := List.mem_of_mem_take hname
    exact (storedNames_clean name hstored).2
  unfold wifiScanCb
  generalize { ws with toWifiState := (wifiMgrScan shell ws.toWifiState).1 } = ws' at hlisted ⊢
  have hlength := listedNames_length ws'
  rw [← hlisted] at hsome hclean ⊢
  have hnum : ws'.numScanResults > 0 := by
    have hpos := List.length_pos_of_ne_nil hsome
    omega
  dsimp only
  rw [if_pos hnum, lv.options_setOptions, scanOptions_iff hnum hclean, overfull_iff]

/-- A list that keeps its text and an index. -/
def simpleList : LvList (CStr × Nat) :=
  { simpleDropdown with selected_setOptions := fun _ _ => rfl }

/-- Two networks and a hidden one. -/
def threeNetworks : Bytes := CStr.chars "\tSSID: home\n\tSSID: \n\tSSID: lab\n"

theorem wifiScanCb_lists_two :
    (readyLink.initialized ∧ readyLink.enabled) ∧
      optionsOf (simpleList.getOptions
        (wifiScanCb simpleList (iwPrints threeNetworks) readyLink
          ⟨true, .empty, simpleList.create, .empty⟩).2.ssidDd) =
        [CStr.chars "home", CStr.chars "lab"] := by
  have hnames : (printedNames (scannedText threeNetworks)).map CharArray.bytes =
      [CStr.chars "home", CStr.chars "lab"] := by decide +kernel
  refine ⟨by decide, ?_⟩
  rw [← hnames]
  refine (wifiScanCb_lists simpleList (by decide) rfl (fun hnone => ?_) _).mpr fun hfull => ?_
  · rw [hnone] at hnames
    cases hnames
  · have hlength := congrArg List.length hnames
    rw [List.length_map, hfull.1] at hlength
    cases hlength

/-- Each option of a scan's list is the name of a network. -/
theorem scanOptions_ne_nil {ws : WifiLink} (hclean : NamesClean ws)
    (hsome : 0 < ws.numScanResults) : ∀ o ∈ optionsOf (scanOptions ws), o ≠ [] := by
  have h16 : wifiMaxNetworks = 16 := rfl
  obtain ⟨m, hm⟩ : ∃ m, min ws.numScanResults wifiMaxNetworks = m + 1 :=
    ⟨min ws.numScanResults wifiMaxNetworks - 1, by omega⟩
  have hlines : ∀ l ∈ (listedNames ws).map CharArray.bytes, l ≠ [] ∧ newline ∉ l := by
    intro l hl
    obtain ⟨name, hname, rfl⟩ := List.mem_map.mp hl
    exact hclean name hname
  rw [listedNames_bytes hm, List.forall_mem_append, List.forall_mem_singleton] at hlines
  have hjoined := joinLines_length_le (ssid_length ws) m
  have hsep := separator_length m
  have hroom : 0 < roomFor ws m := by
    rw [roomFor, List.length_append, namesBefore]
    omega
  rw [optionsOf_scan hm fun l hl => (hlines.1 l hl).2, List.forall_mem_append,
    List.forall_mem_singleton]
  · refine ⟨fun l hl => (hlines.1 l hl).1, fun hnil => ?_⟩
    rcases List.take_eq_nil_iff.mp hnil with h0 | hname
    · omega
    · exact hlines.2.1 hname
  · exact hlines.2.2

/-! ## The manager in a run -/

/-- What every call keeps. -/
structure WifiInv (ws : WifiLink) : Prop where
  names : NamesClean ws
  link : ws.Consistent

namespace WifiInv

theorem start (cfg : Config) (host : WifiHost) : WifiInv (autoConnect cfg host).1 where
  names := NamesClean.of_sameScan (fun _ hname => absurd hname List.not_mem_nil)
    (autoConnect_sameScan cfg host)
  link := autoConnect_consistent cfg host

variable {ws : WifiLink} (h : WifiInv ws)

include h

theorem update (host : WifiHost) : WifiInv (wifiMgrUpdate host ws) :=
  ⟨h.names.of_sameScan (wifiMgrUpdate_sameScan host ws), wifiMgrUpdate_consistent h.link host⟩

theorem setEnabled (shell : CStr → CmdResult) (on : Bool) :
    WifiInv (wifiMgrSetEnabled shell on ws).1 :=
  ⟨h.names.of_sameScan (wifiMgrSetEnabled_sameScan shell on ws),
    wifiMgrSetEnabled_consistent h.link shell on⟩

theorem scan (shell : CStr → CmdResult) :
    WifiInv { ws with toWifiState := (wifiMgrScan shell ws.toWifiState).1 } :=
  ⟨h.names.scan shell, wifiMgrScan_consistent h.link shell⟩

theorem connect {δ : Type} (lv : LvList δ) (shell : CStr → CmdResult) (cfg : Config)
    (p : WifiPanel δ) : WifiInv (wifiConnectCb lv shell ws cfg p).1 := by
  unfold wifiConnectCb
  dsimp only
  split
  · exact h
  · exact ⟨h.names.of_sameScan (wifiMgrConnect_sameScan shell ws _ _),
      wifiMgrConnect_consistent h.link shell _ _⟩

end WifiInv

end NetMon.Ui
