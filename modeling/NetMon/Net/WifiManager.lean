import NetMon.Core.ConfigLoad
import NetMon.Net.Collector
import NetMon.Net.WifiConnect

/-!
# The WiFi manager

The rest of `net_wifi_mgr.c`, and the connection `net_collector_init` makes at the start. The
interface is found once; from then on `connected` and `current_ssid` follow the calls, and what
`iw` says when it is asked.

`scan_names`: whatever a scan prints, the results list the first sixteen names on its lines that
are not empty, in order, even where the count goes wrong.
-/

namespace NetMon.Net

open NetMon.Lib NetMon.Core

/-- What the manager sees of the system: the entries of `/sys/class/net`, which paths exist, the
files it opens, and its commands. -/
structure WifiHost where
  names : Option (List CStr)
  access : CStr → Bool
  files : CStr → Option Bytes
  shell : CStr → CmdResult

def WifiLink.zero : WifiLink where
  initialized := false
  enabled := false
  iface := default
  numScanResults := 0
  scanResults _ := default
  currentSsid := default
  connected := false

/-! ## The interface -/

def wirelessPath (name : CStr) : CStr :=
  (CharArray.copy 256 (.lit "/sys/class/net/" ++ name ++ .lit "/wireless")).str

/-- An entry `detect_wifi_iface` takes. -/
def isWifiIface (host : WifiHost) (name : CStr) : Bool :=
  name.bytes.head? ≠ some 46 && name ≠ .lit "lo" && host.access (wirelessPath name)

def detectWifiIface (host : WifiHost) : Option (CharArray 16) :=
  (host.names.bind (·.find? (isWifiIface host))).map (CharArray.copy 16)

/-! ## The status -/

def operstatePath (iface : CharArray 16) : CStr :=
  (CharArray.copy 128 (.lit "/sys/class/net/" ++ iface.str ++ .lit "/operstate")).str

/-- The state in the file's first line, without its newline; `none` where `fgets` fails. -/
def operstate (text : Bytes) : Option Bytes :=
  (textLines 31 text).head?.map fun line =>
    let state := (CStr.ofBytes line).bytes
    if state.getLast? = some newline then state.dropLast else state

/-- `g_wifi_state.enabled = (strcmp(state, "down") != 0)` -/
def updateEnabled (host : WifiHost) (s : WifiLink) : WifiLink :=
  match (host.files (operstatePath s.iface)).bind operstate with
  | some state => { s with enabled := state ≠ CStr.chars "down" }
  | none => s

def linkCommand (iface : CharArray 16) : CStr :=
  (CharArray.copy 128 (.lit "iw dev " ++ iface.str ++ .lit " link 2>/dev/null")).str

/-- The network `iw dev .. link` tells of in a buffer of 256 bytes: none if it says so, and `none`
if it says nothing. -/
def linkReport (output : Bytes) : Option (Option Bytes) :=
  let buf := (CStr.ofBytes (output.take 255)).bytes
  if (behind (CStr.chars "Not connected") buf).isSome then some none
  else (behind ssidMark buf).map fun rest => some (rest.takeWhile (· != newline))

/-- What the state tells of a network, or of none. -/
def WifiLink.tell (s : WifiLink) : Option Bytes → WifiLink
  | some name => { s with currentSsid := .copy 64 (CStr.ofBytes name), connected := true }
  | none => { s with currentSsid := default, connected := false }

def updateLink (host : WifiHost) (s : WifiLink) : WifiLink :=
  let r := host.shell (linkCommand s.iface)
  if r.status = 0 then (linkReport r.output).elim s s.tell else s

/-- `wifi_mgr_update` -/
def wifiMgrUpdate (host : WifiHost) (s : WifiLink) : WifiLink :=
  if !s.initialized then s else updateLink host (updateEnabled host s)

/-! ## The calls -/

/-- `wifi_mgr_init`: the state and the value it returns. -/
def wifiMgrInit (host : WifiHost) : WifiLink × Int :=
  match detectWifiIface host with
  | none => (.zero, -1)
  | some iface => (wifiMgrUpdate host { WifiLink.zero with
      iface := iface, enabled := true, initialized := true }, 0)

def switchCommand (iface : CharArray 16) (enable : Bool) : CStr :=
  (CharArray.copy 128 (.lit "ip link set " ++ iface.str ++
    (if enable then .lit " up 2>/dev/null" else .lit " down 2>/dev/null"))).str

/-- `wifi_mgr_set_enabled` -/
def wifiMgrSetEnabled (shell : CStr → CmdResult) (enable : Bool) (s : WifiLink) : WifiLink × Int :=
  if !s.initialized then (s, -1)
  else
    let ret := (shell (switchCommand s.iface enable)).status
    if ret = 0 then
      let s := { s with enabled := enable }
      (if enable then s else s.tell none, ret)
    else (s, ret)

/-- `wifi_mgr_disconnect`; it runs `wpa_cli` and does not look at its status. -/
def wifiMgrDisconnect (s : WifiLink) : WifiLink × Int :=
  if !s.initialized then (s, -1) else (s.tell none, 0)

/-- The wireless part of `net_collector_init`: the state, and the commands of a connection. -/
def autoConnect (cfg : Config) (host : WifiHost) : WifiLink × List CStr :=
  let (s, ret) := wifiMgrInit host
  let wifiSsid := configGetStr cfg (.lit "wifi_ssid") .empty
  let wifiPass := configGetStr cfg (.lit "wifi_password") .empty
  let wifiEnabled := configGetInt cfg (.lit "wifi_enabled") 1
  if ret = 0 ∧ s.connected = false ∧ wifiEnabled ≠ 0 ∧ wifiSsid.bytes ≠ [] then
    let connect := wifiMgrConnect host.shell s (some wifiSsid) (some wifiPass)
    (connect.state, connect.commands)
  else (s, [])

/-! ## What the calls keep -/

/-- Without an interface the manager is off, and without a connection it names no network. -/
structure WifiLink.Consistent (s : WifiLink) : Prop where
  off : s.initialized = false → s.enabled = false ∧ s.connected = false
  nameless : s.connected = false → s.currentSsid.bytes = []

namespace WifiLink

theorem consistent_zero : zero.Consistent := ⟨fun _ => ⟨rfl, rfl⟩, fun _ => rfl⟩

theorem tell_consistent {s : WifiLink} (h : s.Consistent) (hinit : s.initialized = true)
    (report : Option Bytes) : (s.tell report).Consistent := by
  cases report with
  | none => exact ⟨fun hoff => ⟨(h.off hoff).1, rfl⟩, fun _ => rfl⟩
  | some name => exact ⟨fun hoff => absurd (hinit.symm.trans hoff) (by decide), fun hno => by
      cases hno⟩

end WifiLink

theorem updateEnabled_consistent {s : WifiLink} (h : s.Consistent) (hinit : s.initialized = true)
    (host : WifiHost) : (updateEnabled host s).Consistent ∧
      (updateEnabled host s).initialized = true := by
  unfold updateEnabled
  split
  · exact ⟨⟨fun hoff => absurd (hinit.symm.trans hoff) (by decide), h.nameless⟩, hinit⟩
  · exact ⟨h, hinit⟩

theorem wifiMgrUpdate_consistent {s : WifiLink} (h : s.Consistent) (host : WifiHost) :
    (wifiMgrUpdate host s).Consistent := by
  unfold wifiMgrUpdate
  split
  · exact h
  · rename_i hinit
    have hinit : s.initialized = true := by simpa using hinit
    obtain ⟨hs, hinit'⟩ := updateEnabled_consistent h hinit host
    unfold updateLink
    dsimp only
    split
    · cases linkReport (host.shell (linkCommand (updateEnabled host s).iface)).output with
      | none => exact hs
      | some report => exact WifiLink.tell_consistent hs hinit' report
    · exact hs

theorem wifiMgrInit_consistent (host : WifiHost) : (wifiMgrInit host).1.Consistent := by
  unfold wifiMgrInit
  split
  · exact WifiLink.consistent_zero
  · rename_i iface _
    have hon : { WifiLink.zero with
        iface := iface, enabled := true, initialized := true }.Consistent := by
      constructor
      · intro hoff
        cases hoff
      · exact fun _ => WifiLink.consistent_zero.nameless rfl
    exact wifiMgrUpdate_consistent hon host

theorem wifiMgrSetEnabled_consistent {s : WifiLink} (h : s.Consistent) (shell : CStr → CmdResult)
    (enable : Bool) : (wifiMgrSetEnabled shell enable s).1.Consistent := by
  unfold wifiMgrSetEnabled
  split
  · exact h
  · rename_i hinit
    have hinit : s.initialized = true := by simpa using hinit
    dsimp only
    split
    · have hs : { s with enabled := enable }.Consistent :=
        ⟨fun hoff => absurd (hinit.symm.trans hoff) (by decide), h.nameless⟩
      cases enable with
      | true => exact hs
      | false => exact WifiLink.tell_consistent hs hinit none
    · exact h

theorem wifiMgrConnect_consistent {s : WifiLink} (h : s.Consistent) (shell : CStr → CmdResult)
    (ssid password : Option CStr) : (wifiMgrConnect shell s ssid password).state.Consistent := by
  unfold wifiMgrConnect
  split
  · exact h
  · rename_i hready
    have hinit : s.initialized = true := by
      simp only [Bool.or_eq_true, Bool.not_eq_true', not_or, Bool.not_eq_false] at hready
      exact hready.1
    split
    · exact h
    · dsimp only
      split_ifs
      · exact h
      · exact h
      · constructor
        · exact fun hoff => absurd (hinit.symm.trans hoff) (by decide)
        · intro hno
          cases hno

theorem wifiMgrScan_consistent {s : WifiLink} (h : s.Consistent) (shell : CStr → CmdResult) :
    { s with toWifiState := (wifiMgrScan shell s.toWifiState).1 }.Consistent := by
  have hkeep : (wifiMgrScan shell s.toWifiState).1.initialized = s.initialized ∧
      (wifiMgrScan shell s.toWifiState).1.enabled = s.enabled := by
    unfold wifiMgrScan
    split
    · exact ⟨rfl, rfl⟩
    · split <;> exact ⟨rfl, rfl⟩
  refine ⟨fun hoff => ?_, h.nameless⟩
  obtain ⟨henabled, hconnected⟩ := h.off (hkeep.1.symm.trans hoff)
  exact ⟨hkeep.2.trans henabled, hconnected⟩

theorem autoConnect_consistent (cfg : Config) (host : WifiHost) :
    (autoConnect cfg host).1.Consistent := by
  have hinit := wifiMgrInit_consistent host
  unfold autoConnect
  dsimp only
  split
  · exact wifiMgrConnect_consistent hinit host.shell _ _
  · exact hinit

/-! ## The names of a scan -/

/-- Behind sixteen names an `SSID: ` line ends the scan, and changes no name. -/
theorem exec_names_full {st : Scan} (hst : st.Tracks) (hfull : st.total = wifiMaxNetworks)
    {line name : Bytes} (hline : behind ssidMark line = some name) (lines : List Bytes) (i : Nat) :
    ((scanner.exec st (line :: lines)).results i).ssid = (st.results i).ssid := by
  obtain ⟨num, cur, results⟩ := st
  have hroom : num < wifiMaxNetworks := hst.room
  have hnamed : Scan.named ⟨num, cur, results⟩ = true := by
    by_contra hname
    rw [Scan.total, if_neg hname] at hfull
    exact absurd hfull hroom.ne
  have hnum : num + 1 = wifiMaxNetworks := by rwa [Scan.total, if_pos hnamed] at hfull
  have hopen : Scan.openEntry line ⟨num, cur, results⟩ = ⟨num + 1, cur, results⟩ := by
    unfold Scan.openEntry
    rw [hline]
    dsimp only
    rw [if_pos hnamed, if_neg (by omega)]
  have hstep : scanner.step ⟨num, cur, results⟩ line = _ := if_pos hroom
  cases cur with
  | none => cases hnamed
  | some j =>
    rw [Machine.exec_cons, hstep, hopen, attach_spec, exec_full (by dsimp only; omega)]
    dsimp only
    by_cases hij : i = j
    · subst hij
      rw [Function.update_self]
      rfl
    · rw [Function.update_of_ne hij]

/-- The first sixteen results have the names found before and those of the segments. -/
theorem exec_names {st : Scan} (hst : st.Tracks) (segs : List Segment) :
    (List.range (min (scanner.exec st (segs.flatMap Segment.lines)).total wifiMaxNetworks)).map
        (fun i => ((scanner.exec st (segs.flatMap Segment.lines)).results i).ssid) =
      ((st.found ++ namedEntries segs).take wifiMaxNetworks).map WifiScanResult.ssid := by
  induction segs generalizing st with
  | nil =>
    have htotal : st.total ≤ wifiMaxNetworks := by
      have hroom := hst.room
      unfold Scan.total
      split <;> omega
    have hnone : namedEntries [] = [] := rfl
    rw [List.flatMap_nil, Machine.exec_nil, min_eq_left htotal, hnone, List.append_nil,
      List.take_of_length_le (st.found_length.trans_le htotal), hst.found_eq, List.map_map]
    rfl
  | cons seg segs ih =>
    by_cases hfew : st.found.length < wifiMaxNetworks
    · obtain ⟨hst', hfound⟩ := exec_segment hst hfew seg
      rw [List.flatMap_cons, Machine.exec_append, ih hst', hfound, List.append_assoc,
        ← namedEntries_cons]
    · have hroom := hst.room
      have htotal : st.total ≤ st.num + 1 := by
        unfold Scan.total
        split <;> omega
      have hlen := st.found_length
      have hfull : st.total = wifiMaxNetworks := by omega
      have hover := exec_ssid_full hst hfull seg.isSsid (seg.rest ++ segs.flatMap Segment.lines)
      have hnames := exec_names_full hst hfull seg.isSsid (seg.rest ++ segs.flatMap Segment.lines)
      have hlines : (seg :: segs).flatMap Segment.lines =
          seg.line :: (seg.rest ++ segs.flatMap Segment.lines) := by
        rw [List.flatMap_cons, Segment.lines, List.cons_append]
      rw [hlines, hover, min_eq_right (Nat.le_succ _), List.take_append_of_le_length (by omega),
        List.take_of_length_le (by omega), hst.found_eq, hfull, List.map_map]
      exact List.map_congr_left fun i _ => hnames i

/-- The names a scan finds: those that are not empty when they are stored. -/
def storedNames (lines : List Bytes) : List (CharArray 64) :=
  ((ssidNames lines).map copySsid).filter (·.bytes ≠ [])

theorem namedEntries_ssid (segs : List Segment) :
    (namedEntries segs).map WifiScanResult.ssid =
      ((segs.map Segment.name).map copySsid).filter (·.bytes ≠ []) := by
  have hnames : (segs.map Segment.name).map copySsid =
      (segs.map Segment.entry).map WifiScanResult.ssid := by
    rw [List.map_map, List.map_map]
    exact List.map_congr_left fun seg _ => seg.entry_ssid.symm
  rw [hnames, List.filter_map]
  rfl

/-- Whatever a scan prints, its results are the first sixteen names on the lines, in order. -/
theorem scan_names (s : WifiState) (lines : List Bytes) :
    (List.range (min (scanner.exec (.start s) lines).total wifiMaxNetworks)).map
        (fun i => ((scanner.exec (.start s) lines).results i).ssid) =
      (storedNames lines).take wifiMaxNetworks := by
  obtain ⟨pre, segs, rfl, hpre⟩ := exists_segments lines
  obtain ⟨hst, hfound⟩ := start_tracks s
  have hquiet : scanner.exec (.start s) pre = .start s := exec_closed hst.room hpre
  rw [Machine.exec_append, hquiet, exec_names hst, hfound, List.nil_append, List.map_take,
    namedEntries_ssid, storedNames, ssidNames_segments hpre]

/-- The names are on lines. -/
theorem storedNames_clean {output : Bytes} :
    ∀ name ∈ storedNames (scanLines output), name.bytes ≠ [] ∧ newline ∉ name.bytes := by
  intro name hname
  obtain ⟨hmem, hne⟩ := List.mem_filter.mp hname
  obtain ⟨n, hn, rfl⟩ := List.mem_map.mp hmem
  obtain ⟨line, hline, hbehind⟩ := List.mem_filterMap.mp hn
  have hnl : newline ∉ line := newline_notMem_fileLines (List.mem_filter.mp hline).1
  refine ⟨of_decide_eq_true hne, fun h => hnl ((behind_suffix hbehind).subset ?_)⟩
  have hcopied : newline ∈ (CStr.ofBytes n).bytes :=
    List.mem_of_mem_take ((List.rdropWhile_prefix isTrailing _).subset h)
  exact (List.takeWhile_sublist _).subset hcopied

/-! ## What the calls leave of a scan -/

/-- The results of the last scan are the same. -/
structure SameScan (s s' : WifiLink) : Prop where
  num : s'.numScanResults = s.numScanResults
  results : s'.scanResults = s.scanResults

theorem wifiMgrUpdate_sameScan (host : WifiHost) (s : WifiLink) :
    SameScan s (wifiMgrUpdate host s) := by
  have htell : ∀ (s : WifiLink) (r : Option Bytes), SameScan s (s.tell r) := by
    intro s r
    cases r <;> exact ⟨rfl, rfl⟩
  have henabled : SameScan s (updateEnabled host s) := by
    unfold updateEnabled
    split <;> exact ⟨rfl, rfl⟩
  unfold wifiMgrUpdate updateLink
  split
  · exact ⟨rfl, rfl⟩
  · dsimp only
    split
    · cases linkReport (host.shell (linkCommand (updateEnabled host s).iface)).output with
      | none => exact henabled
      | some r =>
        have hlink := htell (updateEnabled host s) r
        exact ⟨hlink.num.trans henabled.num, hlink.results.trans henabled.results⟩
    · exact henabled

theorem wifiMgrSetEnabled_sameScan (shell : CStr → CmdResult) (enable : Bool) (s : WifiLink) :
    SameScan s (wifiMgrSetEnabled shell enable s).1 := by
  unfold wifiMgrSetEnabled
  split
  · exact ⟨rfl, rfl⟩
  · dsimp only
    split
    · cases enable <;> exact ⟨rfl, rfl⟩
    · exact ⟨rfl, rfl⟩

theorem wifiMgrConnect_sameScan (shell : CStr → CmdResult) (s : WifiLink)
    (ssid password : Option CStr) : SameScan s (wifiMgrConnect shell s ssid password).state := by
  unfold wifiMgrConnect
  split
  · exact ⟨rfl, rfl⟩
  · split
    · exact ⟨rfl, rfl⟩
    · dsimp only
      split_ifs <;> exact ⟨rfl, rfl⟩

theorem wifiMgrInit_sameScan (host : WifiHost) : SameScan .zero (wifiMgrInit host).1 := by
  unfold wifiMgrInit
  split
  · exact ⟨rfl, rfl⟩
  · rename_i iface _
    have hupdate := wifiMgrUpdate_sameScan host
      { WifiLink.zero with iface := iface, enabled := true, initialized := true }
    exact ⟨hupdate.num, hupdate.results⟩

theorem autoConnect_sameScan (cfg : Config) (host : WifiHost) :
    SameScan .zero (autoConnect cfg host).1 := by
  have hinit := wifiMgrInit_sameScan host
  unfold autoConnect
  dsimp only
  split
  · have hconnect := wifiMgrConnect_sameScan host.shell (wifiMgrInit host).1
      (some (configGetStr cfg (.lit "wifi_ssid") .empty))
      (some (configGetStr cfg (.lit "wifi_password") .empty))
    exact ⟨hconnect.num.trans hinit.num, hconnect.results.trans hinit.results⟩
  · exact hinit

end NetMon.Net
