import NetMon.Lib.CNum
import NetMon.Lib.Machine
import NetMon.Lib.Tokens

/-!
# The WiFi scan

`wifi_mgr_scan` opens an entry at a line with `SSID: `, counts it when it meets the next such
line, and gives every `signal: ` and `freq: ` to the entry that is open. So a line list is a
stretch in front and segments, each an `SSID: ` line with the lines up to the next one, and the
scan returns the named segments (`exec_segments`) as long as none follows the sixteenth
(`exec_overflow`), which decides when the count is right (`countRight_iff`).
-/

namespace NetMon.Net

open NetMon.Lib

/-- `WIFI_MAX_NETWORKS` -/
def wifiMaxNetworks : Nat := 16

/-- `wifi_scan_result_t` -/
structure WifiScanResult where
  ssid : CharArray 64
  signalDbm : Int
  frequencyMhz : Int
  isOpen : Bool
  deriving DecidableEq, Inhabited

/-- `g_initialized`, and what a scan uses of `g_wifi_state`. -/
structure WifiState where
  initialized : Bool
  enabled : Bool
  iface : CharArray 16
  numScanResults : Nat
  scanResults : Nat → WifiScanResult

/-- What a command prints, and its `pclose` status; -1 if it was not started. -/
structure CmdResult where
  output : Bytes
  status : Int

/-! ## The parser -/

/-- What stands behind the first `mark` in a line: `strstr`, and the length of the mark. -/
def behind (mark : Bytes) : Bytes → Option Bytes
  | [] => none
  | b :: s => if mark.isPrefixOf (b :: s) then some ((b :: s).drop mark.length) else behind mark s

def ssidMark : Bytes := CStr.chars "SSID: "

def signalMark : Bytes := CStr.chars "signal: "

def freqMark : Bytes := CStr.chars "freq: "

/-- `atoi` -/
def atoi (s : Bytes) : Int := (strtol (CStr.ofBytes s)).getD 0

/-- What the scan trims off a name. -/
def isTrailing (b : UInt8) : Bool := b == 10 || b == 13 || b == 32

/-- `strncpy` of 63 bytes into a cleared array, and the trimming. -/
def copySsid (name : Bytes) : CharArray 64 :=
  let ssid := CharArray.copy 64 (CStr.ofBytes name)
  { str := ssid.str.part (ssid.bytes.rdropWhile isTrailing) (List.rdropWhile_prefix _ _).sublist
    fits := (List.rdropWhile_prefix isTrailing ssid.bytes).length_le.trans ssid.fits }

/-- The parser's variables: `num_scan_results`, the entry `cur` points to, and the results. -/
structure Scan where
  num : Nat
  cur : Option Nat
  results : Nat → WifiScanResult

namespace Scan

/-- `cur && cur->ssid[0] != '\0'` -/
def named (st : Scan) : Bool := st.cur.any fun i => (st.results i).ssid.bytes ≠ []

/-- The entry is counted, and the next one opened if there is room. -/
def openEntry (line : Bytes) (st : Scan) : Scan :=
  match behind ssidMark line with
  | none => st
  | some name =>
    let num := if st.named then st.num + 1 else st.num
    if num < wifiMaxNetworks then
      { num := num
        cur := some num
        results := Function.update st.results num
          { (default : WifiScanResult) with ssid := copySsid name } }
    else { st with num := num }

def setSignal (line : Bytes) (st : Scan) : Scan :=
  match st.cur, behind signalMark line with
  | some i, some rest => { st with
      results := Function.update st.results i { st.results i with signalDbm := atoi rest } }
  | _, _ => st

def setFreq (line : Bytes) (st : Scan) : Scan :=
  match st.cur, behind freqMark line with
  | some i, some rest => { st with
      results := Function.update st.results i { st.results i with frequencyMhz := atoi rest } }
  | _, _ => st

/-- The results the line writes to. -/
def writes (line : Bytes) (st : Scan) : List Nat :=
  let opened := st.openEntry line
  (if (behind ssidMark line).isSome ∧ opened.num < wifiMaxNetworks then opened.cur.toList
      else []) ++
    (if (behind signalMark line).isSome then opened.cur.toList else []) ++
    (if (behind freqMark line).isSome then opened.cur.toList else [])

/-- The count after the loop. -/
def total (st : Scan) : Nat := if st.named then st.num + 1 else st.num

end Scan

/-- The loop over the lines; it emits the results written to. -/
def scanner : Machine Scan Bytes Nat where
  step st line :=
    if st.num < wifiMaxNetworks then ((st.openEntry line).setSignal line).setFreq line else st
  out st line := if st.num < wifiMaxNetworks then st.writes line else []

/-- What `run_cmd` leaves in the buffer of 4096 bytes. -/
def captured (output : Bytes) : CStr := CStr.ofBytes (output.take 4095)

/-- The output of `iw`, or of `iwlist` if that fails. -/
def scanOutput (shell : CStr → CmdResult) (iface : CharArray 16) : Option Bytes :=
  let iw := shell (CStr.lit "iw dev " ++ iface.str ++ CStr.lit " scan 2>/dev/null")
  if iw.status = 0 then some iw.output
  else
    let iwlist := shell (CStr.lit "iwlist " ++ iface.str ++ CStr.lit " scan 2>/dev/null")
    if iwlist.status = 0 then some iwlist.output else none

/-- The lines the parser sees. -/
def scanLines (output : Bytes) : List Bytes := tokens newline (captured output).bytes

/-- The parser's variables before the first line. -/
def Scan.start (s : WifiState) : Scan := ⟨0, none, s.scanResults⟩

/-- `wifi_mgr_scan`: the state it leaves and the value it returns. -/
def wifiMgrScan (shell : CStr → CmdResult) (s : WifiState) : WifiState × Int :=
  if !s.initialized || !s.enabled then (s, -1)
  else
    match scanOutput shell s.iface with
    | none => (s, -1)
    | some output =>
      let st := scanner.exec (.start s) (scanLines output)
      ({ s with numScanResults := st.total, scanResults := st.results }, 0)

/-- The results a scan writes to. -/
def scanWrites (s : WifiState) (output : Bytes) : List Nat :=
  scanner.trace (.start s) (scanLines output)

/-! ## Segments -/

/-- A line's signal and frequency, given to an entry. -/
def WifiScanResult.attach (r : WifiScanResult) (line : Bytes) : WifiScanResult :=
  { r with
    signalDbm := (behind signalMark line).elim r.signalDbm atoi
    frequencyMhz := (behind freqMark line).elim r.frequencyMhz atoi }

theorem attach_spec (line : Bytes) (st : Scan) : (st.setSignal line).setFreq line =
    match st.cur with
    | none => st
    | some i => { st with
        results := Function.update st.results i ((st.results i).attach line) } := by
  obtain ⟨num, cur, results⟩ := st
  unfold Scan.setSignal Scan.setFreq WifiScanResult.attach
  cases cur with
  | none => rfl
  | some i => cases behind signalMark line <;> cases behind freqMark line <;> simp

theorem attach_cur (line : Bytes) (st : Scan) :
    ((st.setSignal line).setFreq line).cur = st.cur := by
  rw [attach_spec]
  split <;> rfl

@[simp] theorem attach_ssid (r : WifiScanResult) (line : Bytes) :
    (r.attach line).ssid = r.ssid := rfl

theorem foldl_attach_ssid (lines : List Bytes) (r : WifiScanResult) :
    (lines.foldl WifiScanResult.attach r).ssid = r.ssid := by
  induction lines generalizing r with
  | nil => rfl
  | cons line lines ih => exact ih (r.attach line)

/-- An `SSID: ` line and the lines up to the next one. -/
structure Segment where
  line : Bytes
  name : Bytes
  rest : List Bytes
  isSsid : behind ssidMark line = some name
  rest_none : ∀ l ∈ rest, behind ssidMark l = none

namespace Segment

def lines (seg : Segment) : List Bytes := seg.line :: seg.rest

/-- The entry of a segment: its name, and the last values in it. -/
def entry (seg : Segment) : WifiScanResult :=
  seg.lines.foldl WifiScanResult.attach
    { (default : WifiScanResult) with ssid := copySsid seg.name }

theorem entry_ssid (seg : Segment) : seg.entry.ssid = copySsid seg.name := foldl_attach_ssid _ _

end Segment

/-- The entries that are counted: those with a name. -/
def namedEntries (segs : List Segment) : List WifiScanResult :=
  (segs.map Segment.entry).filter (·.ssid.bytes ≠ [])

/-- Lines fall into a stretch without `SSID: ` and segments. -/
theorem exists_segments (lines : List Bytes) : ∃ (pre : List Bytes) (segs : List Segment),
    lines = pre ++ segs.flatMap Segment.lines ∧ ∀ l ∈ pre, behind ssidMark l = none := by
  induction lines with
  | nil => exact ⟨[], [], rfl, List.forall_mem_nil _⟩
  | cons l lines ih =>
    obtain ⟨pre, segs, rfl, hpre⟩ := ih
    cases hl : behind ssidMark l with
    | none => exact ⟨l :: pre, segs, rfl, List.forall_mem_cons.mpr ⟨hl, hpre⟩⟩
    | some name => exact ⟨[], ⟨l, name, pre, hl, hpre⟩ :: segs, rfl, List.forall_mem_nil _⟩

/-! ## The loop -/

namespace Scan

/-- The results counted so far, and the open one if it has a name. -/
def found (st : Scan) : List WifiScanResult :=
  (List.range st.num).map st.results ++ (st.cur.toList.map st.results).filter (·.ssid.bytes ≠ [])

/-- The entry that is open is the one behind those counted. -/
structure Tracks (st : Scan) : Prop where
  room : st.num < wifiMaxNetworks
  cur : ∀ i ∈ st.cur, i = st.num

theorem found_length (st : Scan) : st.found.length = st.total := by
  unfold found total named
  cases st.cur with
  | none => simp
  | some i => by_cases h : (st.results i).ssid.bytes = [] <;> simp [h]

end Scan

/-- The counted results, in order. -/
theorem Scan.Tracks.found_eq {st : Scan} (h : st.Tracks) :
    st.found = (List.range st.total).map st.results := by
  obtain ⟨num, cur, results⟩ := st
  unfold Scan.found Scan.total Scan.named
  cases cur with
  | none => simp
  | some i =>
    obtain rfl : i = num := h.cur i rfl
    by_cases hname : (results i).ssid.bytes = []
    · simp [hname]
    · simp [hname, List.range_succ]

/-- Lines without `SSID: ` do nothing while no entry is open. -/
theorem exec_closed {num : Nat} {results : Nat → WifiScanResult} {lines : List Bytes}
    (hroom : num < wifiMaxNetworks) (hlines : ∀ l ∈ lines, behind ssidMark l = none) :
    scanner.exec ⟨num, none, results⟩ lines = ⟨num, none, results⟩ := by
  induction lines with
  | nil => rfl
  | cons l lines ih =>
    rw [List.forall_mem_cons] at hlines
    have hopen : Scan.openEntry l ⟨num, none, results⟩ = ⟨num, none, results⟩ := by
      unfold Scan.openEntry
      rw [hlines.1]
    have hstep : scanner.step ⟨num, none, results⟩ l = _ := if_pos hroom
    rw [Machine.exec_cons, hstep, hopen, attach_spec]
    exact ih hlines.2

/-- They give their values to the open entry. -/
theorem exec_open {num i : Nat} {results : Nat → WifiScanResult} {lines : List Bytes}
    (hroom : num < wifiMaxNetworks) (hlines : ∀ l ∈ lines, behind ssidMark l = none) :
    scanner.exec ⟨num, some i, results⟩ lines = ⟨num, some i,
      Function.update results i (lines.foldl WifiScanResult.attach (results i))⟩ := by
  induction lines generalizing results with
  | nil => simp
  | cons l lines ih =>
    rw [List.forall_mem_cons] at hlines
    have hopen : Scan.openEntry l ⟨num, some i, results⟩ = ⟨num, some i, results⟩ := by
      unfold Scan.openEntry
      rw [hlines.1]
    have hstep : scanner.step ⟨num, some i, results⟩ l = _ := if_pos hroom
    rw [Machine.exec_cons, hstep, hopen, attach_spec]
    dsimp only
    rw [ih hlines.2]
    simp

/-- What an `SSID: ` line does while there is room. -/
theorem step_ssid {st : Scan} (hst : st.Tracks) {line name : Bytes}
    (hline : behind ssidMark line = some name) (hfew : st.found.length < wifiMaxNetworks) :
    scanner.step st line =
      { num := st.total
        cur := some st.total
        results := Function.update st.results st.total
          (({ (default : WifiScanResult) with ssid := copySsid name }).attach line) } := by
  have hstep : scanner.step st line = _ := if_pos hst.room
  rw [st.found_length] at hfew
  have hopen : st.openEntry line =
      { num := st.total
        cur := some st.total
        results := Function.update st.results st.total
          { (default : WifiScanResult) with ssid := copySsid name } } := by
    unfold Scan.openEntry
    rw [hline]
    exact if_pos hfew
  rw [hstep, hopen, attach_spec]
  simp

/-- A segment adds its entry, if that has a name. -/
theorem exec_segment {st : Scan} (hst : st.Tracks) (hfew : st.found.length < wifiMaxNetworks)
    (seg : Segment) : (scanner.exec st seg.lines).Tracks ∧
      (scanner.exec st seg.lines).found = st.found ++ namedEntries [seg] := by
  have hroom : st.total < wifiMaxNetworks := st.found_length ▸ hfew
  have hexec : scanner.exec st seg.lines =
      { num := st.total
        cur := some st.total
        results := Function.update st.results st.total seg.entry } := by
    rw [Segment.lines, Machine.exec_cons, step_ssid hst seg.isSsid hfew,
      exec_open hroom seg.rest_none]
    simp [Segment.entry, Segment.lines]
  have hold : (List.range st.total).map (Function.update st.results st.total seg.entry) =
      st.found := by
    rw [hst.found_eq]
    exact List.map_congr_left fun i hi => Function.update_of_ne (List.mem_range.mp hi).ne _ _
  rw [hexec, Scan.found, hold]
  refine ⟨⟨hroom, fun i hi => (Option.mem_some_iff.mp hi).symm⟩, ?_⟩
  simp [namedEntries]

theorem namedEntries_cons (seg : Segment) (segs : List Segment) :
    namedEntries (seg :: segs) = namedEntries [seg] ++ namedEntries segs := by
  rw [← List.singleton_append, namedEntries, List.map_append, List.filter_append]
  rfl

/-- As long as there is room for the next one, the segments add their entries. -/
theorem exec_segments {st : Scan} (hst : st.Tracks) {segs : List Segment}
    (hfew : segs ≠ [] → st.found.length + (namedEntries segs.dropLast).length < wifiMaxNetworks) :
    (scanner.exec st (segs.flatMap Segment.lines)).Tracks ∧
      (scanner.exec st (segs.flatMap Segment.lines)).found = st.found ++ namedEntries segs := by
  induction segs generalizing st with
  | nil => exact ⟨hst, (List.append_nil _).symm⟩
  | cons seg segs ih =>
    have hroom := hfew (List.cons_ne_nil _ _)
    obtain ⟨hst', hfound⟩ := exec_segment hst (by omega) seg
    rw [List.flatMap_cons, Machine.exec_append]
    obtain ⟨htracks, hall⟩ := ih hst' fun hne => by
      rw [List.dropLast_cons_of_ne_nil hne, namedEntries_cons, List.length_append] at hroom
      rw [hfound, List.length_append]
      omega
    exact ⟨htracks, by rw [hall, hfound, List.append_assoc, ← namedEntries_cons]⟩

/-- A full scan does nothing more. -/
theorem exec_full {st : Scan} (hfull : ¬ st.num < wifiMaxNetworks) (lines : List Bytes) :
    scanner.exec st lines = st := by
  induction lines with
  | nil => rfl
  | cons l lines ih =>
    have hstep : scanner.step st l = st := if_neg hfull
    rw [Machine.exec_cons, hstep, ih]

/-- An `SSID: ` line behind the sixteenth name counts that one, and the end of the scan counts it
once more. -/
theorem exec_ssid_full {st : Scan} (hst : st.Tracks) (hfull : st.total = wifiMaxNetworks)
    {line name : Bytes} (hline : behind ssidMark line = some name) (lines : List Bytes) :
    (scanner.exec st (line :: lines)).total = wifiMaxNetworks + 1 := by
  obtain ⟨num, cur, results⟩ := st
  have hroom : num < wifiMaxNetworks := hst.room
  have hnamed : Scan.named ⟨num, cur, results⟩ = true := by
    by_contra hname
    rw [Scan.total, if_neg hname] at hfull
    exact absurd hfull hroom.ne
  have hnum : num + 1 = wifiMaxNetworks := by rwa [Scan.total, if_pos hnamed] at hfull
  cases cur with
  | none => cases hnamed
  | some i =>
    have hopen : Scan.openEntry line ⟨num, some i, results⟩ = ⟨num + 1, some i, results⟩ := by
      unfold Scan.openEntry
      rw [hline]
      dsimp only
      rw [if_pos hnamed, if_neg (by omega)]
    have hstep : scanner.step ⟨num, some i, results⟩ line = _ := if_pos hroom
    rw [Machine.exec_cons, hstep, hopen, attach_spec, exec_full (by dsimp only; omega), Scan.total,
      ← hnum]
    apply if_pos
    simpa [Scan.named] using hnamed

theorem exec_overflow {st : Scan} (hst : st.Tracks) {segs : List Segment} (hne : segs ≠ [])
    (hmany : wifiMaxNetworks ≤ st.found.length + (namedEntries segs.dropLast).length) :
    (scanner.exec st (segs.flatMap Segment.lines)).total = wifiMaxNetworks + 1 := by
  induction segs generalizing st with
  | nil => exact absurd rfl hne
  | cons seg segs ih =>
    by_cases hfew : st.found.length < wifiMaxNetworks
    · have hne' : segs ≠ [] := by
        rintro rfl
        exact absurd hmany (by simpa [namedEntries] using hfew)
      obtain ⟨hst', hfound⟩ := exec_segment hst hfew seg
      rw [List.flatMap_cons, Machine.exec_append]
      apply ih hst' hne'
      rw [List.dropLast_cons_of_ne_nil hne', namedEntries_cons, List.length_append] at hmany
      rw [hfound, List.length_append]
      omega
    · have hroom := hst.room
      have htotal : st.total ≤ st.num + 1 := by
        unfold Scan.total
        split <;> omega
      rw [st.found_length] at hfew
      exact exec_ssid_full hst (by omega) seg.isSsid _

/-! ## The count -/

theorem behind_suffix {mark s rest : Bytes} (h : behind mark s = some rest) : rest <:+ s := by
  induction s with
  | nil => cases h
  | cons b s ih =>
    unfold behind at h
    split at h
    · rw [← Option.some.inj h]
      exact List.drop_suffix _ _
    · exact (ih h).trans (List.suffix_cons b s)

/-- A stored name is the printed one, cut off at 63 bytes and trimmed. -/
theorem copySsid_bytes {name : Bytes} (hnul : 0 ∉ name) :
    (copySsid name).bytes = (name.take 63).rdropWhile isTrailing := by
  show ((CStr.ofBytes name).bytes.take 63).rdropWhile isTrailing = _
  rw [CStr.ofBytes_of_nonul hnul]

/-- The names of the `SSID: ` lines. -/
def ssidNames (lines : List Bytes) : List Bytes := lines.filterMap (behind ssidMark)

/-- The names that are not empty when they are stored. -/
def storedCount (names : List Bytes) : Nat := names.countP fun name => (copySsid name).bytes ≠ []

theorem namedEntries_length (segs : List Segment) :
    (namedEntries segs).length = storedCount (segs.map Segment.name) := by
  rw [namedEntries, ← List.countP_eq_length_filter, List.countP_map, storedCount, List.countP_map]
  exact List.countP_congr fun seg _ => by
    rw [Function.comp_apply, Function.comp_apply, seg.entry_ssid]

theorem ssidNames_segments {pre : List Bytes} (hpre : ∀ l ∈ pre, behind ssidMark l = none)
    (segs : List Segment) :
    ssidNames (pre ++ segs.flatMap Segment.lines) = segs.map Segment.name := by
  unfold ssidNames
  rw [List.filterMap_append, List.filterMap_eq_nil_iff.mpr hpre, List.nil_append]
  induction segs with
  | nil => rfl
  | cons seg segs ih =>
    rw [List.flatMap_cons, List.filterMap_append, ih, Segment.lines,
      List.filterMap_cons_some seg.isSsid, List.filterMap_eq_nil_iff.mpr seg.rest_none]
    rfl

/-- A scan starts with nothing found. -/
theorem start_tracks (s : WifiState) : (Scan.start s).Tracks ∧ (Scan.start s).found = [] :=
  ⟨⟨show 0 < wifiMaxNetworks by decide, fun i hi => by cases hi⟩, rfl⟩

/-- The count is the number of names as long as no `SSID: ` line follows the sixteenth, and
seventeen if one does. -/
theorem exec_total (s : WifiState) (lines : List Bytes) :
    (scanner.exec (.start s) lines).total =
      if storedCount (ssidNames lines).dropLast < wifiMaxNetworks then storedCount (ssidNames lines)
      else wifiMaxNetworks + 1 := by
  obtain ⟨pre, segs, rfl, hpre⟩ := exists_segments lines
  obtain ⟨hst, hfound⟩ := start_tracks s
  have hquiet : scanner.exec (.start s) pre = .start s := exec_closed hst.room hpre
  rw [ssidNames_segments hpre, ← List.map_dropLast, ← namedEntries_length, ← namedEntries_length,
    Machine.exec_append, hquiet]
  split
  · rename_i hfew
    have hroom : segs ≠ [] → (Scan.start s).found.length +
        (namedEntries segs.dropLast).length < wifiMaxNetworks := by
      intro _
      rw [hfound]
      simpa using hfew
    obtain ⟨-, hall⟩ := exec_segments hst hroom
    rw [← Scan.found_length, hall, hfound, List.nil_append]
  · rename_i hmany
    refine exec_overflow hst (fun hnil => ?_) (by rw [hfound]; simpa using hmany)
    rw [hnil] at hmany
    exact hmany (by decide)

/-- No line writes behind the sixteenth result. -/
theorem writes_lt {st : Scan} (hcur : ∀ i ∈ st.cur, i < wifiMaxNetworks) (line : Bytes) :
    (∀ i ∈ (st.openEntry line).cur, i < wifiMaxNetworks) ∧
      ∀ i ∈ st.writes line, i < wifiMaxNetworks := by
  have hopen : ∀ i ∈ (st.openEntry line).cur, i < wifiMaxNetworks := by
    unfold Scan.openEntry
    split
    · exact hcur
    · dsimp only
      generalize (if st.named = true then st.num + 1 else st.num) = num
      split
      · rename_i hroom
        exact fun i hi => Option.mem_some_iff.mp hi ▸ hroom
      · exact hcur
  have hpart : ∀ (c : Prop) [Decidable c],
      ∀ i ∈ (if c then (st.openEntry line).cur.toList else []), i < wifiMaxNetworks := by
    intro c _ i hi
    split at hi
    · exact hopen i (Option.mem_toList.mp hi)
    · cases hi
  refine ⟨hopen, fun i hi => ?_⟩
  rcases List.mem_append.mp hi with hi | hi
  · rcases List.mem_append.mp hi with hi | hi
    · exact hpart _ i hi
    · exact hpart _ i hi
  · exact hpart _ i hi

theorem step_cur_lt (st : Scan) (line : Bytes) (hcur : ∀ i ∈ st.cur, i < wifiMaxNetworks) :
    ∀ i ∈ (scanner.step st line).cur, i < wifiMaxNetworks := by
  show ∀ i ∈ (if st.num < wifiMaxNetworks then
    ((st.openEntry line).setSignal line).setFreq line else st).cur, i < wifiMaxNetworks
  split
  · rw [attach_cur]
    exact (writes_lt hcur line).1
  · exact hcur

/-- Every write of a scan is in the array. -/
theorem scanWrites_lt (s : WifiState) (output : Bytes) :
    ∀ i ∈ scanWrites s output, i < wifiMaxNetworks := by
  refine scanner.trace_inv (P := fun st => ∀ i ∈ st.cur, i < wifiMaxNetworks) step_cur_lt
    (fun st line hcur i hi => ?_) (fun i hi => by cases hi) _
  have hout : scanner.out st line = if st.num < wifiMaxNetworks then st.writes line else [] := rfl
  rw [hout] at hi
  split at hi
  · exact (writes_lt hcur line).2 i hi
  · cases hi

/-- The `SSID: ` lines of a command's output whose name is not all blanks at its end. -/
def namedLines (output : Bytes) : Nat :=
  (ssidNames (tokens newline output)).countP fun name => name.rdropWhile isTrailing ≠ []

/-- The count is in range and right, and the writes are in the array. -/
structure CountRight (shell : CStr → CmdResult) (s : WifiState) (output : Bytes) : Prop where
  returns : (wifiMgrScan shell s).2 = 0
  le : (wifiMgrScan shell s).1.numScanResults ≤ wifiMaxNetworks
  eq : (wifiMgrScan shell s).1.numScanResults = min wifiMaxNetworks (namedLines output)
  writes : ∀ i ∈ scanWrites s output, i < wifiMaxNetworks

/-- An output that fits the buffer is read as a whole, and names that fit are stored as such. -/
theorem storedCount_of_fits {output : Bytes} (hlen : output.length ≤ 4095) (hnul : 0 ∉ output)
    (hnames : ∀ name ∈ ssidNames (tokens newline output), name.length ≤ 63) :
    storedCount (ssidNames (scanLines output)) = namedLines output := by
  have hall : (captured output).bytes = output := by
    rw [captured, List.take_of_length_le hlen, CStr.ofBytes_of_nonul hnul]
  unfold scanLines storedCount namedLines
  rw [hall]
  apply List.countP_congr
  intro name hname
  obtain ⟨line, hline, hbehind⟩ := List.mem_filterMap.mp hname
  have hzero : 0 ∉ name := fun h =>
    hnul (mem_of_mem_tokens hline ((behind_suffix hbehind).subset h))
  rw [copySsid_bytes hzero, List.take_of_length_le (hnames name hname)]

theorem storedCount_le (names : List Bytes) :
    storedCount names ≤ storedCount names.dropLast + 1 := by
  rcases List.eq_nil_or_concat names with rfl | ⟨init, last, rfl⟩
  · exact Nat.zero_le _
  · rw [List.concat_eq_append, List.dropLast_concat, storedCount, storedCount, List.countP_append]
    exact Nat.add_le_add_left (List.countP_le_length) _

/-- A scan that is ready and has an output parses it. -/
theorem wifiMgrScan_eq {shell : CStr → CmdResult} {s : WifiState} {output : Bytes}
    (hready : s.initialized ∧ s.enabled) (houtput : scanOutput shell s.iface = some output) :
    wifiMgrScan shell s = ({ s with
      numScanResults := (scanner.exec (.start s) (scanLines output)).total
      scanResults := (scanner.exec (.start s) (scanLines output)).results }, 0) := by
  unfold wifiMgrScan
  rw [hready.1, hready.2, houtput]
  rfl

/-- **The count of the results** is right exactly when no `SSID: ` line follows the sixteenth
name, and what is read of the output and stored of its names has as many names in it, counted
up to sixteen, as the output has. -/
theorem countRight_iff (shell : CStr → CmdResult) (s : WifiState) (output : Bytes)
    (hready : s.initialized ∧ s.enabled) (houtput : scanOutput shell s.iface = some output) :
    CountRight shell s output ↔
      storedCount (ssidNames (scanLines output)).dropLast < wifiMaxNetworks ∧
        min wifiMaxNetworks (storedCount (ssidNames (scanLines output))) =
          min wifiMaxNetworks (namedLines output) := by
  have hscan := wifiMgrScan_eq hready houtput
  have hnum : (wifiMgrScan shell s).1.numScanResults = _ :=
    (congrArg (fun r => r.1.numScanResults) hscan).trans (exec_total s _)
  have hle := storedCount_le (ssidNames (scanLines output))
  constructor
  · intro h
    have hcount := h.eq
    have hbound := h.le
    rw [hnum] at hcount hbound
    split at hcount
    · rename_i hfew
      exact ⟨hfew, by omega⟩
    · rename_i hmany
      rw [if_neg hmany] at hbound
      omega
  · rintro ⟨hfew, hsame⟩
    rw [if_pos hfew] at hnum
    exact ⟨by rw [hscan], by omega, by omega, scanWrites_lt s output⟩

/-- A ready interface, and an `iw` with this output. -/
def readyWifi : WifiState := ⟨true, true, CharArray.copy 16 (CStr.lit "wlan0"), 0, fun _ => default⟩

def iwPrints (output : Bytes) : CStr → CmdResult := fun _ => ⟨output, 0⟩

def manyNetworks (n : Nat) : Bytes := (List.replicate n (CStr.chars "SSID: a\n")).flatten

theorem sixteen_counted :
    (readyWifi.initialized ∧ readyWifi.enabled) ∧
      scanOutput (iwPrints (manyNetworks 16)) readyWifi.iface = some (manyNetworks 16) ∧
      CountRight (iwPrints (manyNetworks 16)) readyWifi (manyNetworks 16) :=
  ⟨by decide, rfl, (countRight_iff _ _ _ (by decide) rfl).mpr (by decide +kernel)⟩

/-- Seventeen networks are counted as seventeen. -/
theorem seventeen_counted :
    (wifiMgrScan (iwPrints (manyNetworks 17)) readyWifi).1.numScanResults = 17 ∧
      ¬ CountRight (iwPrints (manyNetworks 17)) readyWifi (manyNetworks 17) := by
  have hnum : (wifiMgrScan (iwPrints (manyNetworks 17)) readyWifi).1.numScanResults = 17 := by
    decide +kernel
  refine ⟨hnum, fun h => ?_⟩
  have hle := h.le
  rw [hnum] at hle
  exact absurd hle (by decide)

end NetMon.Net
