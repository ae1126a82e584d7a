import NetMon.Net.WifiScan

/-!
# The networks of a scan

`iw` prints each network as a `Block`: the lines with its frequency and signal, then the one with
its name. The parser opens an entry at the name, so the values it gives it are those of the next
block. `ownValues_iff` says when they are the network's own all the same.
-/

namespace NetMon.Net

open NetMon.Lib

/-- The last value behind a mark in the lines, `init` if there is none. -/
def lastValue (mark : Bytes) (init : Int) (lines : List Bytes) : Int :=
  lines.foldl (fun v line => (behind mark line).elim v atoi) init

/-- A network as `iw` prints it. -/
structure Block where
  before : List Bytes
  ssidLine : Bytes
  name : Bytes
  after : List Bytes
  isSsid : behind ssidMark ssidLine = some name
  name_ne : name ≠ []
  before_ssid : ∀ l ∈ before, behind ssidMark l = none
  before_signal : ∃ l ∈ before, (behind signalMark l).isSome
  before_freq : ∃ l ∈ before, (behind freqMark l).isSome
  after_none : ∀ l ∈ after, behind ssidMark l = none ∧ behind signalMark l = none ∧
    behind freqMark l = none
  legible : ∀ l ∈ before ++ ssidLine :: after, newline ∉ l ∧ 0 ∉ l

namespace Block

def lines (b : Block) : List Bytes := b.before ++ b.ssidLine :: b.after

def signal (b : Block) : Int := lastValue signalMark 0 b.before

def freq (b : Block) : Int := lastValue freqMark 0 b.before

/-- The value the line with the name holds itself, if the name reads like one. -/
def ownValue (mark : Bytes) (b : Block) : Int := (behind mark b.ssidLine).elim 0 atoi

/-- The name is stored as it is printed. -/
def Fits (b : Block) : Prop := b.name.length ≤ 63 ∧ ∀ c ∈ b.name.getLast?, isTrailing c = false

instance (b : Block) : Decidable b.Fits :=
  @instDecidableAnd _ _ inferInstance b.name.getLast?.decidableForallMem

/-- The name's line, and the lines up to the next one. -/
def segment (b : Block) (next : List Bytes) (h : ∀ l ∈ next, behind ssidMark l = none) :
    Segment where
  line := b.ssidLine
  name := b.name
  rest := b.after ++ next
  isSsid := b.isSsid
  rest_none l hl := (List.mem_append.mp hl).elim (fun h' => (b.after_none l h').1) (h l)

end Block

/-- What `iw` prints for these networks. -/
def iwOutput (blocks : List Block) : Bytes :=
  (blocks.flatMap Block.lines).flatMap fun l => l ++ [newline]

/-- A network's name, signal and frequency, as a result has them and as a block does. -/
def WifiScanResult.values (r : WifiScanResult) : Bytes × Int × Int :=
  (r.ssid.bytes, r.signalDbm, r.frequencyMhz)

def Block.values (b : Block) : Bytes × Int × Int := (b.name, b.signal, b.freq)

/-- The results are those of the blocks, one for each and in order. -/
def OwnValues (s : WifiState) (blocks : List Block) : Prop :=
  (List.range s.numScanResults).map (fun i => (s.scanResults i).values) = blocks.map Block.values

/-! ## Values -/

theorem lastValue_append (mark : Bytes) (init : Int) (a b : List Bytes) :
    lastValue mark init (a ++ b) = lastValue mark (lastValue mark init a) b :=
  List.foldl_append

/-- Where a line has a value, what was there before does not matter. -/
theorem lastValue_of_some {mark : Bytes} {lines : List Bytes}
    (h : ∃ l ∈ lines, (behind mark l).isSome) (v w : Int) :
    lastValue mark v lines = lastValue mark w lines := by
  induction lines generalizing v w with
  | nil =>
    obtain ⟨l, hl, -⟩ := h
    cases hl
  | cons l lines ih =>
    unfold lastValue
    rw [List.foldl_cons, List.foldl_cons]
    cases hl : behind mark l with
    | some rest => rfl
    | none =>
      refine ih ?_ v w
      obtain ⟨l', hmem, hsome⟩ := h
      rcases List.mem_cons.mp hmem with rfl | hmem
      · rw [hl] at hsome
        cases hsome
      · exact ⟨l', hmem, hsome⟩

theorem lastValue_of_none {mark : Bytes} {lines : List Bytes}
    (h : ∀ l ∈ lines, behind mark l = none) (v : Int) : lastValue mark v lines = v := by
  induction lines with
  | nil => rfl
  | cons l lines ih =>
    rw [List.forall_mem_cons] at h
    unfold lastValue
    rw [List.foldl_cons, h.1]
    exact ih h.2

theorem foldl_attach (lines : List Bytes) (r : WifiScanResult) :
    (lines.foldl WifiScanResult.attach r).signalDbm = lastValue signalMark r.signalDbm lines ∧
      (lines.foldl WifiScanResult.attach r).frequencyMhz =
        lastValue freqMark r.frequencyMhz lines := by
  induction lines generalizing r with
  | nil => exact ⟨rfl, rfl⟩
  | cons l lines ih => exact ih (r.attach l)

/-! ## Blocks and segments -/

/-- The lines in front of the next name. -/
def nextFront (blocks : List Block) : List Bytes := (blocks.head?.map Block.before).getD []

theorem nextFront_ssid (blocks : List Block) :
    ∀ l ∈ nextFront blocks, behind ssidMark l = none := by
  cases blocks with
  | nil => exact List.forall_mem_nil _
  | cons b blocks => exact b.before_ssid

def segmentsOf : List Block → List Segment
  | [] => []
  | b :: blocks => b.segment (nextFront blocks) (nextFront_ssid blocks) :: segmentsOf blocks

theorem segmentsOf_length (blocks : List Block) : (segmentsOf blocks).length = blocks.length := by
  induction blocks with
  | nil => rfl
  | cons b blocks ih => rw [segmentsOf, List.length_cons, List.length_cons, ih]

theorem lines_segmentsOf (blocks : List Block) : blocks.flatMap Block.lines =
    nextFront blocks ++ (segmentsOf blocks).flatMap Segment.lines := by
  induction blocks with
  | nil => rfl
  | cons b blocks ih =>
    rw [List.flatMap_cons, ih, segmentsOf, List.flatMap_cons]
    simp [Block.lines, Segment.lines, Block.segment, nextFront]

/-- A mark's last value in a segment is the next block's, or for the last one that in the name. -/
theorem lastValue_segment {mark : Bytes} (b : Block) (blocks : List Block)
    (hafter : ∀ l ∈ b.after, behind mark l = none)
    (hnext : ∀ b' ∈ blocks.head?, ∃ l ∈ b'.before, (behind mark l).isSome) :
    lastValue mark 0 (b.ssidLine :: (b.after ++ nextFront blocks)) =
      (blocks.head?.map fun b' => lastValue mark 0 b'.before).getD (b.ownValue mark) := by
  have hown : lastValue mark 0 (b.ssidLine :: (b.after ++ nextFront blocks)) =
      lastValue mark (b.ownValue mark) (b.after ++ nextFront blocks) := rfl
  rw [hown, lastValue_append, lastValue_of_none hafter]
  cases blocks with
  | nil => rfl
  | cons b' blocks => exact lastValue_of_some (hnext b' rfl) _ 0

theorem segment_entry (b : Block) (blocks : List Block) :
    let entry := (b.segment (nextFront blocks) (nextFront_ssid blocks)).entry
    entry.ssid = copySsid b.name ∧
      entry.signalDbm = (blocks.head?.map Block.signal).getD (b.ownValue signalMark) ∧
      entry.frequencyMhz = (blocks.head?.map Block.freq).getD (b.ownValue freqMark) := by
  intro entry
  obtain ⟨hsignal, hfreq⟩ := foldl_attach
    (b.segment (nextFront blocks) (nextFront_ssid blocks)).lines
    { (default : WifiScanResult) with ssid := copySsid b.name }
  refine ⟨Segment.entry_ssid _, hsignal.trans ?_, hfreq.trans ?_⟩
  · exact lastValue_segment b blocks (fun l hl => (b.after_none l hl).2.1)
      fun b' _ => b'.before_signal
  · exact lastValue_segment b blocks (fun l hl => (b.after_none l hl).2.2)
      fun b' _ => b'.before_freq

/-! ## The whole scan -/

/-- No empty line matters to the parser. -/
theorem exec_nonempty (st : Scan) (lines : List Bytes) :
    scanner.exec st (lines.filter (· ≠ [])) = scanner.exec st lines := by
  induction lines generalizing st with
  | nil => rfl
  | cons l lines ih =>
    by_cases hl : l = []
    · have hempty : scanner.step st [] = st := by
        show (if st.num < wifiMaxNetworks then (st.setSignal []).setFreq [] else st) = st
        rw [attach_spec]
        obtain ⟨num, cur, results⟩ := st
        cases cur with
        | none => exact ite_self _
        | some i =>
          have hsame : (results i).attach [] = results i := rfl
          dsimp only
          rw [hsame, Function.update_eq_self]
          exact ite_self _
      rw [hl, List.filter_cons_of_neg (by simp), Machine.exec_cons, hempty, ih]
    · rw [List.filter_cons_of_pos (by simpa using hl), Machine.exec_cons, Machine.exec_cons, ih]

theorem legible_lines {blocks : List Block} :
    ∀ l ∈ blocks.flatMap Block.lines, newline ∉ l ∧ 0 ∉ l := by
  intro l hl
  obtain ⟨b, -, hmem⟩ := List.mem_flatMap.mp hl
  exact b.legible l hmem

/-- An output that fits the buffer is parsed line by line. -/
theorem exec_scanLines {blocks : List Block} (hfits : (iwOutput blocks).length ≤ 4095) (st : Scan) :
    scanner.exec st (scanLines (iwOutput blocks)) =
      scanner.exec st (blocks.flatMap Block.lines) := by
  have hnul : 0 ∉ iwOutput blocks := by
    intro h
    obtain ⟨l, hl, h⟩ := List.mem_flatMap.mp h
    rcases List.mem_append.mp h with h | h
    · exact (legible_lines l hl).2 h
    · exact absurd (List.mem_singleton.mp h) (by decide)
  have hall : (captured (iwOutput blocks)).bytes = iwOutput blocks := by
    rw [captured, List.take_of_length_le hfits, CStr.ofBytes_of_nonul hnul]
  rw [scanLines, hall, iwOutput, tokens_terminated fun l hl => (legible_lines l hl).1,
    exec_nonempty]

/-- At most sixteen networks are all found. -/
theorem exec_iwOutput (s : WifiState) {blocks : List Block}
    (hmany : blocks.length ≤ wifiMaxNetworks) (hfits : (iwOutput blocks).length ≤ 4095) :
    let st := scanner.exec (.start s) (scanLines (iwOutput blocks))
    (List.range st.total).map st.results = namedEntries (segmentsOf blocks) := by
  intro st
  obtain ⟨hstart, hnone⟩ := start_tracks s
  have hquiet : scanner.exec (.start s) (nextFront blocks) = .start s :=
    exec_closed hstart.room (nextFront_ssid blocks)
  have hexec : st = scanner.exec (.start s) ((segmentsOf blocks).flatMap Segment.lines) := by
    show scanner.exec _ _ = _
    rw [exec_scanLines hfits, lines_segmentsOf, Machine.exec_append, hquiet]
  have hsize := segmentsOf_length blocks
  have hfew : segmentsOf blocks ≠ [] → (Scan.start s).found.length +
      (namedEntries (segmentsOf blocks).dropLast).length < wifiMaxNetworks := by
    intro hne
    have hpos := List.length_pos_iff.mpr hne
    have hle : (namedEntries (segmentsOf blocks).dropLast).length ≤
        (segmentsOf blocks).length - 1 := by
      apply (List.length_filter_le _ _).trans
      rw [List.length_map, List.length_dropLast]
    rw [hnone, List.length_nil]
    omega
  obtain ⟨htracks, hfound⟩ := exec_segments hstart hfew
  rw [hexec, ← htracks.found_eq, hfound, hnone, List.nil_append]

theorem Block.fits_iff (b : Block) : (copySsid b.name).bytes = b.name ↔ b.Fits := by
  have hnul : 0 ∉ b.name := fun h =>
    (b.legible b.ssidLine (by simp)).2 ((behind_suffix b.isSsid).subset h)
  rw [copySsid_bytes hnul, Fits]
  constructor
  · intro h
    have hlen : b.name.length ≤ 63 := by
      rw [← h]
      exact (List.rdropWhile_prefix _ _).length_le.trans (List.length_take_le _ _)
    rw [List.take_of_length_le hlen, List.rdropWhile_eq_self_iff] at h
    refine ⟨hlen, fun c hc => ?_⟩
    rw [List.getLast?_eq_some_getLast b.name_ne, Option.mem_some_iff] at hc
    exact Bool.not_eq_true _ ▸ hc ▸ h b.name_ne
  · rintro ⟨hlen, hlast⟩
    rw [List.take_of_length_le hlen, List.rdropWhile_eq_self_iff]
    intro hne
    rw [hlast _ (List.getLast?_eq_some_getLast hne)]
    decide

/-- The entries are the networks' own. -/
theorem entries_eq_iff (blocks : List Block) :
    ((segmentsOf blocks).map Segment.entry).map WifiScanResult.values = blocks.map Block.values ↔
      (∀ b ∈ blocks, b.Fits) ∧
        blocks.IsChain (fun b b' => b.signal = b'.signal ∧ b.freq = b'.freq) ∧
        ∀ b ∈ blocks.getLast?, b.signal = b.ownValue signalMark ∧ b.freq = b.ownValue freqMark := by
  induction blocks with
  | nil => simp [segmentsOf]
  | cons b blocks ih =>
    obtain ⟨hssid, hsignal, hfreq⟩ := segment_entry b blocks
    have hname : (copySsid b.name).bytes = b.name ↔ b.Fits := b.fits_iff
    rw [segmentsOf, List.map_cons, List.map_cons, List.map_cons, List.cons.injEq, ih,
      WifiScanResult.values, Block.values, hssid, hsignal, hfreq, Prod.mk.injEq, Prod.mk.injEq,
      hname, List.forall_mem_cons]
    cases blocks with
    | nil => simp [eq_comm]
    | cons b' blocks =>
      have hswap : (b'.signal = b.signal ∧ b'.freq = b.freq) ↔
          (b.signal = b'.signal ∧ b.freq = b'.freq) := and_congr eq_comm eq_comm
      rw [List.isChain_cons_cons, List.getLast?_cons_cons, ← hswap]
      simp only [List.head?_cons, Option.map_some, Option.getD_some]
      tauto

/-- Where the networks are found as they are, none of them is dropped for its name. -/
theorem namedEntries_values (blocks : List Block) :
    (namedEntries (segmentsOf blocks)).map WifiScanResult.values = blocks.map Block.values ↔
      ((segmentsOf blocks).map Segment.entry).map WifiScanResult.values =
        blocks.map Block.values := by
  constructor
  · intro h
    have hlen := congrArg List.length h
    rw [List.length_map, List.length_map, namedEntries, ← segmentsOf_length,
      ← List.length_map (f := Segment.entry), List.length_filter_eq_length_iff] at hlen
    rwa [namedEntries, List.filter_eq_self.mpr hlen] at h
  · intro h
    rw [← h, namedEntries, List.filter_eq_self.mpr fun r hr => ?_]
    have hmem := List.mem_map_of_mem (f := WifiScanResult.values) hr
    rw [h] at hmem
    obtain ⟨b, -, hb⟩ := List.mem_map.mp hmem
    have hname : b.name = r.ssid.bytes := congrArg Prod.fst hb
    simpa [← hname] using b.name_ne

/-- **Own values.** For at most sixteen networks that fit the buffer each result is its own
network's exactly when all names fit, neighbours have the same values, and the last network's are
those its name reads like. -/
theorem ownValues_iff (shell : CStr → CmdResult) (s : WifiState) (blocks : List Block)
    (hready : s.initialized ∧ s.enabled)
    (houtput : scanOutput shell s.iface = some (iwOutput blocks))
    (hmany : blocks.length ≤ wifiMaxNetworks) (hfits : (iwOutput blocks).length ≤ 4095) :
    OwnValues (wifiMgrScan shell s).1 blocks ↔
      (∀ b ∈ blocks, b.Fits) ∧
        blocks.IsChain (fun b b' => b.signal = b'.signal ∧ b.freq = b'.freq) ∧
        ∀ b ∈ blocks.getLast?, b.signal = b.ownValue signalMark ∧ b.freq = b.ownValue freqMark := by
  rw [← entries_eq_iff, ← namedEntries_values, ← exec_iwOutput s hmany hfits, List.map_map,
    OwnValues, wifiMgrScan_eq hready houtput]
  rfl

def homeNetwork : Block where
  before := [CStr.chars "freq: 2412", CStr.chars "signal: -40.00 dBm"]
  ssidLine := CStr.chars "SSID: home"
  name := CStr.chars "home"
  after := []
  isSsid := by decide
  name_ne := by decide
  before_ssid := by decide
  before_signal := by decide
  before_freq := by decide
  after_none := by decide
  legible := by decide

/-- A network whose name reads like its own values. -/
def valuesNetwork : Block where
  before := [CStr.chars "freq: 2412", CStr.chars "signal: -40.00 dBm"]
  ssidLine := CStr.chars "SSID: freq: 2412, signal: -40"
  name := CStr.chars "freq: 2412, signal: -40"
  after := []
  isSsid := by decide
  name_ne := by decide
  before_ssid := by decide
  before_signal := by decide
  before_freq := by decide
  after_none := by decide
  legible := by decide

/-- Behind a network with the same values both results are their own. -/
theorem valuesNetwork_own :
    let blocks := [homeNetwork, valuesNetwork]
    (readyWifi.initialized ∧ readyWifi.enabled) ∧
      scanOutput (iwPrints (iwOutput blocks)) readyWifi.iface = some (iwOutput blocks) ∧
      blocks.length ≤ wifiMaxNetworks ∧ (iwOutput blocks).length ≤ 4095 ∧
      OwnValues (wifiMgrScan (iwPrints (iwOutput blocks)) readyWifi).1 blocks := by
  refine ⟨by decide, rfl, by decide, by decide, ?_⟩
  refine (ownValues_iff _ _ _ (by decide) rfl (by decide) (by decide)).mpr ⟨?_, ?_, ?_⟩
  · decide +kernel
  · exact .cons_cons (by decide +kernel) (.singleton _)
  · decide +kernel

def guestNetwork : Block where
  before := [CStr.chars "freq: 5180", CStr.chars "signal: -70.00 dBm"]
  ssidLine := CStr.chars "SSID: guest"
  name := CStr.chars "guest"
  after := []
  isSsid := by decide
  name_ne := by decide
  before_ssid := by decide
  before_signal := by decide
  before_freq := by decide
  after_none := by decide
  legible := by decide

/-- The first network gets the second one's values, the second none. -/
theorem values_shifted :
    let blocks := [homeNetwork, guestNetwork]
    let s := (wifiMgrScan (iwPrints (iwOutput blocks)) readyWifi).1
    (List.range s.numScanResults).map (fun i => (s.scanResults i).values) =
        [(CStr.chars "home", -70, 5180), (CStr.chars "guest", 0, 0)] ∧ ¬ OwnValues s blocks := by
  have hscan : let s := (wifiMgrScan (iwPrints (iwOutput [homeNetwork, guestNetwork])) readyWifi).1
      (List.range s.numScanResults).map (fun i => (s.scanResults i).values) =
        [(CStr.chars "home", -70, 5180), (CStr.chars "guest", 0, 0)] := by decide +kernel
  refine ⟨hscan, fun h => ?_⟩
  rw [OwnValues, hscan] at h
  exact absurd h (by decide)

end NetMon.Net
