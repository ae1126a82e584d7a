import NetMon.Lib.Tokens
import NetMon.Net.TableGrowth
import NetMon.Ui.Charts
import NetMon.Ui.Dashboard
import NetMon.Ui.Navigation

/-!
# The traffic screen

`ui_traffic.c`: a drop-down list that selects an interface, the daily totals and the chart of its
long history. LVGL's list is a parameter with what its documentation promises.

The buffer of the options has room for eight names and the separators between them, so the text
is the names of the table, one a line (`optionsText_bytes`).
-/

namespace NetMon.Ui

open NetMon.Lib NetMon.Core NetMon.Net

/-- The options of a drop-down list, one a line. -/
def optionsOf (text : CStr) : List Bytes := text.bytes.splitOn newline

/-- LVGL's drop-down list. Setting the options replaces the text; a selection is an index among
the options, and its text is copied as far as the buffer goes. -/
structure LvDropdown (δ : Type) where
  create : δ
  setOptions : δ → CStr → δ
  setSelected : δ → Nat → δ
  getOptions : δ → CStr
  getSelected : δ → Nat
  getSelectedStr : δ → Nat → CStr
  options_setOptions : ∀ d text, getOptions (setOptions d text) = text
  options_setSelected : ∀ d i, getOptions (setSelected d i) = getOptions d
  selected_setSelected : ∀ d i, i < (optionsOf (getOptions d)).length →
    getSelected (setSelected d i) = i
  selectedStr : ∀ d n t, (optionsOf (getOptions d))[getSelected d]? = some t →
    (getSelectedStr d n).bytes = t.take (n - 1)

/-- What the labels of the daily totals format. -/
structure DailyTotals where
  rx : UInt64
  tx : UInt64
  total : UInt64
  deriving DecidableEq

/-- The screen's variables and widgets, and the collector it reads; nothing is shown, and nothing
drawn, before the first update. -/
structure TrafficScreen (δ : Type) where
  collector : Collector
  dropdown : δ
  selectedIface : Int
  totals : Option DailyTotals
  chart : Option ChartCalls

/-! ## The text of the options -/

/-- `APP_MAX_INTERFACES * APP_IFACE_NAME_MAX` -/
def sizeofOptions : Nat := 128

/-- `options` up to its terminator, and `pos`. -/
structure OptionsBuffer where
  text : Bytes
  pos : Nat

/-- The separator in front of all names but the first. -/
def addSeparator (i : Nat) (b : OptionsBuffer) : OptionsBuffer :=
  if i > 0 ∧ b.pos < sizeofOptions - 1 then ⟨b.text.take b.pos ++ [newline], b.pos + 1⟩ else b

/-- The `snprintf` of a name; `pos` stays where it is if the name is cut off. -/
def addName (name : CStr) (b : OptionsBuffer) : OptionsBuffer :=
  let remaining := sizeofOptions - b.pos
  let written := name.length
  { text := b.text.take b.pos ++ (CharArray.copy remaining name).bytes
    pos := if written > 0 ∧ written < remaining then b.pos + written else b.pos }

def addOption (s : NetState) (b : OptionsBuffer) (i : Nat) : OptionsBuffer :=
  addName (s.ifaces i).info.name.str (addSeparator i b)

/-- The text `rebuild_dropdown` passes to the list. -/
def optionsText (s : NetState) : CStr :=
  CStr.ofBytes ((tableRows s).foldl (addOption s) ⟨[], 0⟩).text

/-! ## The functions -/

section Functions

variable {δ : Type} (lv : LvDropdown δ) (coord : ToCoord)

def rebuildDropdown (s : TrafficScreen δ) : TrafficScreen δ :=
  let dropdown := lv.setOptions s.dropdown (optionsText s.collector.state)
  let selected := if s.selectedIface ≥ s.collector.state.numIfaces then 0 else s.selectedIface
  { s with dropdown := lv.setSelected dropdown selected.toNat, selectedIface := selected }

/-- The guard of the rebuild: the text of the selected option is not the row's name. -/
def nameDiffers (s : TrafficScreen δ) : Prop :=
  s.selectedIface < s.collector.state.numIfaces ∧
    lv.getSelectedStr s.dropdown sizeofOptions ≠
      (s.collector.state.ifaces s.selectedIface).info.name.str

instance (s : TrafficScreen δ) : Decidable (nameDiffers lv s) :=
  inferInstanceAs (Decidable (_ ∧ _))

def dailyTotals (iface : NetIfaceState) : DailyTotals where
  rx := iface.rxBytesToday
  tx := iface.txBytesToday
  total := iface.rxBytesToday + iface.txBytesToday

/-- The chart of a row's long history. -/
def longChart (c : Collector) (row : Int) : Option ChartCalls :=
  (netGetLongHistory c row).bind (drawChart coord)

/-- The totals and the chart. Without a sample the chart is left as it is. -/
def showIface (s : TrafficScreen δ) : TrafficScreen δ :=
  { s with
    totals := some (dailyTotals (s.collector.state.ifaces s.selectedIface))
    chart := (longChart coord s.collector s.selectedIface).or s.chart }

def uiTrafficUpdate (s : TrafficScreen δ) : TrafficScreen δ :=
  let s := if nameDiffers lv s then rebuildDropdown lv s else s
  if s.selectedIface ≥ s.collector.state.numIfaces then
    let s := { s with selectedIface := 0 }
    if s.collector.state.numIfaces = 0 then s else showIface coord s
  else showIface coord s

def dropdownCb (s : TrafficScreen δ) : TrafficScreen δ :=
  uiTrafficUpdate lv coord { s with selectedIface := lv.getSelected s.dropdown }

def updateTimerCb (current : ScreenId) (s : TrafficScreen δ) : TrafficScreen δ :=
  if current ≠ .traffic then s else uiTrafficUpdate lv coord s

/-- `ui_traffic_create` -/
def uiTrafficCreate (c : Collector) : TrafficScreen δ :=
  uiTrafficUpdate lv coord <| rebuildDropdown lv
    { collector := c
      dropdown := lv.create
      selectedIface := 0
      totals := none
      chart := none }

end Functions

/-! ## The options are the names -/

/-- The names, one a line. -/
def namesText (names : List IfaceName) : Bytes :=
  [newline].intercalate (names.map CharArray.bytes)

/-- What stands between a name and the `i` names in front of it. -/
def separator (i : Nat) : Bytes := if i > 0 then [newline] else []

theorem separator_length (i : Nat) : (separator i).length = min i 1 := by
  unfold separator
  split
  · rw [List.length_singleton]
    omega
  · rw [List.length_nil]
    omega

theorem namesText_concat (names : List IfaceName) (name : IfaceName) :
    namesText (names ++ [name]) = namesText names ++ separator names.length ++ name.bytes := by
  unfold namesText
  cases names with
  | nil => simp [separator]
  | cons n ns =>
    have hne : (n :: ns).map CharArray.bytes ≠ [] := List.cons_ne_nil _ _
    rw [List.map_append, List.map_singleton, intercalate_concat _ hne, separator,
      if_pos (List.length_pos_of_ne_nil (List.cons_ne_nil n ns)), List.append_assoc]

theorem addSeparator_eq (i : Nat) {t : Bytes} (h : t.length < 127) :
    addSeparator i ⟨t, t.length⟩ = ⟨t ++ separator i, (t ++ separator i).length⟩ := by
  unfold addSeparator separator
  by_cases hi : i > 0
  · rw [if_pos ⟨hi, h⟩, if_pos hi, List.take_length, List.length_append, List.length_singleton]
  · rw [if_neg fun hboth => hi hboth.1, if_neg hi, List.append_nil]

theorem addName_eq (name : IfaceName) {t : Bytes} (h : t.length + 16 ≤ sizeofOptions) :
    addName name.str ⟨t, t.length⟩ = ⟨t ++ name.bytes, (t ++ name.bytes).length⟩ := by
  have hname : name.bytes.length ≤ 15 := name.bytes_length_le
  have hwritten : name.str.length = name.bytes.length := rfl
  have hcopy : (CharArray.copy (sizeofOptions - t.length) name.str).bytes = name.bytes :=
    List.take_of_length_le (by show name.bytes.length ≤ _; omega)
  unfold addName
  simp only [List.take_length, hcopy, hwritten, List.length_append]
  split
  · rfl
  · next hempty =>
    congr 1
    omega

/-- The loop behind `n` rows. -/
theorem foldl_addOption {s : NetState} {n : Nat} (hn : n ≤ appMaxInterfaces) :
    let text := namesText ((List.range n).map fun i : Nat => (s.ifaces i).info.name)
    (List.range n).foldl (addOption s) ⟨[], 0⟩ = ⟨text, text.length⟩ ∧
      text.length ≤ 16 * n - 1 := by
  induction n with
  | zero => exact ⟨rfl, Nat.zero_le _⟩
  | succ n ih =>
    have h8 : appMaxInterfaces = 8 := rfl
    have hsize : sizeofOptions = 128 := rfl
    have hname : (s.ifaces n).info.name.bytes.length ≤ 15 := CharArray.bytes_length_le _
    have hsep := separator_length n
    obtain ⟨hloop, hlen⟩ := ih (by omega)
    simp only [List.range_succ, List.foldl_append, List.foldl_cons, List.foldl_nil, List.map_append,
      List.map_singleton, hloop, namesText_concat, List.length_map, List.length_range]
    refine ⟨?_, ?_⟩
    · rw [addOption, addSeparator_eq n (by omega),
        addName_eq _ (by rw [List.length_append]; omega)]
    · rw [List.length_append, List.length_append]
      omega

theorem namesText_nonul (names : List IfaceName) : 0 ∉ namesText names := by
  induction names using List.reverseRecOn with
  | nil => exact List.not_mem_nil
  | append_singleton names name ih =>
    have hsep : 0 ∉ separator names.length := by
      unfold separator
      split <;> decide
    rw [namesText_concat, List.mem_append, List.mem_append, not_or, not_or]
    exact ⟨⟨ih, hsep⟩, name.str.nonul⟩

/-- The options are the names of the table. -/
theorem optionsText_bytes {s : NetState} (h : s.numIfaces ≤ appMaxInterfaces) :
    (optionsText s).bytes = namesText s.names := by
  have hrows : tableRows s = List.range s.numIfaces.toNat := by
    rw [tableRows, Nat.min_eq_left (by omega)]
  rw [optionsText, hrows, (foldl_addOption (by omega)).1, ← NetState.names_eq]
  exact CStr.ofBytes_of_nonul (namesText_nonul _)

/-- Read back, the text is the names. -/
theorem optionsOf_namesText {text : CStr} {names : List IfaceName}
    (htext : text.bytes = namesText names) (hne : names ≠ []) (hnames : ∀ n ∈ names, IsIfName n) :
    optionsOf text = names.map CharArray.bytes := by
  rw [optionsOf, htext, namesText]
  apply List.splitOn_intercalate
  · intro l hl hnl
    obtain ⟨n, hn, rfl⟩ := List.mem_map.mp hl
    exact absurd ((hnames n hn).2 newline hnl) (by decide)
  · exact fun hnil => hne (List.map_eq_nil_iff.mp hnil)

/-- The list of an empty table has one empty option. -/
theorem optionsOf_length {text : CStr} {names : List IfaceName}
    (htext : text.bytes = namesText names) (hnames : ∀ n ∈ names, IsIfName n) :
    (optionsOf text).length = max names.length 1 := by
  by_cases hne : names = []
  · rw [optionsOf, htext, hne]
    rfl
  · have hpos := List.length_pos_iff.mpr hne
    rw [optionsOf_namesText htext hne hnames, List.length_map]
    omega

end NetMon.Ui
