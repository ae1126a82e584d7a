import NetMon.Ui.TrafficScreen

/-!
# The interface selector

`ui_traffic_update` fills its list again when the text of the selected option is not the name of
the selected row. A row keeps its name while others are appended behind it, so the text always
is that name once the list has been filled with a row (`nameDiffers_iff`): the rows that come
later are never listed (`Listing.never_current`). And a row without a long history leaves the
chart of the row before it. The selector is current at every update exactly when neither happens
(`selector_current_iff`).
-/

namespace NetMon.Ui

open NetMon.Lib NetMon.Core NetMon.Net

/-- A tick of the collector, the screen's timer under the current screen, or a selection. -/
inductive TrafficEvent where
  | tick (t : Tick)
  | timer (current : ScreenId)
  | select (i : Nat)

/-- A tick lists interfaces under names of the kernel. -/
def TrafficEvent.Named : TrafficEvent → Prop
  | .tick t => t.Named
  | _ => True

section Selector

variable {δ : Type} (lv : LvDropdown δ) (coord : ToCoord)

/-- The screen over time. Only an option of the list can be selected. -/
def trafficScreen : Machine (TrafficScreen δ) TrafficEvent Unit where
  step s e :=
    match e with
    | .tick t => { s with collector := collector.step s.collector t }
    | .timer current => updateTimerCb lv coord current s
    | .select i =>
      if i < (optionsOf (lv.getOptions s.dropdown)).length then
        dropdownCb lv coord { s with dropdown := lv.setSelected s.dropdown i }
      else s
  out _ _ := []

/-- The row that is selected when the event calls `ui_traffic_update`. -/
def updatedRow (s : TrafficScreen δ) : TrafficEvent → Option Int
  | .tick _ => none
  | .timer current => if current = .traffic then some s.selectedIface else none
  | .select i => if i < (optionsOf (lv.getOptions s.dropdown)).length then some i else none

/-- The list is the table's names, and the selected one is the row whose totals and chart are
shown. -/
structure SelectorCurrent (s : TrafficScreen δ) : Prop where
  options : optionsOf (lv.getOptions s.dropdown) = s.collector.state.names.map CharArray.bytes
  selected : (lv.getSelected s.dropdown : Int) < s.collector.state.numIfaces
  totals : s.totals =
    some (dailyTotals (s.collector.state.ifaces (lv.getSelected s.dropdown : Nat)))
  chart : s.chart = longChart coord s.collector (lv.getSelected s.dropdown : Nat)

/-- The list has as many options as the table has rows, or was filled without any; and the row
has a long history, or nothing was drawn yet. -/
structure KeepsUp (s : TrafficScreen δ) (row : Int) : Prop where
  listed : ((optionsOf (lv.getOptions s.dropdown)).length : Int) = s.collector.state.numIfaces ∨
    lv.getOptions s.dropdown = CStr.empty
  drawn : 0 < (s.collector.longHistory row.toNat).count ∨ s.chart = none

/-- Behind an update with at least one interface the selector is current. -/
def CurrentAfter (s : TrafficScreen δ) (e : TrafficEvent) : Prop :=
  (updatedRow lv s e).isSome → 0 < s.collector.state.numIfaces →
    SelectorCurrent lv coord ((trafficScreen lv coord).step s e)

/-- Before an update with at least one interface its row keeps up. -/
def KeepsUpBefore (s : TrafficScreen δ) (e : TrafficEvent) : Prop :=
  ∀ row ∈ updatedRow lv s e, 0 < s.collector.state.numIfaces → KeepsUp lv s row

/-! ## What the list holds -/

/-- The list was filled with the first `k` rows, and its selection is `g_selected_iface`. -/
structure Listing (s : TrafficScreen δ) (k : Nat) : Prop where
  table : NamedTable s.collector.state
  le : k ≤ s.collector.state.names.length
  options : (lv.getOptions s.dropdown).bytes = namesText (s.collector.state.names.take k)
  selected : (lv.getSelected s.dropdown : Int) = s.selectedIface
  selected_lt : lv.getSelected s.dropdown < max k 1

variable {lv} {s : TrafficScreen δ} {k : Nat}

theorem Listing.optionsOf_zero (h : Listing lv s 0) :
    optionsOf (lv.getOptions s.dropdown) = [[]] := by
  rw [optionsOf, h.options]
  rfl

theorem Listing.names_take (h : Listing lv s k) :
    ∀ name ∈ s.collector.state.names.take k, IsIfName name :=
  fun name hname => h.table.named name (List.mem_of_mem_take hname)

theorem Listing.optionsOf_pos (h : Listing lv s k) (hk : 0 < k) :
    optionsOf (lv.getOptions s.dropdown) =
      (s.collector.state.names.take k).map CharArray.bytes := by
  have hle := h.le
  refine optionsOf_namesText h.options (fun hnil => ?_) h.names_take
  have hlen := congrArg List.length hnil
  rw [List.length_take, List.length_nil] at hlen
  omega

theorem Listing.options_length (h : Listing lv s k) :
    (optionsOf (lv.getOptions s.dropdown)).length = max k 1 := by
  rw [optionsOf_length h.options h.names_take, List.length_take, Nat.min_eq_left h.le]

/-- With an interface in the table a row is selected. -/
theorem Listing.selected_mem (h : Listing lv s k) (hpos : 0 < s.collector.state.numIfaces) :
    0 ≤ s.selectedIface ∧ s.selectedIface < s.collector.state.numIfaces := by
  have hlen := s.collector.state.names_length
  have hle := h.le
  have hselected := h.selected
  have hlt := h.selected_lt
  omega

/-- The guard notices a list without rows, and nothing else. -/
theorem nameDiffers_iff (h : Listing lv s k) (hpos : 0 < s.collector.state.numIfaces) :
    nameDiffers lv s ↔ k = 0 := by
  have hselected := h.selected
  have hlt := h.selected_lt
  have hin := (h.selected_mem hpos).2
  have hname := s.collector.state.names_getElem? (i := lv.getSelected s.dropdown) (by omega)
  rw [hselected] at hname
  have hbytes : ∀ t, (optionsOf (lv.getOptions s.dropdown))[lv.getSelected s.dropdown]? = some t →
      (lv.getSelectedStr s.dropdown sizeofOptions).bytes = t.take 127 :=
    fun t ht => lv.selectedStr s.dropdown sizeofOptions t ht
  rcases Nat.eq_zero_or_pos k with rfl | hk
  · refine iff_of_true ⟨hin, ?_⟩ rfl
    intro heq
    have hzero : lv.getSelected s.dropdown = 0 := by omega
    have hempty := hbytes [] (by rw [h.optionsOf_zero, hzero]; rfl)
    have hmem := h.table.named _ (List.mem_of_getElem? hname)
    rw [heq] at hempty
    exact hmem.1 hempty
  · refine iff_of_false ?_ hk.ne'
    rintro ⟨-, hne⟩
    apply hne
    ext1
    have hshort : (s.collector.state.ifaces s.selectedIface).info.name.bytes.length ≤ 15 :=
      CharArray.bytes_length_le _
    have htext : (optionsOf (lv.getOptions s.dropdown))[lv.getSelected s.dropdown]? =
        some (s.collector.state.ifaces s.selectedIface).info.name.bytes := by
      rw [h.optionsOf_pos hk, List.getElem?_map, List.getElem?_take_of_lt (by omega), hname,
        Option.map_some]
    rw [hbytes _ htext, List.take_of_length_le (by omega)]
    rfl

/-! ## Updates -/

/-- A rebuild lists the whole table. -/
theorem rebuild_listing (ht : NamedTable s.collector.state) (h0 : 0 ≤ s.selectedIface) :
    Listing lv (rebuildDropdown lv s) s.collector.state.names.length := by
  have hlen := s.collector.state.names_length
  have htext := optionsText_bytes ht.count_le
  have hcount := optionsOf_length htext ht.named
  have hkept : lv.getOptions (rebuildDropdown lv s).dropdown = optionsText s.collector.state :=
    (lv.options_setSelected ..).trans (lv.options_setOptions ..)
  have hrow : (if s.selectedIface ≥ s.collector.state.numIfaces then 0 else s.selectedIface).toNat <
      max s.collector.state.names.length 1 := by
    split <;> omega
  have hselected : lv.getSelected (rebuildDropdown lv s).dropdown =
      (if s.selectedIface ≥ s.collector.state.numIfaces then 0 else s.selectedIface).toNat := by
    apply lv.selected_setSelected
    rw [lv.options_setOptions, hcount]
    exact hrow
  refine ⟨ht, le_rfl, ?_, ?_, ?_⟩
  · rw [hkept, htext]
    exact congrArg namesText List.take_length.symm
  · rw [hselected]
    apply Int.toNat_of_nonneg
    split
    · exact le_rfl
    · exact h0
  · rw [hselected]
    exact hrow

/-- Showing a row leaves the list alone. -/
theorem Listing.shown (h : Listing lv s k) : Listing lv (showIface coord s) k :=
  ⟨h.table, h.le, h.options, h.selected, h.selected_lt⟩

/-- With an interface in the table an update fills a list without rows, and shows the selected
row. -/
theorem Listing.update_eq (h : Listing lv s k) (hpos : 0 < s.collector.state.numIfaces) :
    ∃ s', uiTrafficUpdate lv coord s = showIface coord s' ∧ s'.collector = s.collector ∧
      s'.selectedIface = s.selectedIface ∧ s'.chart = s.chart ∧
      Listing lv s' (if k = 0 then s.collector.state.names.length else k) := by
  obtain ⟨h0, hlt⟩ := h.selected_mem hpos
  have hin : ¬ s.selectedIface ≥ s.collector.state.numIfaces := not_le.mpr hlt
  have hrow : (rebuildDropdown lv s).selectedIface = s.selectedIface := if_neg hin
  unfold uiTrafficUpdate
  simp only [nameDiffers_iff h hpos]
  by_cases hk : k = 0
  · simp only [if_pos hk, hrow]
    exact ⟨_, if_neg hin, rfl, hrow, rfl, rebuild_listing h.table h0⟩
  · simp only [if_neg hk]
    exact ⟨_, if_neg hin, rfl, rfl, rfl, h⟩

/-- An update keeps a list of some rows. -/
theorem Listing.update (h : Listing lv s k) : Listing lv (uiTrafficUpdate lv coord s)
    (if k = 0 then s.collector.state.names.length else k) := by
  have hlen := s.collector.state.names_length
  have hle := h.le
  have hselected := h.selected
  have hlt := h.selected_lt
  rcases Int.lt_or_le 0 s.collector.state.numIfaces with hpos | hneg
  · obtain ⟨s', hupdate, -, -, -, hs'⟩ := h.update_eq coord hpos
    rw [hupdate]
    exact hs'.shown coord
  · -- the table is empty, and so is the list
    have hk : k = 0 := by omega
    have hempty : s.collector.state.names.length = 0 := by omega
    have hdiffers : ¬ nameDiffers lv s := fun hboth => by
      have := hboth.1
      omega
    have hzero : lv.getSelected s.dropdown = 0 := by omega
    have hreset : Listing lv { s with selectedIface := 0 } 0 :=
      ⟨h.table, Nat.zero_le _, hk ▸ h.options, congrArg Nat.cast hzero, by rw [hzero]; decide⟩
    rw [if_pos hk, hempty]
    unfold uiTrafficUpdate
    rw [if_neg hdiffers]
    simp only
    rw [if_pos (by omega)]
    split
    · exact hreset
    · exact hreset.shown coord

/-! ## The condition -/

/-- No name is empty, so an empty text lists no row. -/
theorem Listing.empty_iff (h : Listing lv s k) :
    lv.getOptions s.dropdown = CStr.empty ↔ k = 0 := by
  constructor
  · intro hempty
    by_contra hk
    have hoptions := h.optionsOf_pos (Nat.pos_of_ne_zero hk)
    have hnil : ([] : Bytes) ∈ (s.collector.state.names.take k).map CharArray.bytes := by
      rw [← hoptions, hempty]
      exact List.mem_singleton_self _
    obtain ⟨name, hname, hbytes⟩ := List.mem_map.mp hnil
    exact (h.names_take name hname).1 hbytes
  · rintro rfl
    ext1
    exact h.options

/-- The count tells whether the list lacks a row. -/
theorem Listing.listed_iff (h : Listing lv s k) (hpos : 0 < s.collector.state.numIfaces) :
    (((optionsOf (lv.getOptions s.dropdown)).length : Int) = s.collector.state.numIfaces ∨
      lv.getOptions s.dropdown = CStr.empty) ↔ k = 0 ∨ k = s.collector.state.names.length := by
  have hlen := s.collector.state.names_length
  rw [h.empty_iff, h.options_length]
  omega

theorem Listing.all_iff (h : Listing lv s k) (hk : 0 < k) : optionsOf (lv.getOptions s.dropdown) =
    s.collector.state.names.map CharArray.bytes ↔ k = s.collector.state.names.length := by
  rw [h.optionsOf_pos hk]
  constructor
  · intro heq
    have hlength := congrArg List.length heq
    rwa [List.length_map, List.length_map, List.length_take, Nat.min_eq_left h.le] at hlength
  · rintro rfl
    rw [List.take_length]

/-- A row without a long history leaves the chart as it was. -/
theorem longChart_or_iff (c : Collector) {row : Int} (h0 : 0 ≤ row) (h8 : row < appMaxInterfaces)
    (chart : Option ChartCalls) : (longChart coord c row).or chart = longChart coord c row ↔
      0 < (c.longHistory row.toNat).count ∨ chart = none := by
  have hhist : netGetLongHistory c row = some (c.longHistory row.toNat) :=
    if_neg (not_or.mpr ⟨not_lt.mpr h0, not_le.mpr h8⟩)
  rw [longChart, hhist, Option.bind_some]
  by_cases hcount : 0 < (c.longHistory row.toNat).count
  · have hdraw : drawChart coord (c.longHistory row.toNat) = some _ := if_pos hcount
    rw [hdraw]
    exact iff_of_true rfl (.inl hcount)
  · have hdraw : drawChart coord (c.longHistory row.toNat) = none := if_neg hcount
    rw [hdraw, Option.none_or]
    exact ⟨.inr, fun h => h.resolve_left hcount⟩

/-- An update makes the selector current exactly when its row keeps up. -/
theorem Listing.current_iff (h : Listing lv s k) (hpos : 0 < s.collector.state.numIfaces) :
    SelectorCurrent lv coord (uiTrafficUpdate lv coord s) ↔ KeepsUp lv s s.selectedIface := by
  have hlen := s.collector.state.names_length
  obtain ⟨h0, hin⟩ := h.selected_mem hpos
  obtain ⟨s', hupdate, hcollector, hrow, hchart, hs'⟩ := h.update_eq coord hpos
  have hselected : (lv.getSelected s'.dropdown : Int) = s.selectedIface := hs'.selected.trans hrow
  have hlong := longChart_or_iff coord s.collector h0 (hin.trans_le h.table.count_le) s.chart
  have hoptions : optionsOf (lv.getOptions s'.dropdown) =
      s.collector.state.names.map CharArray.bytes ↔ k = 0 ∨ k = s.collector.state.names.length := by
    rw [← hcollector, hs'.all_iff (by split <;> omega)]
    by_cases hk : k = 0
    · simp only [hk, if_true, hcollector, true_or]
    · simp only [hk, if_false, false_or]
  rw [hupdate]
  constructor
  · intro hcurrent
    refine ⟨(h.listed_iff hpos).mpr (hoptions.mp ?_), hlong.mp ?_⟩
    · exact hcollector ▸ hcurrent.options
    · have hshown := hcurrent.chart
      simp only [showIface, hcollector, hrow, hchart, hselected] at hshown
      exact hshown
  · intro hkeeps
    refine ⟨?_, ?_, ?_, ?_⟩
    · simp only [showIface, hcollector]
      exact hoptions.mpr ((h.listed_iff hpos).mp hkeeps.listed)
    · simp only [showIface, hcollector, hselected]
      exact hin
    · simp only [showIface, hcollector, hrow, hselected]
    · simp only [showIface, hcollector, hrow, hchart, hselected]
      exact hlong.mpr hkeeps.drawn

/-! ## Runs -/

/-- Selecting an option selects its row. -/
theorem Listing.select (h : Listing lv s k) {i : Nat}
    (hi : i < (optionsOf (lv.getOptions s.dropdown)).length) :
    Listing lv { s with dropdown := lv.setSelected s.dropdown i, selectedIface := i } k := by
  have hselected := lv.selected_setSelected s.dropdown i hi
  refine ⟨h.table, h.le, ?_, congrArg Nat.cast hselected, ?_⟩
  · rw [lv.options_setSelected]
    exact h.options
  · rw [hselected, ← h.options_length]
    exact hi

/-- What has to keep up does not depend on the selection of the list. -/
theorem keepsUp_select (i : Nat) (row : Int) :
    KeepsUp lv { s with dropdown := lv.setSelected s.dropdown i, selectedIface := i } row ↔
      KeepsUp lv s row := by
  constructor
  · rintro ⟨hlisted, hdrawn⟩
    rw [lv.options_setSelected] at hlisted
    exact ⟨hlisted, hdrawn⟩
  · rintro ⟨hlisted, hdrawn⟩
    refine ⟨?_, hdrawn⟩
    rw [lv.options_setSelected]
    exact hlisted

theorem step_select {i : Nat} (hi : i < (optionsOf (lv.getOptions s.dropdown)).length) :
    (trafficScreen lv coord).step s (.select i) = uiTrafficUpdate lv coord
      { s with dropdown := lv.setSelected s.dropdown i, selectedIface := i } := by
  show (if _ then dropdownCb lv coord _ else s) = _
  rw [if_pos hi, dropdownCb, lv.selected_setSelected s.dropdown i hi]

theorem step_timer {current : ScreenId} (h : current = .traffic) :
    (trafficScreen lv coord).step s (.timer current) = uiTrafficUpdate lv coord s :=
  if_neg (not_not.mpr h)

/-- New rows leave the list alone. -/
theorem Listing.tick (h : Listing lv s k) {t : Tick} (ht : t.Named) :
    Listing lv { s with collector := collector.step s.collector t } k := by
  have hgrown := step_grown h.table ht
  obtain ⟨more, hmore⟩ := hgrown.front
  refine ⟨hgrown.toNamedTable, h.le.trans hgrown.front.length_le, ?_, h.selected, h.selected_lt⟩
  show (lv.getOptions s.dropdown).bytes = _
  rw [← hmore, List.take_append_of_le_length h.le]
  exact h.options

theorem uiTrafficUpdate_collector (s : TrafficScreen δ) :
    (uiTrafficUpdate lv coord s).collector = s.collector := by
  unfold uiTrafficUpdate
  by_cases hdiffers : nameDiffers lv s
  · simp only [if_pos hdiffers]
    split_ifs <;> rfl
  · simp only [if_neg hdiffers]
    split_ifs <;> rfl

/-- A list of some rows is never filled again, while the table grows. -/
theorem Listing.step (h : Listing lv s k) {e : TrafficEvent} (he : e.Named) :
    (∃ k', Listing lv ((trafficScreen lv coord).step s e) k' ∧ (0 < k → k' = k)) ∧
      s.collector.state.names <+: ((trafficScreen lv coord).step s e).collector.state.names := by
  have hkept : ∀ n, 0 < k → (if k = 0 then n else k) = k := fun n hk => if_neg hk.ne'
  cases e with
  | tick t => exact ⟨⟨k, h.tick he, fun _ => rfl⟩, (step_grown h.table he).front⟩
  | timer current =>
    by_cases hcurrent : current = .traffic
    · rw [step_timer coord hcurrent, uiTrafficUpdate_collector]
      exact ⟨⟨_, h.update coord, hkept _⟩, List.prefix_refl _⟩
    · have hidle : (trafficScreen lv coord).step s (.timer current) = s := if_pos hcurrent
      rw [hidle]
      exact ⟨⟨k, h, fun _ => rfl⟩, List.prefix_refl _⟩
  | select i =>
    by_cases hi : i < (optionsOf (lv.getOptions s.dropdown)).length
    · rw [step_select coord hi, uiTrafficUpdate_collector]
      exact ⟨⟨_, (h.select hi).update coord, hkept _⟩, List.prefix_refl _⟩
    · have hidle : (trafficScreen lv coord).step s (.select i) = s := if_neg hi
      rw [hidle]
      exact ⟨⟨k, h, fun _ => rfl⟩, List.prefix_refl _⟩

theorem Listing.currentAfter_iff (h : Listing lv s k) (e : TrafficEvent) :
    CurrentAfter lv coord s e ↔ KeepsUpBefore lv s e := by
  unfold CurrentAfter KeepsUpBefore
  cases e with
  | tick t => simp [updatedRow]
  | timer current =>
    by_cases hcurrent : current = .traffic
    · rw [updatedRow, if_pos hcurrent, step_timer coord hcurrent]
      simp only [Option.isSome_some, Option.mem_some_iff, forall_eq', forall_const]
      exact forall_congr' fun hpos => h.current_iff coord hpos
    · simp [updatedRow, hcurrent]
  | select i =>
    by_cases hi : i < (optionsOf (lv.getOptions s.dropdown)).length
    · rw [updatedRow, if_pos hi, step_select coord hi]
      simp only [Option.isSome_some, Option.mem_some_iff, forall_eq', forall_const]
      apply forall_congr'
      intro hpos
      rw [(h.select hi).current_iff coord hpos]
      exact keepsUp_select i i
    · simp [updatedRow, hi]

/-- The screen is created with the whole table in its list. -/
theorem create_listing {c : Collector} (hc : NamedTable c.state) :
    Listing lv (rebuildDropdown lv
      { collector := c, dropdown := lv.create, selectedIface := 0, totals := none, chart := none })
      c.state.names.length :=
  rebuild_listing hc le_rfl

/-- **The selector.** From its creation on, at any time of a running collector, the selector is
current behind every update with an interface exactly when at every one the row keeps up. -/
theorem selector_current_iff (lv : LvDropdown δ) (coord : ToCoord) (cfg : Config) {b : BootInput}
    (hb : ListsIfNames b.ifconf) {ticks : List Tick} (hticks : ∀ t ∈ ticks, t.Named)
    {events : List TrafficEvent} (hevents : ∀ e ∈ events, e.Named) :
    let s := uiTrafficCreate lv coord (collector.exec (netCollectorInit cfg b) ticks)
    (0 < s.collector.state.numIfaces → SelectorCurrent lv coord s) ∧
      ((trafficScreen lv coord).Along (CurrentAfter lv coord) s events ↔
        (trafficScreen lv coord).Along (KeepsUpBefore lv) s events) := by
  have hcreate := @create_listing _ lv _ (exec_named cfg hb hticks)
  refine ⟨fun hpos => ?_, ?_⟩
  · rw [uiTrafficCreate, uiTrafficUpdate_collector] at hpos
    exact (hcreate.current_iff coord hpos).mpr ⟨(hcreate.listed_iff hpos).mpr (.inr rfl), .inr rfl⟩
  · exact (trafficScreen lv coord).along_congr_of_inputs (I := fun s => ∃ k, Listing lv s k)
      (fun s e he hs _ => hs.elim fun k hk => (hk.step coord he).1.imp fun _ h => h.1)
      (fun s e _ hs => hs.elim fun k hk => hk.currentAfter_iff coord e)
      ⟨_, hcreate.update coord⟩ hevents

/-- The rows appended behind a list of some rows are never listed. -/
theorem Listing.never_current (h : Listing lv s k) (hk : 0 < k)
    (hgrown : k < s.collector.state.names.length) {events : List TrafficEvent}
    (hevents : ∀ e ∈ events, e.Named) (row : Int) :
    ¬ KeepsUp lv ((trafficScreen lv coord).exec s events) row := by
  have hrun := (trafficScreen lv coord).exec_inv_of_inputs
    (P := fun s => Listing lv s k ∧ k < s.collector.state.names.length) (A := TrafficEvent.Named)
    (fun s e he hs => ?_) ⟨h, hgrown⟩ hevents
  · intro hkeeps
    have hlen := NetState.names_length
      ((trafficScreen lv coord).exec s events).collector.state
    have hall := (hrun.1.listed_iff (by omega)).mp hkeeps.listed
    have hlt := hrun.2
    omega
  · obtain ⟨⟨k', hk', hsame⟩, hfront⟩ := hs.1.step coord he
    exact ⟨hsame hk ▸ hk', hs.2.trans_le hfront.length_le⟩

end Selector

/-! ## Small runs -/

/-- A list that keeps its text and an index. -/
def simpleDropdown : LvDropdown (CStr × Nat) where
  create := (CStr.lit "Option 1\nOption 2\nOption 3", 0)
  setOptions _ text := (text, 0)
  setSelected d i := (d.1, min i ((optionsOf d.1).length - 1))
  getOptions d := d.1
  getSelected d := d.2
  getSelectedStr d n := CStr.ofBytes (((optionsOf d.1)[d.2]?.getD []).take (n - 1))
  options_setOptions _ _ := rfl
  options_setSelected _ _ := rfl
  selected_setSelected d i hi := Nat.min_eq_left (by omega)
  selectedStr d n t ht := by
    rw [ht, Option.getD_some]
    apply CStr.ofBytes_of_nonul
    intro h0
    exact d.1.nonul (mem_of_mem_splitOn (List.mem_of_getElem? ht) (List.mem_of_mem_take h0))

/-- A slow tick that lists these devices. -/
def slowWith (names : List String) : Tick :=
  .slow ⟨some (names.map ifReqNamed), (true, 0), default, id⟩

theorem isIfName_of_all {name : IfaceName} (hne : name.bytes ≠ [])
    (hall : (name.bytes.all fun b => !isspace b) = true) : IsIfName name := by
  refine ⟨hne, fun b hb => ?_⟩
  have hb' := List.all_eq_true.mp hall b hb
  rwa [Bool.not_eq_true'] at hb'

theorem listsIfNames_map {names : List String} (h : ∀ n ∈ names, IsIfName (ifReqNamed n).name) :
    ListsIfNames (some (names.map ifReqNamed)) := by
  rintro reqs ⟨⟩ r hr
  obtain ⟨n, hn, rfl⟩ := List.mem_map.mp hr
  exact h n hn

theorem eth0_isIfName : IsIfName (ifReqNamed "eth0").name :=
  isIfName_of_all (List.cons_ne_nil _ _) rfl

theorem wlan0_isIfName : IsIfName (ifReqNamed "wlan0").name :=
  isIfName_of_all (List.cons_ne_nil _ _) rfl

theorem lists_eth0 : ListsIfNames (bootWith ["eth0"]).ifconf :=
  listsIfNames_map (List.forall_mem_singleton.mpr eth0_isIfName)

theorem slowWith_named : (slowWith ["eth0", "wlan0"]).Named :=
  listsIfNames_map (List.forall_mem_cons.mpr
    ⟨eth0_isIfName, List.forall_mem_singleton.mpr wlan0_isIfName⟩)

/-- The screen of a collector that starts without an interface. -/
def noIface : TrafficScreen (CStr × Nat) :=
  uiTrafficCreate simpleDropdown wrapCoord (netCollectorInit Config.empty (bootWith []))

/-- Two interfaces come, the list is filled, and the second one is selected. -/
def lateIfaces : List TrafficEvent :=
  [.tick (slowWith ["eth0", "wlan0"]), .timer .traffic, .select 1]

theorem lateIfaces_named : ∀ e ∈ lateIfaces, e.Named := by
  intro e he
  simp only [lateIfaces, List.mem_cons, List.not_mem_nil, or_false] at he
  rcases he with rfl | rfl | rfl
  · exact slowWith_named
  · trivial
  · trivial

/-- A list that was filled without rows becomes current, and the second row can be selected. -/
theorem selector_current_late :
    (trafficScreen simpleDropdown wrapCoord).Along (CurrentAfter simpleDropdown wrapCoord) noIface
        lateIfaces ∧
      SelectorCurrent simpleDropdown wrapCoord
        ((trafficScreen simpleDropdown wrapCoord).exec noIface lateIfaces) := by
  obtain ⟨-, hrun⟩ := selector_current_iff simpleDropdown wrapCoord Config.empty
    (b := bootWith []) (listsIfNames_map (List.forall_mem_nil _)) (List.forall_mem_nil _)
    lateIfaces_named
  have hempty : noIface.dropdown.1.bytes = [] := by decide +kernel
  let s := (trafficScreen simpleDropdown wrapCoord).exec noIface (lateIfaces.take 2)
  have hlisted : ((optionsOf s.dropdown.1).length : Int) = s.collector.state.numIfaces := by
    decide +kernel
  have hchart : s.chart = none := Option.isNone_iff_eq_none.mp (by decide +kernel)
  have hafter := hrun.mpr <| by
    refine ⟨?_, ?_, ?_, trivial⟩
    · rintro row hrow
      cases hrow
    · rintro row - -
      exact ⟨.inr (CStr.ext hempty), .inr rfl⟩
    · rintro row - -
      exact ⟨.inl hlisted, .inr hchart⟩
  exact ⟨hafter, hafter.2.2.1 (by decide +kernel) (by decide +kernel)⟩

/-- An interface that comes later is missing in the list. -/
theorem appended_not_listed : ¬ ∀ (lv : LvDropdown (CStr × Nat)) (coord : ToCoord) (cfg : Config)
    (b : BootInput) (ticks : List Tick) (events : List TrafficEvent), ListsIfNames b.ifconf →
      (∀ t ∈ ticks, t.Named) → (∀ e ∈ events, e.Named) →
      (trafficScreen lv coord).Along (CurrentAfter lv coord)
        (uiTrafficCreate lv coord (collector.exec (netCollectorInit cfg b) ticks)) events := by
  intro h
  have hnamed : ∀ e ∈ [TrafficEvent.tick (slowWith ["eth0", "wlan0"]), .timer .traffic],
      e.Named := List.forall_mem_cons.mpr ⟨slowWith_named, List.forall_mem_singleton.mpr trivial⟩
  have hafter := (h simpleDropdown wrapCoord Config.empty (bootWith ["eth0"]) [] _ lists_eth0
    (List.forall_mem_nil _) hnamed).2.1
  have hcurrent := hafter rfl (by decide +kernel)
  have hlength := congrArg List.length hcurrent.options
  revert hlength
  decide +kernel

end NetMon.Ui
