import Mathlib.Data.List.Chain
import Mathlib.Data.List.Nodup
import NetMon.Api.Json
import NetMon.Net.Collector

/-!
# The interface cards of the dashboard

`ui_dashboard.c` has a card for each interface that is not hidden. A card keeps the table
index of its interface for the tap callback, and the refresh loop shows table row `i` and
history `i` on card `i`. The two agree exactly while no hidden interface stands before a
visible one (`cardsRight_iff`).
-/

namespace NetMon.Ui

open NetMon.Lib NetMon.Net NetMon.Api

/-- The colours of `ui_set_status_led`. -/
inductive Led where
  | red | green | yellow
  deriving DecidableEq

/-- `iface_card_t`: the tap's index, the label texts, and what the rate labels and the
chart were last given. -/
structure IfaceCard where
  ifaceIdx : Nat
  lblName : CStr
  lblIp : CStr
  led : Led
  rxRate : ℚ
  txRate : ℚ
  chart : List NetHistorySample

/-- What the dashboard reads: `g_state` and the short histories, which samples are only pushed
to. -/
structure DashInput where
  state : NetState
  shortHistory : Nat → Ring NetHistorySample 60
  packed : ∀ i, (shortHistory i).Packed

/-- `g_cards` -/
structure Dashboard where
  cards : List IfaceCard

def hiddenIfacePrefixes : List CStr := [CStr.lit "usb"]

def netIfaceIsHidden (name : CStr) : Bool :=
  hiddenIfacePrefixes.any fun p => p.bytes.isPrefixOf name.bytes

/-- The interface of table row `i` is not hidden. -/
def rowShown (s : NetState) (i : Nat) : Bool := !netIfaceIsHidden (s.ifaces i).info.name.str

/-- The rows `for (i = 0; i < num_ifaces && i < APP_MAX_INTERFACES; i++)` visits. -/
def tableRows (s : NetState) : List Nat := List.range (min s.numIfaces.toNat appMaxInterfaces)

/-! ## Building the cards -/

def createIfaceCard (idx : Nat) : IfaceCard where
  ifaceIdx := idx
  lblName := CStr.lit "---"
  lblIp := CStr.empty
  led := .red
  rxRate := 0
  txRate := 0
  chart := []

/-- The search for the visible interface number `want`, `seen` of them being behind; the
index stays 0 when there is none. -/
def findShown (s : NetState) (want : Nat) : List Nat → Nat → Nat
  | [], _ => 0
  | i :: is, seen =>
    if rowShown s i then if seen = want then i else findShown s want is (seen + 1)
    else findShown s want is seen

/-- The growth loop: at most eight turns, since there are at most eight cards. -/
def addCards (s : NetState) (visibleCount : Nat) : Nat → List IfaceCard → List IfaceCard
  | 0, cards => cards
  | turns + 1, cards =>
    if cards.length < visibleCount ∧ cards.length < appMaxInterfaces then
      let idx := findShown s cards.length (List.range s.numIfaces.toNat) 0
      addCards s visibleCount turns (cards ++ [createIfaceCard idx])
    else cards

/-! ## Refreshing them -/

/-- The body of the refresh loop. -/
def refreshCard (input : DashInput) (i : Nat) (card : IfaceCard) : IfaceCard :=
  let iface := input.state.ifaces i
  let hist := input.shortHistory i
  { card with
    lblName := iface.info.name.str
    lblIp := if iface.info.ipAddr ≠ 0 then formatIp iface.info.ipAddr else CStr.lit "No IP"
    led := if iface.info.isUp && iface.info.isRunning then .green
      else if iface.info.isUp then .yellow else .red
    rxRate := iface.rates.rxBytesPerSec
    txRate := iface.rates.txBytesPerSec
    chart := if hist.count > 0 then hist.walk else card.chart }

def uiDashboardUpdate (d : Dashboard) (input : DashInput) : Dashboard :=
  let visibleCount := (tableRows input.state).countP (rowShown input.state)
  let cards := addCards input.state visibleCount appMaxInterfaces d.cards
  ⟨cards.mapIdx (refreshCard input)⟩

def uiDashboardCreate (input : DashInput) : Dashboard :=
  let shown := (tableRows input.state).filter (rowShown input.state)
  uiDashboardUpdate ⟨shown.map createIfaceCard⟩ input

/-- The dashboard under its refreshes. -/
def dashboard : Machine Dashboard DashInput Unit where
  step := uiDashboardUpdate
  out _ _ := []

/-! ## What the cards should show -/

/-- The rows of the interfaces that are not hidden. -/
def visible (s : NetState) : List Nat := (tableRows s).filter (rowShown s)

/-- The card shows the data of row `j`: name, address, the colour for its state, both rates, and,
once it has samples, its short history from the oldest to the newest. -/
structure IfaceCard.ShowsRow (card : IfaceCard) (input : DashInput) (j : Nat) : Prop where
  name : card.lblName = (input.state.ifaces j).info.name.str
  noIp : (input.state.ifaces j).info.ipAddr = 0 → card.lblIp = CStr.lit "No IP"
  ip : (input.state.ifaces j).info.ipAddr ≠ 0 →
    card.lblIp = formatIp (input.state.ifaces j).info.ipAddr
  green : card.led = .green ↔
    (input.state.ifaces j).info.isUp = true ∧ (input.state.ifaces j).info.isRunning = true
  red : card.led = .red ↔ (input.state.ifaces j).info.isUp = false
  rxRate : card.rxRate = (input.state.ifaces j).rates.rxBytesPerSec
  txRate : card.txRate = (input.state.ifaces j).rates.txBytesPerSec
  chart : 0 < (input.shortHistory j).count → card.chart = (input.shortHistory j).recent

/-- Card number `k` shows the `k`-th visible interface and opens it, and no card shows a
hidden one. -/
structure CardsRight (d : Dashboard) (input : DashInput) : Prop where
  count : d.cards.length = (visible input.state).length
  card : ∀ (k : Nat) (c : IfaceCard), d.cards[k]? = some c →
    ∃ j, (visible input.state)[k]? = some j ∧ c.ifaceIdx = j ∧ c.ShowsRow input j
  unhidden : ∀ c ∈ d.cards, netIfaceIsHidden c.lblName = false

/-- No hidden interface stands before a visible one. -/
def HiddenLast (s : NetState) : Prop :=
  ∀ j ∈ visible s, ∀ i < j, rowShown s i = true

/-! ## Where the visible rows stand -/

section Range

variable {p : Nat → Bool}

/-- What a filter keeps of a range is an initial part of it when nothing is dropped before
something kept. -/
theorem filter_range_initial {m : Nat} (h : ∀ j < m, p j = true → ∀ i < j, p i = true) :
    (List.range m).filter p = List.range ((List.range m).filter p).length := by
  induction m with
  | zero => rfl
  | succ m ih =>
    cases hm : p m with
    | true =>
      have hall : (List.range (m + 1)).filter p = List.range (m + 1) := by
        apply List.filter_eq_self.mpr
        intro i hi
        rcases Nat.lt_succ_iff_lt_or_eq.mp (List.mem_range.mp hi) with hlt | rfl
        · exact h m (Nat.lt_succ_self m) hm i hlt
        · exact hm
      rw [hall, List.length_range]
    | false =>
      have hlast : (List.range (m + 1)).filter p = (List.range m).filter p := by
        rw [List.range_succ, List.filter_append, List.filter_singleton, hm]
        exact List.append_nil _
      rw [hlast]
      exact ih fun j hj => h j (Nat.lt_succ_of_lt hj)

/-- When as many of the first numbers are kept as there are kept at all, those are all. -/
theorem before_kept {m : Nat} (h : ∀ i < ((List.range m).filter p).length, p i = true) {j : Nat}
    (hj : j ∈ (List.range m).filter p) : ∀ i < j, p i = true := by
  have hlen : ((List.range m).filter p).length ≤ m :=
    (List.length_filter_le _ _).trans_eq List.length_range
  have hsub : List.range ((List.range m).filter p).length ⊆ (List.range m).filter p := by
    intro i hi
    rw [List.mem_range] at hi
    exact List.mem_filter.mpr ⟨List.mem_range.mpr (hi.trans_le hlen), h i hi⟩
  have hperm := (List.subperm_of_subset List.nodup_range hsub).perm_of_length_le
    List.length_range.ge
  have hlt : j < ((List.range m).filter p).length := List.mem_range.mp (hperm.mem_iff.mpr hj)
  exact fun i hi => h i (hi.trans hlt)

end Range

/-- Then the visible interfaces are the first rows. -/
theorem HiddenLast.eq_range {s : NetState} (h : HiddenLast s) :
    visible s = List.range (visible s).length :=
  filter_range_initial fun j hj hshown =>
    h j (List.mem_filter.mpr ⟨List.mem_range.mpr hj, hshown⟩)

theorem hiddenLast_iff {s : NetState} :
    HiddenLast s ↔ ∀ k < (visible s).length, rowShown s k = true := by
  constructor
  · intro h k hk
    have hmem : k ∈ visible s := by
      rw [h.eq_range]
      exact List.mem_range.mpr hk
    exact (List.mem_filter.mp hmem).2
  · exact fun h j hj => before_kept h hj

/-! ## The indices of the cards -/

theorem findShown_eq (s : NetState) {want : Nat} (is : List Nat) {seen : Nat} (h : seen ≤ want) :
    findShown s want is seen = ((is.filter (rowShown s))[want - seen]?).getD 0 := by
  induction is generalizing seen with
  | nil => rfl
  | cons i is ih =>
    unfold findShown
    cases hi : rowShown s i with
    | false => rw [if_neg Bool.false_ne_true, List.filter_cons_of_neg (by simp [hi]), ih h]
    | true =>
      rw [if_pos rfl, List.filter_cons_of_pos hi]
      by_cases heq : seen = want
      · rw [if_pos heq, heq, Nat.sub_self]
        rfl
      · rw [if_neg heq, ih (by omega), show want - seen = want - (seen + 1) + 1 by omega,
          List.getElem?_cons_succ]

/-- The table's first eight rows are all the growth loop's search needs. -/
theorem visible_prefix_rows (s : NetState) :
    visible s <+: (List.range s.numIfaces.toNat).filter (rowShown s) := by
  obtain ⟨d, hd⟩ := Nat.exists_eq_add_of_le (Nat.min_le_left s.numIfaces.toNat appMaxInterfaces)
  rw [visible, tableRows]
  conv_rhs => rw [hd, List.range_add, List.filter_append]
  exact List.prefix_append _ _

/-- A growing table keeps its visible interfaces in front. -/
theorem visible_prefix_of_grows {s s' : NetState} (h : Grows s s') : visible s <+: visible s' := by
  have hle : min s.numIfaces.toNat appMaxInterfaces ≤ min s'.numIfaces.toNat appMaxInterfaces := by
    have := h.numIfaces
    omega
  obtain ⟨d, hd⟩ := Nat.exists_eq_add_of_le hle
  have hsame : visible s = (tableRows s).filter (rowShown s') := by
    apply List.filter_congr
    intro i hi
    rw [tableRows, List.mem_range] at hi
    unfold rowShown
    rw [h.name i (by omega)]
  rw [hsame, visible, tableRows, tableRows, hd, List.range_add, List.filter_append]
  exact List.prefix_append _ _

theorem visible_length_le (s : NetState) : (visible s).length ≤ appMaxInterfaces := by
  apply (List.length_filter_le _ _).trans
  rw [tableRows, List.length_range]
  exact min_le_right _ _

/-- The growth loop goes on until every visible interface has its card. -/
theorem addCards_idx {s : NetState} {turns : Nat} {cards : List IfaceCard} {rest : List Nat}
    (hrest : cards.map (·.ifaceIdx) ++ rest = visible s) (hturns : rest.length ≤ turns) :
    (addCards s (visible s).length turns cards).map (·.ifaceIdx) = visible s := by
  have hlen : cards.length + rest.length = (visible s).length := by
    rw [← hrest, List.length_append, List.length_map]
  induction turns generalizing cards rest with
  | zero =>
    rw [← hrest, List.eq_nil_of_length_eq_zero (Nat.le_zero.mp hturns), List.append_nil]
    rfl
  | succ turns ih =>
    have height := visible_length_le s
    cases rest with
    | nil =>
      rw [List.length_nil, Nat.add_zero] at hlen
      rw [addCards, if_neg (by omega), ← hrest, List.append_nil]
    | cons j rest =>
      rw [List.length_cons] at hlen hturns
      obtain ⟨hidden, hrows⟩ := visible_prefix_rows s
      have hnext : findShown s cards.length (List.range s.numIfaces.toNat) 0 = j := by
        rw [findShown_eq s _ (Nat.zero_le _), ← hrows, ← hrest, Nat.sub_zero, List.append_assoc,
          List.getElem?_append_right (by rw [List.length_map]), List.length_map, Nat.sub_self]
        rfl
      have hgrown : (cards ++ [createIfaceCard j]).map (·.ifaceIdx) ++ rest = visible s := by
        rw [← hrest, List.map_append, List.map_singleton, List.append_assoc]
        rfl
      rw [addCards, if_pos ⟨by omega, by omega⟩, hnext]
      apply ih hgrown (by omega)
      rw [List.length_append, List.length_singleton]
      omega

/-- What an update leaves: card number `k` opens the `k`-th visible interface and shows
table row `k`. -/
structure Refreshed (d : Dashboard) (input : DashInput) : Prop where
  idx : d.cards.map (·.ifaceIdx) = visible input.state
  shows : ∀ (k : Nat) (c : IfaceCard), d.cards[k]? = some c → c.ShowsRow input k

theorem uiDashboardUpdate_idx {d : Dashboard} {input : DashInput}
    (hpre : d.cards.map (·.ifaceIdx) <+: visible input.state) :
    (uiDashboardUpdate d input).cards.map (·.ifaceIdx) = visible input.state := by
  obtain ⟨rest, hrest⟩ := hpre
  have hcount : (tableRows input.state).countP (rowShown input.state) =
      (visible input.state).length := List.countP_eq_length_filter
  have hturns : rest.length ≤ appMaxInterfaces := by
    have := visible_length_le input.state
    rw [← hrest, List.length_append] at this
    omega
  rw [← addCards_idx hrest hturns]
  unfold uiDashboardUpdate
  simp only [hcount]
  apply List.ext_getElem (by simp)
  intro k h1 h2
  simp [refreshCard]

/-- The colour is green for a running interface and red for one that is down. -/
theorem led_iff (up running : Bool) :
    ((if up && running then Led.green else if up then .yellow else .red) = .green ↔
        up = true ∧ running = true) ∧
      ((if up && running then Led.green else if up then .yellow else .red) = .red ↔
        up = false) := by
  revert up running
  decide

theorem refreshCard_shows (input : DashInput) (k : Nat) (card : IfaceCard) :
    (refreshCard input k card).ShowsRow input k where
  name := rfl
  noIp h := by
    rw [refreshCard]
    exact if_neg (not_not.mpr h)
  ip h := if_pos h
  green := (led_iff _ _).1
  red := (led_iff _ _).2
  rxRate := rfl
  txRate := rfl
  chart h := (if_pos h).trans (input.packed k).walk_eq

theorem uiDashboardUpdate_shows {d : Dashboard} {input : DashInput} {k : Nat} {c : IfaceCard}
    (h : (uiDashboardUpdate d input).cards[k]? = some c) : c.ShowsRow input k := by
  unfold uiDashboardUpdate at h
  simp only [List.getElem?_mapIdx, Option.map_eq_some_iff] at h
  obtain ⟨c0, -, rfl⟩ := h
  exact refreshCard_shows input k c0

theorem uiDashboardUpdate_refreshed {d : Dashboard} {input : DashInput}
    (hpre : d.cards.map (·.ifaceIdx) <+: visible input.state) :
    Refreshed (uiDashboardUpdate d input) input :=
  ⟨uiDashboardUpdate_idx hpre, fun _ _ h => uiDashboardUpdate_shows h⟩

/-! ## Runs -/

/-- The dashboard after its creation over the first table and updates over the later ones. -/
def dashboardAfter (first : DashInput) (later : List DashInput) : Dashboard :=
  dashboard.exec (uiDashboardCreate first) later

theorem uiDashboardCreate_refreshed (input : DashInput) :
    Refreshed (uiDashboardCreate input) input := by
  apply uiDashboardUpdate_refreshed
  rw [List.map_map]
  exact (List.map_id _).symm ▸ List.prefix_rfl

/-- As the table grows every update leaves the cards so. -/
theorem exec_refreshed {input : DashInput} {later : List DashInput} {d : Dashboard}
    (hd : Refreshed d input) (hgrow : ((input :: later).map (·.state)).IsChain Grows) :
    Refreshed (dashboard.exec d later) (later.getLastD input) := by
  induction later generalizing input d with
  | nil => exact hd
  | cons next later ih =>
    rw [List.map_cons, List.map_cons, List.isChain_cons_cons] at hgrow
    have hpre : d.cards.map (·.ifaceIdx) <+: visible next.state :=
      hd.idx ▸ visible_prefix_of_grows hgrow.1
    rw [List.getLastD_cons]
    exact ih (uiDashboardUpdate_refreshed hpre) hgrow.2

/-- The cards are right exactly when the rows they show are those they open. -/
theorem Refreshed.right_iff {d : Dashboard} {input : DashInput} (h : Refreshed d input) :
    CardsRight d input ↔ HiddenLast input.state := by
  have hlen : d.cards.length = (visible input.state).length := by
    rw [← h.idx, List.length_map]
  rw [hiddenLast_iff]
  constructor
  · intro hright k hk
    obtain ⟨c, hc⟩ : ∃ c, d.cards[k]? = some c :=
      ⟨_, List.getElem?_eq_getElem (hk.trans_eq hlen.symm)⟩
    have hname := hright.unhidden c (List.mem_of_getElem? hc)
    rw [(h.shows k c hc).name] at hname
    rw [rowShown, hname]
    rfl
  · intro hshown
    have hrange := (hiddenLast_iff.mpr hshown).eq_range
    refine ⟨hlen, fun k c hc => ?_, fun c hc => ?_⟩
    · have hk : k < (visible input.state).length := by
        rw [← hlen]
        exact (List.getElem?_eq_some_iff.mp hc).1
      have hidx : (visible input.state)[k]? = some c.ifaceIdx := by
        rw [← h.idx, List.getElem?_map, hc]
        rfl
      have hrow : (visible input.state)[k]? = some k := by rw [hrange, List.getElem?_range hk]
      exact ⟨k, hrow, Option.some.inj (hidx.symm.trans hrow), h.shows k c hc⟩
    · obtain ⟨k, hk, rfl⟩ := List.getElem_of_mem hc
      have hname := (h.shows k _ (List.getElem?_eq_getElem hk)).name
      have hrow := hshown k (hk.trans_eq hlen)
      rw [hname]
      simpa [rowShown] using hrow

/-- **The right cards.** Over a growing table, after the creation and after every update,
card number `k` shows the `k`-th visible interface and opens it, and no hidden one is shown,
exactly when no hidden interface stands before a visible one. -/
theorem cardsRight_iff (first : DashInput) (later : List DashInput)
    (hgrow : ((first :: later).map (·.state)).IsChain Grows) :
    CardsRight (dashboardAfter first later) (later.getLastD first) ↔
      HiddenLast (later.getLastD first).state :=
  (exec_refreshed (uiDashboardCreate_refreshed first) hgrow).right_iff

/-- A table of running interfaces with these names, and histories without samples. -/
def tableOf (names : List String) : DashInput where
  state := (netCollectorInit Core.Config.empty ⟨some (names.map ifReqNamed), none, ⟨0, 0⟩⟩).state
  shortHistory := fun _ => Ring.fresh default shortHistory_pos
  packed := fun _ => Ring.fresh_packed default shortHistory_pos

/-- With the hidden interface behind the others the cards are right. -/
theorem usb_last_right : CardsRight (dashboardAfter (tableOf ["eth0", "usb0"]) [])
    (tableOf ["eth0", "usb0"]) :=
  (cardsRight_iff (tableOf ["eth0", "usb0"]) [] (.singleton _)).mpr (by
    have hvisible : visible (tableOf ["eth0", "usb0"]).state = [0] := by decide +kernel
    intro j hj i hi
    have hj0 : j ∈ visible (tableOf ["eth0", "usb0"]).state := hj
    rw [hvisible, List.mem_singleton] at hj0
    omega)

/-- With `usb0` in front, the card that opens `eth0` shows `usb0`. -/
theorem usb_first_wrong :
    let d := dashboardAfter (tableOf ["usb0", "eth0"]) []
    d.cards.map (·.ifaceIdx) = [1] ∧ d.cards.map (·.lblName) = [CStr.lit "usb0"] ∧
      ¬ CardsRight d (tableOf ["usb0", "eth0"]) := by
  have hname : (dashboardAfter (tableOf ["usb0", "eth0"]) []).cards.map (·.lblName) =
      [CStr.lit "usb0"] := by decide +kernel
  refine ⟨by decide +kernel, hname, fun h => ?_⟩
  obtain ⟨c, hc, heq⟩ : ∃ c ∈ (dashboardAfter (tableOf ["usb0", "eth0"]) []).cards,
      c.lblName = CStr.lit "usb0" := by
    have hmem : CStr.lit "usb0" ∈
        (dashboardAfter (tableOf ["usb0", "eth0"]) []).cards.map (·.lblName) := by
      rw [hname]
      exact List.mem_singleton_self _
    exact List.mem_map.mp hmem
  have hhidden := h.unhidden c hc
  rw [heq] at hhidden
  exact absurd hhidden (by decide)

end NetMon.Ui
