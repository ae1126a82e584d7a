import NetMon.Lib.Columns
import NetMon.Net.Kernel

/-!
# The parser of `/proc/net/dev`

`parse_proc_net_dev` writes the name of every line with a colon into the slot the next entry
goes to, before it knows whether the line counts. `parseProcNetDevInto` is that loop over the
caller's array; its entries are those of `parseProcNetDev` (`entries_into`), so nothing an
uncounted line left behind is read. A `ProcNetDev` is a text of well-formed and malformed rows,
`entries_procNetDev` says which of them are returned.
-/

namespace NetMon.Net

open NetMon.Lib

/-! ## The caller's array -/

/-- A `net_stats_t`, its name as the bytes of the array. -/
structure StatsSlot where
  name : Vector UInt8 16
  rxBytes : UInt64
  txBytes : UInt64
  rxPackets : UInt64
  txPackets : UInt64
  rxErrors : UInt64
  txErrors : UInt64
  rxDropped : UInt64
  txDropped : UInt64
  collisions : UInt64

namespace StatsSlot

/-- `slot.name` as a C string. -/
def str (s : StatsSlot) : CStr := CStr.ofBytes s.name.toList

/-- What a reader of the slot sees. -/
def net (s : StatsSlot) : NetStats where
  name := CharArray.copy 16 s.str
  rxBytes := s.rxBytes
  txBytes := s.txBytes
  rxPackets := s.rxPackets
  txPackets := s.txPackets
  rxErrors := s.rxErrors
  txErrors := s.txErrors
  rxDropped := s.rxDropped
  txDropped := s.txDropped
  collisions := s.collisions

theorem net_of_str {s : StatsSlot} {name : IfaceName} (h : s.str = name.str) : s.net =
    ⟨name, s.rxBytes, s.txBytes, s.rxPackets, s.txPackets, s.rxErrors, s.txErrors, s.rxDropped,
      s.txDropped, s.collisions⟩ := by
  rw [net, h, CharArray.copy_str]

/-- `memcpy` of the name and the NUL behind it; the rest of the array stays. -/
def setName (s : StatsSlot) (name : Bytes) : StatsSlot :=
  { s with name := Vector.ofFn fun i => (name ++ [0]).getD i s.name[i] }

/-- Old bytes behind the NUL are not read. -/
theorem str_setName (s : StatsSlot) {name : Bytes} (hlen : name.length ≤ 15) (hnul : 0 ∉ name) :
    (s.setName name).str.bytes = name := by
  have hfront : (s.setName name).name.toList.take (name.length + 1) = name ++ [0] := by
    apply List.ext_getElem (by simp; omega)
    intro i h h'
    simp only [setName, List.getElem_take, Vector.getElem_toList, Vector.getElem_ofFn]
    exact List.getD_eq_getElem _ _ h'
  have hwhole : (s.setName name).name.toList =
      name ++ 0 :: (s.setName name).name.toList.drop (name.length + 1) := by
    rw [List.append_cons, ← hfront, List.take_append_drop]
  unfold str CStr.ofBytes
  dsimp only
  rw [hwhole, List.takeWhile_append_of_pos fun b hb => by
    rw [bne_iff_ne]
    rintro rfl
    exact hnul hb]
  simp

end StatsSlot

/-- One line below the headers. -/
def devLineStep (line : Bytes) (stats : Nat → StatsSlot) (count : Nat) :
    (Nat → StatsSlot) × Nat :=
  match (CStr.ofBytes line).split colon with
  | none => (stats, count)
  | some (front, counters) =>
    let name := (front.bytes.dropWhile (· == 32)).take 15
    let stats := Function.update stats count ((stats count).setName name)
    if (stats count).str = CStr.lit "lo" then (stats, count)
    else match scanUnsigneds 64 16 counters.bytes with
      | some [rxBytes, rxPackets, rxErrs, rxDrop, _, _, _, _,
          txBytes, txPackets, txErrs, txDrop, _, txColls, _, _] =>
        (Function.update stats count { stats count with
          rxBytes := UInt64.ofNat rxBytes
          txBytes := UInt64.ofNat txBytes
          rxPackets := UInt64.ofNat rxPackets
          txPackets := UInt64.ofNat txPackets
          rxErrors := UInt64.ofNat rxErrs
          txErrors := UInt64.ofNat txErrs
          rxDropped := UInt64.ofNat rxDrop
          txDropped := UInt64.ofNat txDrop
          collisions := UInt64.ofNat txColls }, count + 1)
      | _ => (stats, count)

/-- The loop over the lines, which ends when the array is full. -/
def readDevLines (maxCount : Nat) : List Bytes → (Nat → StatsSlot) → Nat → (Nat → StatsSlot) × Nat
  | [], stats, count => (stats, count)
  | line :: lines, stats, count =>
    if count < maxCount then
      let (stats, count) := devLineStep line stats count
      readDevLines maxCount lines stats count
    else (stats, count)

/-- `parse_proc_net_dev`: the array it leaves and the number it returns. -/
def parseProcNetDevInto (file : Option Bytes) (maxCount : Nat) (stats : Nat → StatsSlot) :
    (Nat → StatsSlot) × Nat :=
  match file with
  | none => (stats, 0)
  | some text => readDevLines maxCount ((textLines 511 text).drop 2) stats 0

/-- The entries a caller reads. -/
def entries (r : (Nat → StatsSlot) × Nat) : List NetStats :=
  (List.range r.2).map fun i => (r.1 i).net

/-- The name in the slot is the one `parseDevLine` copies. -/
theorem slotName_eq (s : StatsSlot) (front : CStr) :
    (s.setName ((front.bytes.dropWhile (· == 32)).take 15)).str =
      (CharArray.copy 16 (CStr.ofBytes (front.bytes.dropWhile (· == 32)))).str := by
  have hnul : 0 ∉ front.bytes.dropWhile (· == 32) := fun h =>
    front.nonul ((List.dropWhile_sublist _).subset h)
  ext1
  rw [StatsSlot.str_setName s (List.length_take_le _ _) fun h => hnul (List.mem_of_mem_take h)]
  show _ = (CStr.ofBytes (front.bytes.dropWhile (· == 32))).bytes.take 15
  rw [CStr.ofBytes_of_nonul hnul]

/-- A line writes to the next slot alone, and what it leaves there counts exactly when the line
is an entry. -/
theorem devLineStep_spec (line : Bytes) (stats : Nat → StatsSlot) (count : Nat) :
    (∀ i ≠ count, (devLineStep line stats count).1 i = stats i) ∧
      match parseDevLine (CStr.ofBytes line) with
      | none => (devLineStep line stats count).2 = count
      | some st => (devLineStep line stats count).2 = count + 1 ∧
          ((devLineStep line stats count).1 count).net = st := by
  unfold devLineStep parseDevLine
  cases (CStr.ofBytes line).split colon with
  | none => exact ⟨fun _ _ => rfl, rfl⟩
  | some parts =>
    obtain ⟨front, counters⟩ := parts
    have hname := slotName_eq (stats count) front
    dsimp only
    rw [Function.update_self, hname]
    by_cases hlo : (CharArray.copy 16 (CStr.ofBytes (front.bytes.dropWhile (· == 32)))).str =
        CStr.lit "lo"
    · rw [if_pos hlo, if_pos hlo]
      exact ⟨fun i hi => Function.update_of_ne hi _ _, rfl⟩
    · rw [if_neg hlo, if_neg hlo]
      generalize scanUnsigneds 64 16 counters.bytes = values
      split
      · refine ⟨fun i hi => ?_, rfl, ?_⟩
        · dsimp only
          rw [Function.update_of_ne hi, Function.update_of_ne hi]
        · dsimp only
          rw [Function.update_self]
          exact StatsSlot.net_of_str hname
      · rename_i hnot
        split
        · exact ⟨fun i hi => Function.update_of_ne hi _ _, rfl⟩
        · rename_i heq
          simp at heq

/-- The entries below the next slot are never touched again. -/
theorem entries_congr {stats stats' : Nat → StatsSlot} {count : Nat}
    (h : ∀ i ≠ count, stats' i = stats i) : entries (stats', count) = entries (stats, count) :=
  List.map_congr_left fun i hi => by
    dsimp only
    rw [h i (List.mem_range.mp hi).ne]

theorem entries_succ (stats : Nat → StatsSlot) (count : Nat) :
    entries (stats, count + 1) = entries (stats, count) ++ [(stats count).net] := by
  rw [entries, List.range_succ, List.map_append]
  rfl

theorem entries_readDevLines {maxCount : Nat} (lines : List Bytes) (stats : Nat → StatsSlot)
    {count : Nat} (hcount : count ≤ maxCount) : entries (readDevLines maxCount lines stats count) =
      entries (stats, count) ++
        (lines.filterMap fun l => parseDevLine (CStr.ofBytes l)).take (maxCount - count) := by
  induction lines generalizing stats count with
  | nil => simp [readDevLines]
  | cons line lines ih =>
    rw [readDevLines]
    by_cases hroom : count < maxCount
    · rw [if_pos hroom]
      obtain ⟨hframe, hslot⟩ := devLineStep_spec line stats count
      dsimp only
      cases hline : parseDevLine (CStr.ofBytes line) with
      | none =>
        rw [hline] at hslot
        dsimp only at hslot
        rw [hslot, ih _ hcount, entries_congr hframe, List.filterMap_cons]
        simp only [hline]
      | some st =>
        rw [hline] at hslot
        dsimp only at hslot
        rw [hslot.1, ih _ hroom, entries_succ, hslot.2, entries_congr hframe, List.append_assoc,
          List.filterMap_cons, show maxCount - count = maxCount - (count + 1) + 1 by omega]
        simp only [hline]
        rfl
    · rw [if_neg hroom, show maxCount - count = 0 by omega, List.take_zero, List.append_nil]

/-- The loop over the array returns the rows of `parseProcNetDev`, whatever the array held. -/
theorem entries_into (file : Option Bytes) (maxCount : Nat) (stats : Nat → StatsSlot) :
    entries (parseProcNetDevInto file maxCount stats) = parseProcNetDev file maxCount := by
  unfold parseProcNetDevInto parseProcNetDev
  cases file with
  | none => rfl
  | some text => exact entries_readDevLines _ _ (Nat.zero_le maxCount)

/-! ## Rows -/

/-- A well-formed row: blanks, a name, a colon, sixteen numbers with blanks between them, and
what blanks stand behind them. -/
structure DevRow where
  indent : Nat
  name : IfaceName
  name_ne : name.bytes ≠ []
  name_colon : colon ∉ name.bytes
  name_blank : name.bytes.head? ≠ some 32
  counters : Fin 16 → Column 64
  separated : ∀ i, i ≠ 0 → (counters i).gap ≠ []
  trail : Bytes
  trail_blank : ∀ b ∈ trail, isspace b = true

namespace DevRow

/-- The numbers and the blanks around them. -/
def columns (r : DevRow) : Bytes := (List.ofFn r.counters).flatMap Column.text ++ r.trail

def text (r : DevRow) : Bytes :=
  List.replicate r.indent 32 ++ r.name.bytes ++ colon :: r.columns

/-- The number in a column. -/
def counter (r : DevRow) (i : Fin 16) : UInt64 := UInt64.ofNat (r.counters i).val

/-- The columns of `/proc/net/dev` are, for each direction, bytes, packets, errors, drops, fifo,
frame or collisions, compressed or carrier, multicast or compressed; eight to receive and eight
to transmit. -/
def stats (r : DevRow) : NetStats where
  name := r.name
  rxBytes := r.counter 0
  rxPackets := r.counter 1
  rxErrors := r.counter 2
  rxDropped := r.counter 3
  txBytes := r.counter 8
  txPackets := r.counter 9
  txErrors := r.counter 10
  txDropped := r.counter 11
  collisions := r.counter 13

theorem scan_columns (r : DevRow) : scanUnsigneds 64 16 r.columns =
    some (List.ofFn fun i => (r.counters i).val) := by
  have hsep : ∀ c ∈ (List.ofFn r.counters).tail, c.gap ≠ [] := by
    intro c hc
    rw [List.ofFn_succ, List.tail_cons, List.mem_ofFn] at hc
    obtain ⟨i, rfl⟩ := hc
    exact r.separated _ (Fin.succ_ne_zero i)
  have hscan := scanUnsigneds_columns hsep r.trail_blank
  rw [List.length_ofFn, List.map_ofFn] at hscan
  exact hscan

theorem columns_nonul (r : DevRow) : 0 ∉ r.columns := by
  rw [columns, List.mem_append, List.mem_flatMap]
  rintro (⟨c, -, hc⟩ | h)
  · rcases List.mem_append.mp hc with h | h
    · exact absurd (c.gap_blank 0 h) (by decide)
    · exact absurd (c.digits_digit 0 h) (by decide)
  · exact absurd (r.trail_blank 0 h) (by decide)

/-- The first colon of a row is the one behind its name. -/
theorem split_text (r : DevRow) : ∃ front counters, (CStr.ofBytes r.text).split colon =
    some (front, counters) ∧ front.bytes = List.replicate r.indent 32 ++ r.name.bytes ∧
      counters.bytes = r.columns := by
  have hfront : 0 ∉ List.replicate r.indent 32 ++ r.name.bytes := by
    rw [List.mem_append, not_or]
    exact ⟨fun h => absurd (List.eq_of_mem_replicate h) (by decide), r.name.str.nonul⟩
  have hcolon : colon ∉ List.replicate r.indent 32 ++ r.name.bytes := by
    rw [List.mem_append, not_or]
    exact ⟨fun h => absurd (List.eq_of_mem_replicate h) (by decide), r.name_colon⟩
  have hnul : 0 ∉ r.text := by
    rw [text, List.mem_append, List.mem_cons, not_or, not_or]
    exact ⟨hfront, by decide, r.columns_nonul⟩
  refine ⟨⟨_, hfront⟩, ⟨_, r.columns_nonul⟩, CStr.split_eq_some.mpr ⟨?_, hcolon⟩, rfl, rfl⟩
  rw [CStr.ofBytes_of_nonul hnul]
  rfl

/-- A well-formed row is an entry unless its name is `lo`. -/
theorem parse_text (r : DevRow) : parseDevLine (CStr.ofBytes r.text) =
    if r.name.str = CStr.lit "lo" then none else some r.stats := by
  obtain ⟨front, counters, hsplit, hfront, hcounters⟩ := r.split_text
  unfold parseDevLine
  rw [hsplit]
  dsimp only
  have hname : (CharArray.copy 16 (CStr.ofBytes (front.bytes.dropWhile (· == 32))) : IfaceName) =
      r.name := by
    have hvisible : r.name.bytes.dropWhile (· == 32) = r.name.bytes := by
      obtain ⟨b, l, hb⟩ := List.exists_cons_of_ne_nil r.name_ne
      have hblank := r.name_blank
      rw [hb] at hblank ⊢
      exact List.dropWhile_cons_of_neg fun h => hblank (congrArg some (eq_of_beq h))
    rw [hfront, List.dropWhile_append_of_pos fun b hb =>
      beq_iff_eq.mpr (List.eq_of_mem_replicate hb), hvisible]
    exact (congrArg _ (CStr.ofBytes_bytes r.name.str)).trans (CharArray.copy_str r.name)
  rw [hname, hcounters, r.scan_columns]
  rfl

end DevRow

/-- A malformed row: no colon, or fewer than sixteen numbers behind the first one. -/
def Malformed (l : Bytes) : Prop :=
  ∀ front rest, l = front ++ colon :: rest → colon ∉ front → ¬ LeadingNumbers 16 rest

/-- A malformed row is no entry. -/
theorem Malformed.parse {l : Bytes} (h : Malformed l) : parseDevLine (CStr.ofBytes l) = none := by
  unfold parseDevLine
  cases hsplit : (CStr.ofBytes l).split colon with
  | none => rfl
  | some parts =>
    obtain ⟨front, counters⟩ := parts
    obtain ⟨hbytes, hcolon⟩ := CStr.split_eq_some.mp hsplit
    have hl : l = front.bytes ++ colon :: (counters.bytes ++ l.dropWhile (· != 0)) := by
      rw [← List.cons_append, ← List.append_assoc, ← hbytes]
      exact List.takeWhile_append_dropWhile.symm
    -- a NUL in the row ends what is read of it, and is no digit
    have hscan : scanUnsigneds 64 16 counters.bytes = none := by
      rw [← Option.not_isSome_iff_eq_none, scanUnsigneds_isSome_iff]
      refine fun hnumbers => h _ _ hl hcolon (hnumbers.append fun b hb => ?_)
      have hnot := List.head?_dropWhile_not (· != 0) l
      rw [hb] at hnot
      have hzero : b = 0 := by simpa using hnot
      rw [hzero]
      rfl
    dsimp only
    rw [hscan, ite_self]

/-- The newline `fgets` leaves makes no row well-formed. -/
theorem Malformed.newline {l : Bytes} (h : Malformed l) : Malformed (l ++ [newline]) := by
  intro front rest hl hcolon hnumbers
  rcases List.eq_nil_or_concat rest with rfl | ⟨rest, b, rfl⟩
  · exact absurd (List.append_inj' hl rfl).2 (by decide)
  · rw [List.concat_eq_append] at hl hnumbers
    rw [← List.cons_append, ← List.append_assoc] at hl
    obtain ⟨rfl, hb⟩ := List.append_inj' hl rfl
    refine h front rest rfl hcolon (LeadingNumbers.of_concat (b := b) ?_ hnumbers)
    rw [← List.singleton_inj.mp hb]
    rfl

/-- A row of either kind. -/
inductive Row where
  | good (r : DevRow)
  | bad (l : Bytes) (h : Malformed l)

namespace Row

def text : Row → Bytes
  | .good r => r.text
  | .bad l _ => l

/-- The entry of a well-formed row that is not `lo`'s. -/
def entry : Row → Option NetStats
  | .good r => if r.name.str = CStr.lit "lo" then none else some r.stats
  | .bad _ _ => none

theorem parse_text (r : Row) : parseDevLine (CStr.ofBytes r.text) = r.entry := by
  cases r with
  | good r => exact r.parse_text
  | bad l h => exact h.parse

/-- The newline is one more blank behind a row. -/
theorem parse_line (r : Row) : parseDevLine (CStr.ofBytes (r.text ++ [newline])) = r.entry := by
  cases r with
  | good r =>
    let r' : DevRow := { r with
      trail := r.trail ++ [newline]
      trail_blank := fun b hb => (List.mem_append.mp hb).elim (r.trail_blank b) fun h => by
        rw [List.mem_singleton.mp h]
        rfl }
    have htext : r.text ++ [newline] = r'.text := by
      simp only [DevRow.text, DevRow.columns, List.append_assoc, List.cons_append, r']
    exact (congrArg (fun l => parseDevLine (CStr.ofBytes l)) htext).trans r'.parse_text
  | bad l h => exact h.newline.parse

end Row

/-- A text of `/proc/net/dev`: two header lines and rows, the last of them without a newline. -/
structure ProcNetDev where
  header₁ : Bytes
  header₂ : Bytes
  rows : List Row
  last : Row
  fits : ∀ l ∈ header₁ :: header₂ :: (rows ++ [last]).map Row.text,
    newline ∉ l ∧ l.length < 511

def ProcNetDev.text (f : ProcNetDev) : Bytes :=
  unlines (f.header₁ :: f.header₂ :: f.rows.map Row.text) f.last.text

/-- The parser returns the first `maxCount` well-formed rows other than `lo`, in order, each with
its own name and counters, whatever the array held before. -/
theorem entries_procNetDev (f : ProcNetDev) (maxCount : Nat) (stats : Nat → StatsSlot) :
    entries (parseProcNetDevInto (some f.text) maxCount stats) =
      ((f.rows ++ [f.last]).filterMap Row.entry).take maxCount := by
  have hfits := f.fits
  rw [List.map_append, ← List.cons_append, ← List.cons_append, List.forall_mem_append] at hfits
  obtain ⟨hlast, hlen⟩ := hfits.2 f.last.text (by simp)
  have hrows : ((f.rows.map Row.text).map fun l => l ++ [newline]).filterMap
      (fun l => parseDevLine (CStr.ofBytes l)) = f.rows.filterMap Row.entry := by
    rw [List.filterMap_map, List.filterMap_map]
    exact List.filterMap_congr fun r _ => r.parse_line
  -- an empty rest behind the last newline is no line and no entry
  have hend : (if f.last.text = [] then [] else [f.last.text]).filterMap
      (fun l => parseDevLine (CStr.ofBytes l)) = [f.last].filterMap Row.entry := by
    rw [List.filterMap_cons, List.filterMap_nil, ← f.last.parse_text]
    split
    · rename_i hnil
      rw [hnil]
      rfl
    · rfl
  rw [entries_into, parseProcNetDev, ProcNetDev.text,
    textLines_unlines (by decide) hfits.1 hlast hlen.le, List.filterMap_append, ← hrows, ← hend,
    ← List.filterMap_append]
  rfl

/-- A row whose numbers run out is malformed. -/
theorem malformed_of_short {front rest : Bytes} (hcolon : colon ∉ front)
    (hshort : ¬ LeadingNumbers 16 rest) : Malformed (front ++ colon :: rest) := by
  intro front' rest' hl hcolon'
  have hfront : ∀ {l t : Bytes}, colon ∉ l →
      (l ++ colon :: t).takeWhile (· != colon) = l := fun h => by
    rw [List.takeWhile_append_of_pos fun b hb => bne_iff_ne.mpr (ne_of_mem_of_not_mem hb h)]
    simp
  have heq : front = front' := by
    rw [← hfront hcolon (t := rest), hl, hfront hcolon']
  subst heq
  rw [← (List.cons_inj_right _).mp (List.append_cancel_left hl)]
  exact hshort

/-! ## A text -/

/-- A counter behind one blank. -/
def printedCounter (v : UInt64) : Column 64 where
  gap := [32]
  digits := decimal v.toNat
  gap_blank := List.forall_mem_singleton.mpr rfl
  digits_digit := isdigit_decimal _
  digits_ne := decimal_ne_nil _
  small := by
    rw [digitsVal_decimal]
    exact v.toNat_lt

/-- A device's row, its name behind `indent` blanks. -/
def printedRow (indent : Nat) (name : IfaceName) (values : List UInt64)
    (h : name.bytes ≠ [] ∧ colon ∉ name.bytes ∧ name.bytes.head? ≠ some 32) : DevRow where
  indent := indent
  name := name
  name_ne := h.1
  name_colon := h.2.1
  name_blank := h.2.2
  counters i := printedCounter (values.getD i 0)
  separated _ _ := List.cons_ne_nil _ _
  trail := []
  trail_blank := by simp

/-- Two devices besides `lo`, and one whose row breaks off. -/
def bootProcNetDev : ProcNetDev where
  header₁ := CStr.chars "Inter-|   Receive  |  Transmit"
  header₂ := CStr.chars " face |bytes packets|bytes packets"
  rows := [
    .good (printedRow 4 (CharArray.copy 16 (CStr.lit "lo"))
      [7, 7, 0, 0, 0, 0, 0, 0, 7, 7, 0, 0, 0, 0, 0, 0] (by decide +kernel)),
    .bad (CStr.chars "  usb0" ++ colon :: CStr.chars " 5") (malformed_of_short (by decide +kernel)
      (mt (scanUnsigneds_isSome_iff (w := 64)).mpr (by decide +kernel))),
    .good (printedRow 2 (CharArray.copy 16 (CStr.lit "eth0"))
      [90, 1, 2, 3, 0, 0, 0, 0, 80, 4, 5, 6, 0, 7, 0, 0] (by decide +kernel)),
    .good (printedRow 1 (CharArray.copy 16 (CStr.lit "wlan0"))
      [60, 2, 0, 0, 0, 0, 0, 0, 50, 1, 0, 0, 0, 0, 0, 0] (by decide +kernel))]
  last := .bad [] fun front rest h => by simp at h
  fits := by decide +kernel

example : (parseProcNetDev (some bootProcNetDev.text) 8).map
      (fun st => (st.name.bytes, st.rxBytes, st.txBytes, st.collisions)) =
    [(CStr.chars "eth0", 90, 80, 7), (CStr.chars "wlan0", 60, 50, 0)] := by decide +kernel

end NetMon.Net
