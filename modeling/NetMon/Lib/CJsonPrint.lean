import Mathlib.Algebra.BigOperators.Group.List.Basic
import NetMon.Lib.CJson
import NetMon.Lib.Decimal

/-!
# Printing cJSON documents

`cJSON_PrintUnformatted`. The text is NULL for a document nested too deep. `CJson.width`
is its length (`printUnformatted_length`), and it has no control characters
(`printUnformatted_visible`).
-/

namespace NetMon.Lib

namespace CJson

/-! ## Strings -/

/-- A digit of `%x`. -/
def hexByte (n : Nat) : UInt8 := UInt8.ofNat (if n < 10 then 48 + n else 87 + n)

/-- The letter behind the backslash, for the characters that have one. -/
def escapeLetter (b : UInt8) : Option UInt8 :=
  if b = 92 then some 92
  else if b = 34 then some 34
  else if b = 8 then some 98
  else if b = 12 then some 102
  else if b = 10 then some 110
  else if b = 13 then some 114
  else if b = 9 then some 116
  else none

/-- How a character is printed; `%04x` of a byte starts with two zeros. -/
def escapeByte (b : UInt8) : Bytes :=
  if 31 < b ∧ b ≠ 34 ∧ b ≠ 92 then [b]
  else
    match escapeLetter b with
    | some c => [92, c]
    | none => [92, 117, 48, 48, hexByte (b.toNat / 16), hexByte (b.toNat % 16)]

/-- `print_string_ptr` -/
def printString (s : CStr) : Bytes := 34 :: (s.bytes.flatMap escapeByte ++ [34])

/-! ## Numbers -/

def compareDouble (a b : ℚ) : Bool := |a - b| ≤ max |a| |b| * 2 ^ (-52 : Int)

/-- `item->valueint` of a number: saturated. -/
def valueint (d : ℚ) : Int :=
  if 2147483647 ≤ d then 2147483647 else if d ≤ -2147483648 then -2147483648 else trunc d

/-- `print_number`: 15 digits where they read back as the number. -/
def printNumber (v : ℚ) : Numeral :=
  let d := toDouble v
  if d = valueint d then Numeral.ofInt (valueint d)
  else
    match strtod (formatG 15 d).bytes with
    | some (test, _) => if compareDouble test d then formatG 15 d else formatG 17 d
    | none => formatG 17 d

/-! ## Documents -/

/-- The loop over a container's children: a comma in front of each but the first. -/
def printList {α : Type*} (print : α → Option Bytes) : List α → Option Bytes
  | [] => some []
  | [x] => print x
  | x :: y :: ys => do
    let t ← print x
    let ts ← printList print (y :: ys)
    return t ++ 44 :: ts

/-- An object's child: its key and its value. -/
def printMember (print : CJson → Option Bytes) (m : CStr × CJson) : Option Bytes :=
  (print m.2).map fun t => printString m.1 ++ 58 :: t

def boolText (b : Bool) : Bytes :=
  if b then (CStr.lit "true").bytes else (CStr.lit "false").bytes

/-- `print_value`; the first argument is how much deeper containers may be nested. -/
def printValue : Nat → CJson → Option Bytes
  | _, null => some (CStr.lit "null").bytes
  | _, bool b => some (boolText b)
  | _, number v => some (printNumber v).bytes
  | _, string s => some (printString s)
  | 0, array _ => none
  | n + 1, array items => (printList (fun x => printValue n x) items).map fun t => 91 :: (t ++ [93])
  | 0, object _ => none
  | n + 1, object members =>
    (printList (printMember fun x => printValue n x) members).map fun t => 123 :: (t ++ [125])

/-- `CJSON_NESTING_LIMIT` -/
def nestingLimit : Nat := 1000

/-- `cJSON_PrintUnformatted` -/
def printUnformatted (item : CJson) : Option Bytes := printValue nestingLimit item

/-! ## The length -/

def escapeWidth (b : UInt8) : Nat :=
  if 31 < b ∧ b ≠ 34 ∧ b ≠ 92 then 1 else if (escapeLetter b).isSome then 2 else 6

/-- A string with its quotes. -/
def stringWidth (s : CStr) : Nat := 2 + (s.bytes.map escapeWidth).sum

def boolWidth (b : Bool) : Nat := if b then 4 else 5

def numberWidth (v : ℚ) : Nat := (printNumber v).width

/-- The commas between children. -/
def commas {α : Type*} (l : List α) : Nat := l.length - 1

theorem sizeOf_value_lt {members : List (CStr × CJson)} {m : CStr × CJson} (hm : m ∈ members) :
    sizeOf m.2 < sizeOf members := by
  have hlt := List.sizeOf_lt_of_mem hm
  have hsize : sizeOf m = 1 + sizeOf m.1 + sizeOf m.2 := by cases m; rfl
  omega

def width : CJson → Nat
  | null => 4
  | bool b => boolWidth b
  | number v => numberWidth v
  | string s => stringWidth s
  | array items => 2 + (items.map width).sum + commas items
  | object members =>
    2 + (members.map fun m => stringWidth m.1 + 1 + width m.2).sum + commas members
decreasing_by
  · have hlt := List.sizeOf_lt_of_mem ‹_›
    simp only [array.sizeOf_spec]
    omega
  · have hlt := sizeOf_value_lt ‹_›
    simp only [object.sizeOf_spec]
    omega

/-- What is printed of an object apart from its values. -/
def keysWidth (keys : List CStr) : Nat :=
  2 + (keys.map fun k => stringWidth k + 1).sum + commas keys

/-- An array whose items have these widths. -/
def arrayWidth (ws : List Nat) : Nat := 2 + ws.sum + commas ws

theorem width_object (members : List (CStr × CJson)) : (object members).width =
    keysWidth (members.map Prod.fst) + (members.map fun m => m.2.width).sum := by
  simp only [width, keysWidth, commas, List.map_map, List.length_map, Function.comp_def,
    List.sum_map_add]
  omega

/-- The keys of an object are fixed, its width changes with the values. -/
theorem width_object_eq {members : List (CStr × CJson)} {keys values : Nat}
    (hkeys : keysWidth (members.map Prod.fst) = keys)
    (hvalues : (members.map fun m => m.2.width).sum = values) :
    (object members).width = keys + values := by rw [width_object, hkeys, hvalues]

theorem width_array {α : Type*} {f : α → CJson} {w : α → Nat} (h : ∀ x, (f x).width = w x)
    (l : List α) : (array (l.map f)).width = arrayWidth (l.map w) := by
  simp only [width, arrayWidth, commas, List.map_map, List.length_map, Function.comp_def, h]

theorem escapeByte_length (b : UInt8) : (escapeByte b).length = escapeWidth b := by
  unfold escapeByte escapeWidth
  split
  · rfl
  · cases escapeLetter b <;> rfl

theorem printString_length (s : CStr) : (printString s).length = stringWidth s := by
  have hmap : s.bytes.map (fun b => (escapeByte b).length) = s.bytes.map escapeWidth :=
    List.map_congr_left fun b _ => escapeByte_length b
  rw [printString, stringWidth, List.length_cons, List.length_append, List.length_flatMap, hmap,
    List.length_singleton]
  omega

section PrintList

variable {α : Type*} {print : α → Option Bytes}

/-- What a list prints as: the text of its first child, and the rest behind a comma. -/
theorem printList_cons {x : α} {xs : List α} {ts : Bytes}
    (h : printList print (x :: xs) = some ts) : ∃ t, print x = some t ∧
      (xs = [] ∧ ts = t ∨
        xs ≠ [] ∧ ∃ ts', printList print xs = some ts' ∧ ts = t ++ 44 :: ts') := by
  cases xs with
  | nil => exact ⟨ts, h, Or.inl ⟨rfl, rfl⟩⟩
  | cons y ys =>
    simp only [printList, Option.bind_eq_bind, Option.bind_eq_some_iff, Option.pure_def,
      Option.some.injEq] at h
    obtain ⟨t, ht, ts', hts, rfl⟩ := h
    exact ⟨t, ht, Or.inr ⟨List.cons_ne_nil _ _, ts', hts, rfl⟩⟩

theorem printList_length {w : α → Nat} {xs : List α} {ts : Bytes}
    (hw : ∀ x ∈ xs, ∀ t, print x = some t → t.length = w x) (h : printList print xs = some ts) :
    ts.length = (xs.map w).sum + commas xs := by
  induction xs generalizing ts with
  | nil =>
    cases h
    rfl
  | cons x xs ih =>
    rw [List.forall_mem_cons] at hw
    obtain ⟨t, ht, ⟨rfl, rfl⟩ | ⟨hne, ts', hts, rfl⟩⟩ := printList_cons h
    · rw [hw.1 ts ht]
      rfl
    · have hpos := List.length_pos_iff.mpr hne
      have hrest := ih hw.2 hts
      rw [List.length_append, List.length_cons, hw.1 t ht, hrest, List.map_cons, List.sum_cons,
        commas, commas, List.length_cons]
      omega

theorem printList_forall {P : UInt8 → Prop} (hcomma : P 44) {xs : List α} {ts : Bytes}
    (hx : ∀ x ∈ xs, ∀ t, print x = some t → ∀ b ∈ t, P b) (h : printList print xs = some ts) :
    ∀ b ∈ ts, P b := by
  induction xs generalizing ts with
  | nil =>
    cases h
    simp
  | cons x xs ih =>
    rw [List.forall_mem_cons] at hx
    obtain ⟨t, ht, ⟨-, rfl⟩ | ⟨-, ts', hts, rfl⟩⟩ := printList_cons h
    · exact hx.1 ts ht
    · rw [List.forall_mem_append, List.forall_mem_cons]
      exact ⟨hx.1 t ht, hcomma, ih hx.2 hts⟩

theorem printList_isSome {xs : List α} (h : ∀ x ∈ xs, (print x).isSome) :
    (printList print xs).isSome := by
  induction xs with
  | nil => rfl
  | cons x xs ih =>
    rw [List.forall_mem_cons] at h
    obtain ⟨t, ht⟩ := Option.isSome_iff_exists.mp h.1
    cases xs with
    | nil => exact h.1
    | cons y ys =>
      obtain ⟨ts, hts⟩ := Option.isSome_iff_exists.mp (ih h.2)
      simp [printList, ht, hts]

end PrintList

theorem printMember_eq_some {print : CJson → Option Bytes} {m : CStr × CJson} {t : Bytes}
    (h : printMember print m = some t) :
    ∃ v, print m.2 = some v ∧ t = printString m.1 ++ 58 :: v := by
  obtain ⟨v, hv, rfl⟩ := Option.map_eq_some_iff.mp h
  exact ⟨v, hv, rfl⟩

/-- What a printed value looks like, one case for each kind. -/
theorem printValue_induction {motive : Nat → CJson → Bytes → Prop}
    (null : ∀ n, motive n null (CStr.lit "null").bytes)
    (bool : ∀ n b, motive n (bool b) (boolText b))
    (number : ∀ n v, motive n (number v) (printNumber v).bytes)
    (string : ∀ n s, motive n (string s) (printString s))
    (array : ∀ n items ts, (∀ x t, printValue n x = some t → motive n x t) →
      printList (printValue n) items = some ts → motive (n + 1) (array items) (91 :: (ts ++ [93])))
    (object : ∀ n members ts, (∀ x t, printValue n x = some t → motive n x t) →
      printList (printMember (printValue n)) members = some ts →
      motive (n + 1) (object members) (123 :: (ts ++ [125])))
    {n : Nat} {item : CJson} {t : Bytes} (h : printValue n item = some t) : motive n item t := by
  induction n, item using printValue.induct generalizing t with
  | case1 n =>
    simp only [printValue, Option.some.injEq] at h
    exact h ▸ null n
  | case2 n b =>
    simp only [printValue, Option.some.injEq] at h
    exact h ▸ bool n b
  | case3 n v =>
    simp only [printValue, Option.some.injEq] at h
    exact h ▸ number n v
  | case4 n s =>
    simp only [printValue, Option.some.injEq] at h
    exact h ▸ string n s
  | case5 items => simp only [printValue, reduceCtorEq] at h
  | case6 n items ih =>
    rw [printValue] at h
    obtain ⟨ts, hts, rfl⟩ := Option.map_eq_some_iff.mp h
    exact array n items ts (fun x t ht => ih x ht) hts
  | case7 members => simp only [printValue, reduceCtorEq] at h
  | case8 n members ih =>
    rw [printValue] at h
    obtain ⟨ts, hts, rfl⟩ := Option.map_eq_some_iff.mp h
    exact object n members ts (fun x t ht => ih x ht) hts

theorem printValue_length {n : Nat} {item : CJson} {t : Bytes} (h : printValue n item = some t) :
    t.length = item.width := by
  refine printValue_induction (motive := fun _ item t => t.length = item.width)
    ?null ?bool ?number ?string ?array ?object h
  case null =>
    intro n
    rw [width]
    rfl
  case bool =>
    intro n b
    rw [width]
    cases b <;> rfl
  case number =>
    intro n v
    rw [width]
    exact Numeral.bytes_length _
  case string =>
    intro n s
    rw [width]
    exact printString_length s
  case array =>
    intro n items ts ih hts
    have hlen := printList_length (fun x _ t ht => ih x t ht) hts
    simp only [width, List.length_cons, List.length_append, hlen, List.length_nil]
    omega
  case object =>
    intro n members ts ih hts
    have hmember : ∀ m ∈ members, ∀ t, printMember (printValue n) m = some t →
        t.length = stringWidth m.1 + 1 + width m.2 := by
      intro m _ t ht
      obtain ⟨v, hv, rfl⟩ := printMember_eq_some ht
      rw [List.length_append, List.length_cons, printString_length, ih m.2 v hv]
      omega
    have hlen := printList_length hmember hts
    simp only [width, List.length_cons, List.length_append, hlen, List.length_nil]
    omega

theorem printUnformatted_length {item : CJson} {t : Bytes} (h : printUnformatted item = some t) :
    t.length = item.width := printValue_length h

/-! ## Visible characters -/

/-- Not a control character. -/
def Visible (b : UInt8) : Prop := 32 ≤ b

instance (b : UInt8) : Decidable (Visible b) := inferInstanceAs (Decidable (32 ≤ b))

theorem visible_of_all {l : Bytes} (h : l.all (32 ≤ ·) = true) : ∀ b ∈ l, Visible b := by
  intro b hb
  exact of_decide_eq_true (List.all_eq_true.mp h b hb)

theorem escapeByte_visible (b : UInt8) : ∀ c ∈ escapeByte b, Visible c :=
  visible_of_all (forall_byte (P := fun b => (escapeByte b).all (32 ≤ ·) = true)
    (by decide +kernel) b)

theorem printString_visible (s : CStr) : ∀ b ∈ printString s, Visible b := by
  simp only [printString, List.forall_mem_cons, List.forall_mem_append, List.mem_flatMap]
  refine ⟨by decide, ?_, by decide, List.forall_mem_nil _⟩
  rintro b ⟨c, -, hb⟩
  exact escapeByte_visible c b hb

theorem printValue_visible {n : Nat} {item : CJson} {t : Bytes} (h : printValue n item = some t) :
    ∀ b ∈ t, Visible b := by
  refine printValue_induction (motive := fun _ _ t => ∀ b ∈ t, Visible b)
    ?null ?bool ?number ?string ?array ?object h
  case null =>
    intro n
    exact visible_of_all rfl
  case bool =>
    intro n b
    cases b <;> exact visible_of_all rfl
  case number =>
    intro n v
    exact fun b hb => UInt8.le_of_lt (isNumberByte_visible (Numeral.bytes_number _ b hb))
  case string =>
    intro n s
    exact printString_visible s
  case array =>
    intro n items ts ih hts
    have hall := printList_forall (P := Visible) (by decide) (fun x _ t ht => ih x t ht) hts
    simp only [List.forall_mem_cons, List.forall_mem_append]
    exact ⟨by decide, hall, by decide, List.forall_mem_nil _⟩
  case object =>
    intro n members ts ih hts
    have hmember : ∀ m ∈ members, ∀ t, printMember (printValue n) m = some t →
        ∀ b ∈ t, Visible b := by
      intro m _ t ht
      obtain ⟨v, hv, rfl⟩ := printMember_eq_some ht
      rw [List.forall_mem_append, List.forall_mem_cons]
      exact ⟨printString_visible m.1, by decide, ih m.2 v hv⟩
    have hall := printList_forall (by decide) hmember hts
    simp only [List.forall_mem_cons, List.forall_mem_append]
    exact ⟨by decide, hall, by decide, List.forall_mem_nil _⟩

theorem printUnformatted_visible {item : CJson} {t : Bytes} (h : printUnformatted item = some t) :
    ∀ b ∈ t, Visible b := printValue_visible h

/-! ## Documents that are not too deep -/

/-- At most `d` containers are nested, so that the document prints. -/
def NestedAtMost (d : Nat) (item : CJson) : Prop := ∀ n, (printValue (n + d) item).isSome

theorem NestedAtMost.mono {d d' : Nat} {item : CJson} (h : NestedAtMost d item) (hd : d ≤ d') :
    NestedAtMost d' item := by
  intro n
  obtain ⟨k, rfl⟩ := Nat.exists_eq_add_of_le' hd
  rw [← Nat.add_assoc]
  exact h (n + k)

theorem NestedAtMost.prints {d : Nat} {item : CJson} (h : NestedAtMost d item)
    (hd : d ≤ nestingLimit) : ∃ t, printUnformatted item = some t := by
  have hsome := h.mono hd 0
  rw [Nat.zero_add] at hsome
  exact Option.isSome_iff_exists.mp hsome

@[simp] theorem nestedAtMost_bool (d : Nat) (b : Bool) : NestedAtMost d (bool b) := by
  intro n
  rw [printValue]
  rfl

@[simp] theorem nestedAtMost_number (d : Nat) (v : ℚ) : NestedAtMost d (number v) := by
  intro n
  rw [printValue]
  rfl

@[simp] theorem nestedAtMost_string (d : Nat) (s : CStr) : NestedAtMost d (string s) := by
  intro n
  rw [printValue]
  rfl

theorem nestedAtMost_array {d : Nat} {items : List CJson} (h : ∀ x ∈ items, NestedAtMost d x) :
    NestedAtMost (d + 1) (array items) := by
  intro n
  rw [← Nat.add_assoc, printValue, Option.isSome_map]
  exact printList_isSome fun x hx => h x hx n

theorem nestedAtMost_object {d : Nat} {members : List (CStr × CJson)}
    (h : ∀ m ∈ members, NestedAtMost d m.2) : NestedAtMost (d + 1) (object members) := by
  intro n
  rw [← Nat.add_assoc, printValue, Option.isSome_map]
  apply printList_isSome
  intro m hm
  rw [printMember, Option.isSome_map]
  exact h m hm n

end CJson

end NetMon.Lib
