import NetMon.Lib.CJsonPrint

/-!
# Parsing cJSON documents

`cJSON_Parse`. A parse buffer is what is left of it, its terminating NUL included. What
`cJSON_PrintUnformatted` prints is parsed as the same document, its numbers as they read
back from the text (`parse_print`).
-/

namespace NetMon.Lib

namespace CJson

/-! ## Strings -/

def hexVal (b : UInt8) : Option Nat :=
  if 48 ≤ b ∧ b ≤ 57 then some (b.toNat - 48)
  else if 65 ≤ b ∧ b ≤ 70 then some (b.toNat - 55)
  else if 97 ≤ b ∧ b ≤ 102 then some (b.toNat - 87)
  else none

/-- `parse_hex4`: zero where a character is no digit. -/
def parseHex4 (s : Bytes) : Nat :=
  (((s.take 4).mapM hexVal).map fun ds => ds.foldl (fun h d => 16 * h + d) 0).getD 0

/-- The continuation byte for the bits from `6 * k` on. -/
def utf8Tail (codepoint k : Nat) : UInt8 := UInt8.ofNat (128 + codepoint / 64 ^ k % 64)

def utf8 (codepoint : Nat) : Bytes :=
  if codepoint < 0x80 then [UInt8.ofNat codepoint]
  else if codepoint < 0x800 then [UInt8.ofNat (0xC0 + codepoint / 64), utf8Tail codepoint 0]
  else if codepoint < 0x10000 then
    [UInt8.ofNat (0xE0 + codepoint / 64 ^ 2), utf8Tail codepoint 1, utf8Tail codepoint 0]
  else
    [UInt8.ofNat (0xF0 + codepoint / 64 ^ 3), utf8Tail codepoint 2, utf8Tail codepoint 1,
      utf8Tail codepoint 0]

/-- `utf16_literal_to_utf8`: what a literal, or two of them that are a surrogate pair,
stands for, and its length. -/
def utf16LiteralToUtf8 (s : Bytes) : Option (Bytes × Nat) :=
  if s.length < 6 then none
  else
    let first := parseHex4 (s.drop 2)
    if 0xDC00 ≤ first ∧ first ≤ 0xDFFF then none
    else if 0xD800 ≤ first ∧ first ≤ 0xDBFF then
      let s := s.drop 6
      if s.length < 6 ∨ s.take 2 ≠ [92, 117] then none
      else
        let second := parseHex4 (s.drop 2)
        if second < 0xDC00 ∨ 0xDFFF < second then none
        else some (utf8 (0x10000 + (first % 0x400 * 0x400 + second % 0x400)), 12)
    else some (utf8 first, 6)

/-- The character a letter behind a backslash stands for. -/
def unescapeLetter (c : UInt8) : Option UInt8 :=
  if c = 98 then some 8
  else if c = 102 then some 12
  else if c = 110 then some 10
  else if c = 114 then some 13
  else if c = 116 then some 9
  else if c = 34 ∨ c = 92 ∨ c = 47 then some c
  else none

/-- One turn of the decoding loop: what it puts out and how far it moves on. -/
def decodeOne (s : Bytes) : Option (Bytes × Nat) :=
  match s with
  | [] => none
  | b :: t =>
    if b ≠ 92 then some ([b], 1)
    else
      match t with
      | [] => none
      | c :: _ =>
        if c = 117 then utf16LiteralToUtf8 s else (unescapeLetter c).map fun b => ([b], 2)

/-- The decoding loop; every turn moves on, so as many as there are characters will do. -/
def decode : Nat → Bytes → Option Bytes
  | _, [] => some []
  | 0, _ :: _ => none
  | n + 1, b :: s => do
    let (out, k) ← decodeOne (b :: s)
    let rest ← decode n ((b :: s).drop k)
    return out ++ rest

/-- What is in front of the closing quote, and what is behind it. -/
def scanQuote : Bytes → Option (Bytes × Bytes)
  | [] => none
  | b :: s =>
    if b = 34 then some ([], s)
    else if b = 92 then
      match s with
      | [] => none
      | c :: s => (scanQuote s).map fun p => (b :: c :: p.1, p.2)
    else (scanQuote s).map fun p => (b :: p.1, p.2)

def parseString : Bytes → Option (CStr × Bytes)
  | [] => none
  | b :: s =>
    if b = 34 then do
      let (raw, rest) ← scanQuote s
      let out ← decode raw.length raw
      return (CStr.ofBytes out, rest)
    else none

/-! ## Values -/

/-- `buffer_skip_whitespace`: it stays on the last byte of the buffer. -/
def skipWhitespace (s : Bytes) : Bytes :=
  match s.dropWhile (· ≤ 32) with
  | [] => s.drop (s.length - 1)
  | r => r

def parseNumber (s : Bytes) : Option (CJson × Bytes) :=
  let text := s.takeWhile isNumberByte
  (strtod text).map fun (v, rest) => (number v, s.drop (text.length - rest.length))

/-- The loop over the children up to the closing bracket. A turn reads a comma at least. -/
def parseList {β : Type*} (child : Bytes → Option (β × Bytes)) (close : UInt8) :
    Nat → Bytes → Option (List β × Bytes)
  | 0, _ => none
  | fuel + 1, s => do
    let (x, s) ← child (skipWhitespace s)
    match skipWhitespace s with
    | [] => none
    | b :: s =>
      if b = 44 then (parseList child close fuel s).map fun p => (x :: p.1, p.2)
      else if b = close then some ([x], s)
      else none

/-- An object's child. -/
def parseMember (value : Bytes → Option (CJson × Bytes)) (s : Bytes) :
    Option ((CStr × CJson) × Bytes) := do
  let (key, s) ← parseString s
  match skipWhitespace s with
  | [] => none
  | b :: s =>
    if b = 58 then (value (skipWhitespace s)).map fun p => ((key, p.1), p.2) else none

/-- A container behind its opening bracket. -/
def parseChildren {β : Type*} (child : Bytes → Option (β × Bytes)) (close : UInt8) (s : Bytes) :
    Option (List β × Bytes) :=
  match skipWhitespace s with
  | [] => none
  | b :: s => if b = close then some ([], s) else parseList child close (s.length + 1) (b :: s)

/-- `parse_value`, given how arrays and objects are read. -/
def parseWith (array object : Bytes → Option (CJson × Bytes)) (s : Bytes) :
    Option (CJson × Bytes) :=
  if (CStr.lit "null").bytes.isPrefixOf s then some (null, s.drop 4)
  else if (CStr.lit "false").bytes.isPrefixOf s then some (bool false, s.drop 5)
  else if (CStr.lit "true").bytes.isPrefixOf s then some (bool true, s.drop 4)
  else
    match s with
    | [] => none
    | b :: t =>
      if b = 34 then (parseString s).map fun p => (string p.1, p.2)
      else if b = 45 ∨ isdigit b then parseNumber s
      else if b = 91 then array t
      else if b = 123 then object t
      else none

/-- The first argument is how much deeper containers may be nested. -/
def parseValue : Nat → Bytes → Option (CJson × Bytes)
  | 0, s => parseWith (fun _ => none) (fun _ => none) s
  | n + 1, s =>
    parseWith
      (fun t => (parseChildren (parseValue n) 93 t).map fun p => (array p.1, p.2))
      (fun t => (parseChildren (parseMember (parseValue n)) 125 t).map fun p => (object p.1, p.2))
      s

/-- `skip_utf8_bom` -/
def skipUtf8Bom (s : Bytes) : Bytes :=
  if 4 < s.length ∧ s.take 3 = [0xEF, 0xBB, 0xBF] then s.drop 3 else s

/-- `cJSON_Parse` -/
def parse (value : CStr) : Option CJson :=
  (parseValue nestingLimit (skipWhitespace (skipUtf8Bom (value.bytes ++ [0])))).map Prod.fst

/-- `cJSON_ParseWithLength` -/
def parseWithLength (s : Bytes) : Option CJson :=
  if s = [] then none
  else (parseValue nestingLimit (skipWhitespace (skipUtf8Bom s))).map Prod.fst

/-! ## Strings read back -/

/-- A character without a letter is printed as its code, which reads back. -/
theorem hex_escape (b : UInt8) : (31 < b ∧ b ≠ 34 ∧ b ≠ 92) ∨ (escapeLetter b).isSome ∨
    utf8 (parseHex4 [48, 48, hexByte (b.toNat / 16), hexByte (b.toNat % 16)]) = [b] ∧
      parseHex4 [48, 48, hexByte (b.toNat / 16), hexByte (b.toNat % 16)] < 0xD800 :=
  forall_byte (P := fun b => (31 < b ∧ b ≠ 34 ∧ b ≠ 92) ∨ (escapeLetter b).isSome ∨
    utf8 (parseHex4 [48, 48, hexByte (b.toNat / 16), hexByte (b.toNat % 16)]) = [b] ∧
      parseHex4 [48, 48, hexByte (b.toNat / 16), hexByte (b.toNat % 16)] < 0xD800)
    (by decide +kernel) b

theorem hexByte_plain : ∀ n < 16, hexByte n ≠ 34 ∧ hexByte n ≠ 92 := by decide

theorem letter_escape (b : UInt8) : ∀ c ∈ escapeLetter b, c ≠ 117 ∧ unescapeLetter c = some b :=
  forall_byte (P := fun b => ∀ c ∈ escapeLetter b, c ≠ 117 ∧ unescapeLetter c = some b)
    (by decide +kernel) b

theorem utf16LiteralToUtf8_one {a b c d : UInt8} (t : Bytes) (h : parseHex4 [a, b, c, d] < 0xD800) :
    utf16LiteralToUtf8 (92 :: 117 :: a :: b :: c :: d :: t) =
      some (utf8 (parseHex4 [a, b, c, d]), 6) := by
  have hfirst : parseHex4 ((92 :: 117 :: a :: b :: c :: d :: t).drop 2) = parseHex4 [a, b, c, d] :=
    rfl
  have hlen : ¬ (92 :: 117 :: a :: b :: c :: d :: t).length < 6 := by
    simp only [List.length_cons]
    omega
  unfold utf16LiteralToUtf8
  simp only [if_neg hlen, hfirst]
  rw [if_neg (by omega), if_neg (by omega)]

theorem decodeOne_escape (b : UInt8) (t : Bytes) :
    decodeOne (escapeByte b ++ t) = some ([b], (escapeByte b).length) := by
  unfold escapeByte
  by_cases hplain : 31 < b ∧ b ≠ 34 ∧ b ≠ 92
  · rw [if_pos hplain]
    simp [decodeOne, hplain.2.2]
  · rw [if_neg hplain]
    cases hletter : escapeLetter b with
    | some c =>
      obtain ⟨h117, hback⟩ := letter_escape b c hletter
      simp [decodeOne, h117, hback]
    | none =>
      obtain h | h | ⟨hutf, hlt⟩ := hex_escape b
      · exact absurd h hplain
      · rw [hletter] at h
        cases h
      · exact (utf16LiteralToUtf8_one t hlt).trans (by rw [hutf]; rfl)

theorem escapeByte_length_pos (b : UInt8) : 0 < (escapeByte b).length := by
  rw [escapeByte_length]
  unfold escapeWidth
  repeat' split
  all_goals decide

/-- What was escaped is decoded. -/
theorem decode_escape {l : Bytes} {n : Nat} (hn : l.length ≤ n) :
    decode n (l.flatMap escapeByte) = some l := by
  induction l generalizing n with
  | nil => cases n <;> rfl
  | cons b l ih =>
    obtain ⟨n, rfl⟩ := Nat.exists_eq_add_of_le' (Nat.zero_lt_of_lt hn)
    rw [List.length_cons] at hn
    obtain ⟨c, s, hcs⟩ := List.exists_cons_of_length_pos (escapeByte_length_pos b)
    have hone := decodeOne_escape b (l.flatMap escapeByte)
    rw [List.flatMap_cons, hcs, List.cons_append] at *
    simp only [decode, hone, Option.bind_eq_bind, Option.bind_some]
    rw [← List.cons_append, List.drop_left, ih (Nat.le_of_succ_le_succ hn)]
    rfl

theorem scanQuote_quote (s : Bytes) : scanQuote (34 :: s) = some ([], s) := by
  rw [scanQuote.eq_def]
  rfl

theorem scanQuote_plain {b : UInt8} (h34 : b ≠ 34) (h92 : b ≠ 92) (s : Bytes) :
    scanQuote (b :: s) = (scanQuote s).map fun p => (b :: p.1, p.2) := by
  rw [scanQuote.eq_def]
  simp only [if_neg h34, if_neg h92]

theorem scanQuote_pair (c : UInt8) (s : Bytes) :
    scanQuote (92 :: c :: s) = (scanQuote s).map fun p => (92 :: c :: p.1, p.2) := by
  rw [scanQuote.eq_def]
  rfl

/-- An escaped character does not end the string. -/
theorem scanQuote_escape (b : UInt8) (s : Bytes) :
    scanQuote (escapeByte b ++ s) = (scanQuote s).map fun p => (escapeByte b ++ p.1, p.2) := by
  unfold escapeByte
  by_cases hplain : 31 < b ∧ b ≠ 34 ∧ b ≠ 92
  · rw [if_pos hplain]
    exact scanQuote_plain hplain.2.1 hplain.2.2 s
  · rw [if_neg hplain]
    cases escapeLetter b with
    | some c => exact scanQuote_pair c s
    | none =>
      have h1 := hexByte_plain (b.toNat / 16) (by have := b.toNat_lt; omega)
      have h2 := hexByte_plain (b.toNat % 16) (by omega)
      simp only [List.cons_append, List.nil_append, scanQuote_pair,
        scanQuote_plain h1.1 h1.2, scanQuote_plain h2.1 h2.2,
        scanQuote_plain (b := 48) (by decide) (by decide), Option.map_map, Function.comp_def]

theorem scanQuote_printed (l s : Bytes) :
    scanQuote (l.flatMap escapeByte ++ 34 :: s) = some (l.flatMap escapeByte, s) := by
  induction l with
  | nil => exact scanQuote_quote s
  | cons b l ih =>
    rw [List.flatMap_cons, List.append_assoc, scanQuote_escape, ih]
    rfl

theorem flatMap_escape_length (l : Bytes) : l.length ≤ (l.flatMap escapeByte).length := by
  induction l with
  | nil => exact Nat.zero_le _
  | cons b l ih =>
    have hpos := escapeByte_length_pos b
    rw [List.flatMap_cons, List.length_append, List.length_cons]
    omega

theorem parseString_print (s : CStr) (rest : Bytes) :
    parseString (printString s ++ rest) = some (s, rest) := by
  rw [printString, List.cons_append, List.append_assoc, List.singleton_append]
  simp only [parseString, if_true, scanQuote_printed, Option.bind_eq_bind, Option.bind_some,
    decode_escape (flatMap_escape_length s.bytes), CStr.ofBytes_bytes, Option.pure_def]

/-! ## Documents read back -/

/-- The document with each number as it reads back from its text. -/
def reread : CJson → CJson
  | number v => number (toDouble (printNumber v).value)
  | array items => array (items.map reread)
  | object members => object (members.map fun m => (m.1, reread m.2))
  | null => null
  | bool b => bool b
  | string s => string s
decreasing_by
  · have hlt := List.sizeOf_lt_of_mem ‹_›
    simp only [array.sizeOf_spec]
    omega
  · have hlt := sizeOf_value_lt ‹_›
    simp only [object.sizeOf_spec]
    omega

/-- Not one of the characters that are skipped or close a container. -/
def isStart (b : UInt8) : Bool := 32 < b && b != 93 && b ≤ 123

theorem isStart_iff {b : UInt8} : isStart b = true ↔ 32 < b ∧ b ≠ 93 ∧ b ≤ 123 := by
  simp [isStart, and_assoc]

/-- How the text of a value starts. -/
def Starts (t : Bytes) : Prop := ∃ b s, t = b :: s ∧ isStart b = true

/-- What follows a value does not go on with a number. -/
def NumberEnd (rest : Bytes) : Prop := ∀ b ∈ rest.head?, isNumberByte b = false

theorem numberEnd_cons {b : UInt8} {s : Bytes} (h : isNumberByte b = false) :
    NumberEnd (b :: s) := by
  intro c hc
  cases hc
  exact h

theorem skipWhitespace_cons {b : UInt8} (h : 32 < b) (s : Bytes) :
    skipWhitespace (b :: s) = b :: s := by
  unfold skipWhitespace
  rw [List.dropWhile_cons_of_neg (by simpa using h)]

theorem Starts.skipWhitespace {t : Bytes} (h : Starts t) (s : Bytes) :
    CJson.skipWhitespace (t ++ s) = t ++ s := by
  obtain ⟨b, t, rfl, hb⟩ := h
  exact skipWhitespace_cons (isStart_iff.mp hb).1 _

/-- The child's text is read back, in front of whatever does not go on with a number. -/
def ReadsBack {β : Type*} (child : Bytes → Option (β × Bytes)) (t : Bytes) (y : β) : Prop :=
  Starts t ∧ ∀ rest, NumberEnd rest → child (t ++ rest) = some (y, rest)

section Children

variable {α β : Type*} {print : α → Option Bytes} {child : Bytes → Option (β × Bytes)} {f : α → β}
  {close : UInt8}

theorem parseList_print (hclose : 32 < close ∧ close ≠ 44 ∧ isNumberByte close = false)
    {xs : List α} (hne : xs ≠ []) (hx : ∀ x ∈ xs, ∀ t, print x = some t → ReadsBack child t (f x))
    {ts : Bytes} (h : printList print xs = some ts) (rest : Bytes) {fuel : Nat}
    (hfuel : (ts ++ close :: rest).length ≤ fuel) :
    parseList child close fuel (ts ++ close :: rest) = some (xs.map f, rest) := by
  induction xs generalizing ts fuel with
  | nil => exact absurd rfl hne
  | cons x xs ih =>
    rw [List.forall_mem_cons] at hx
    obtain ⟨fuel, rfl⟩ : ∃ k, fuel = k + 1 := by
      rw [List.length_append, List.length_cons] at hfuel
      exact ⟨fuel - 1, by omega⟩
    obtain ⟨t, ht, ⟨rfl, rfl⟩ | ⟨hxs, ts', hts, rfl⟩⟩ := printList_cons h
    · obtain ⟨hstart, hread⟩ := hx.1 ts ht
      have hone := hread (close :: rest) (numberEnd_cons hclose.2.2)
      simp only [parseList, hstart.skipWhitespace, hone, Option.bind_eq_bind, Option.bind_some,
        skipWhitespace_cons hclose.1, if_neg hclose.2.1, if_true]
      rfl
    · obtain ⟨hstart, hread⟩ := hx.1 t ht
      have hone := hread (44 :: (ts' ++ close :: rest)) (numberEnd_cons (by decide))
      have hroom : (ts' ++ close :: rest).length ≤ fuel := by
        simp only [List.length_append, List.length_cons] at hfuel ⊢
        omega
      have hrest := ih hxs hx.2 hts hroom
      rw [List.append_assoc, List.cons_append]
      simp only [parseList, hstart.skipWhitespace, hone, Option.bind_eq_bind, Option.bind_some,
        skipWhitespace_cons (b := 44) (by decide), if_true, hrest, Option.map_some]
      rfl

variable (close) in
/-- A container's children are read back. -/
theorem parseChildren_print (hclose : 32 < close ∧ close ≠ 44 ∧ isNumberByte close = false)
    (hbracket : close = 93 ∨ close = 125) {xs : List α}
    (hx : ∀ x ∈ xs, ∀ t, print x = some t → ReadsBack child t (f x)) {ts : Bytes}
    (h : printList print xs = some ts) (rest : Bytes) :
    parseChildren child close (ts ++ close :: rest) = some (xs.map f, rest) := by
  cases xs with
  | nil =>
    cases h
    rw [List.nil_append, parseChildren, skipWhitespace_cons hclose.1]
    simp only [if_true]
    rfl
  | cons x xs =>
    have hstart : Starts ts := by
      obtain ⟨t, ht, ⟨-, rfl⟩ | ⟨-, ts', -, rfl⟩⟩ := printList_cons h
      · exact (hx x List.mem_cons_self ts ht).1
      · obtain ⟨b, s, rfl, hb⟩ := (hx x List.mem_cons_self t ht).1
        exact ⟨b, _, rfl, hb⟩
    have hlist := parseList_print hclose (List.cons_ne_nil x xs) hx h rest (le_refl _)
    obtain ⟨b, s, rfl, hb⟩ := hstart
    obtain ⟨hvis, hb93, hb⟩ := isStart_iff.mp hb
    have hne : b ≠ close := by
      rintro rfl
      rcases hbracket with rfl | rfl
      · exact hb93 rfl
      · exact absurd hb (by decide)
    rw [List.cons_append] at hlist ⊢
    rw [parseChildren, skipWhitespace_cons hvis]
    simp only [if_neg hne]
    exact hlist

end Children

theorem printString_starts (s : CStr) : Starts (printString s) :=
  ⟨34, _, rfl, rfl⟩

theorem parseMember_print {value : Bytes → Option (CJson × Bytes)} {key : CStr} {t : Bytes}
    {x : CJson} (h : ReadsBack value t x) :
    ReadsBack (parseMember value) (printString key ++ 58 :: t) (key, x) := by
  refine ⟨⟨34, _, rfl, rfl⟩, fun rest hrest => ?_⟩
  rw [List.append_assoc, List.cons_append]
  simp only [parseMember, parseString_print, Option.bind_eq_bind, Option.bind_some,
    skipWhitespace_cons (b := 58) (by decide), if_true, h.1.skipWhitespace, h.2 rest hrest,
    Option.map_some]

section ParseWith

variable {array object : Bytes → Option (CJson × Bytes)}

/-- What does not start like a literal is read by its first character. -/
theorem parseWith_cons {b : UInt8} (hb : b ≠ 110 ∧ b ≠ 102 ∧ b ≠ 116) (s : Bytes) :
    parseWith array object (b :: s) =
      if b = 34 then (parseString (b :: s)).map fun p => (string p.1, p.2)
      else if b = 45 ∨ isdigit b then parseNumber (b :: s)
      else if b = 91 then array s
      else if b = 123 then object s
      else none := by
  have hnull : (CStr.lit "null").bytes.isPrefixOf (b :: s) = false := by
    show (110 == b && _) = false
    rw [beq_eq_false_iff_ne.mpr hb.1.symm, Bool.false_and]
  have hfalse : (CStr.lit "false").bytes.isPrefixOf (b :: s) = false := by
    show (102 == b && _) = false
    rw [beq_eq_false_iff_ne.mpr hb.2.1.symm, Bool.false_and]
  have htrue : (CStr.lit "true").bytes.isPrefixOf (b :: s) = false := by
    show (116 == b && _) = false
    rw [beq_eq_false_iff_ne.mpr hb.2.2.symm, Bool.false_and]
  unfold parseWith
  simp only [hnull, hfalse, htrue, Bool.false_eq_true, if_false]

theorem parseWith_null (rest : Bytes) :
    parseWith array object ((CStr.lit "null").bytes ++ rest) = some (null, rest) := rfl

theorem parseWith_bool (b : Bool) (rest : Bytes) :
    parseWith array object (boolText b ++ rest) = some (bool b, rest) := by
  cases b <;> rfl

theorem parseWith_string (s : CStr) (rest : Bytes) :
    parseWith array object (printString s ++ rest) = some (string s, rest) := by
  have hread := parseString_print s rest
  rw [printString, List.cons_append] at hread ⊢
  rw [parseWith_cons (by decide), if_pos rfl, hread]
  rfl

/-- A numeral starts with a minus sign or a digit. -/
theorem numeral_head (n : Numeral) : ∃ b s, n.bytes = b :: s ∧ (b = 45 ∨ isdigit b = true) := by
  obtain ⟨d, ds, hds⟩ := List.exists_cons_of_ne_nil n.int_ne_nil
  unfold Numeral.bytes
  rw [hds]
  cases n.neg with
  | true => exact ⟨45, _, rfl, Or.inl rfl⟩
  | false => exact ⟨digitByte d, _, rfl, Or.inr (digitByte_isdigit d)⟩

theorem numeral_starts (n : Numeral) : Starts n.bytes := by
  obtain ⟨b, s, hn, hb⟩ := numeral_head n
  refine ⟨b, s, hn, isStart_iff.mpr ?_⟩
  rcases hb with rfl | hb
  · decide
  · simp only [isdigit, Bool.and_eq_true, decide_eq_true_eq] at hb
    refine ⟨UInt8.lt_of_lt_of_le (by decide) hb.1, ?_, UInt8.le_trans hb.2 (by decide)⟩
    rintro rfl
    exact absurd hb.2 (by decide)

theorem parseNumber_numeral (n : Numeral) {rest : Bytes} (hrest : NumberEnd rest) :
    parseNumber (n.bytes ++ rest) = some (number (toDouble n.value), rest) := by
  have htext : (n.bytes ++ rest).takeWhile isNumberByte = n.bytes := by
    rw [List.takeWhile_append_of_pos n.bytes_number]
    cases rest with
    | nil => simp
    | cons b s => simp [hrest b rfl]
  unfold parseNumber
  simp only [htext, strtod_numeral, Option.map_some, List.length_nil, Nat.sub_zero, List.drop_left]

theorem parseWith_number (n : Numeral) {rest : Bytes} (hrest : NumberEnd rest) :
    parseWith array object (n.bytes ++ rest) = some (number (toDouble n.value), rest) := by
  have hnum := parseNumber_numeral n hrest
  obtain ⟨b, s, hn, hb⟩ := numeral_head n
  rw [hn, List.cons_append] at hnum ⊢
  have hletters : b ≠ 110 ∧ b ≠ 102 ∧ b ≠ 116 ∧ b ≠ 34 := by
    refine ⟨?_, ?_, ?_, ?_⟩ <;> (rintro rfl; revert hb; decide)
  rw [parseWith_cons ⟨hletters.1, hletters.2.1, hletters.2.2.1⟩, if_neg hletters.2.2.2, if_pos hb,
    hnum]

end ParseWith

/-- **Documents read back.** What is printed is parsed as the same document, its numbers as
they read back. -/
theorem parseValue_print {n : Nat} {item : CJson} {t : Bytes} (h : printValue n item = some t) :
    ReadsBack (parseValue n) t (reread item) := by
  refine printValue_induction (motive := fun n item t => ReadsBack (parseValue n) t (reread item))
    ?null ?bool ?number ?string ?array ?object h
  case null =>
    intro n
    rw [reread]
    refine ⟨⟨110, _, rfl, rfl⟩, fun rest _ => ?_⟩
    cases n <;> exact parseWith_null rest
  case bool =>
    intro n b
    rw [reread]
    refine ⟨?_, fun rest _ => ?_⟩
    · cases b with
      | false => exact ⟨102, _, rfl, rfl⟩
      | true => exact ⟨116, _, rfl, rfl⟩
    · cases n <;> exact parseWith_bool b rest
  case number =>
    intro n v
    rw [reread]
    refine ⟨numeral_starts _, fun rest hrest => ?_⟩
    cases n <;> exact parseWith_number _ hrest
  case string =>
    intro n s
    rw [reread]
    refine ⟨printString_starts s, fun rest _ => ?_⟩
    cases n <;> exact parseWith_string s rest
  case array =>
    intro n items ts ih hts
    rw [reread]
    refine ⟨⟨91, _, rfl, rfl⟩, fun rest _ => ?_⟩
    have hchildren := parseChildren_print 93 (by decide) (Or.inl rfl)
      (fun x _ t ht => ih x t ht) hts rest
    rw [List.cons_append, List.append_assoc, List.singleton_append, parseValue,
      parseWith_cons (by decide)]
    simp only [hchildren, Option.map_some]
    rfl
  case object =>
    intro n members ts ih hts
    rw [reread]
    refine ⟨⟨123, _, rfl, rfl⟩, fun rest _ => ?_⟩
    have hmember : ∀ m ∈ members, ∀ t, printMember (printValue n) m = some t →
        ReadsBack (parseMember (parseValue n)) t (m.1, reread m.2) := by
      intro m _ t ht
      obtain ⟨v, hv, rfl⟩ := printMember_eq_some ht
      exact parseMember_print (ih m.2 v hv)
    have hchildren := parseChildren_print 125 (by decide) (Or.inr rfl) hmember hts rest
    rw [List.cons_append, List.append_assoc, List.singleton_append, parseValue,
      parseWith_cons (by decide)]
    simp only [hchildren, Option.map_some]
    rfl

/-- The text holds no NUL, so a string that starts with it is all of it. -/
theorem ofBytes_print {item : CJson} {t : Bytes} (h : printUnformatted item = some t) :
    (CStr.ofBytes t).bytes = t :=
  CStr.ofBytes_of_nonul fun h0 => absurd (printUnformatted_visible h 0 h0) (by decide)

theorem parse_print {item : CJson} {t : Bytes} (h : printUnformatted item = some t) :
    parse (CStr.ofBytes t) = some (reread item) := by
  obtain ⟨hstart, hread⟩ := parseValue_print h
  have hbom : skipUtf8Bom (t ++ [0]) = t ++ [0] := by
    obtain ⟨b, s, rfl, hb⟩ := hstart
    apply if_neg
    intro hmark
    have hfirst : b = 0xEF := by simpa using congrArg List.head? hmark.2
    rw [hfirst] at hb
    cases hb
  unfold parse
  rw [ofBytes_print h, hbom, hstart.skipWhitespace, hread [0] (numberEnd_cons rfl)]
  rfl

end CJson

end NetMon.Lib
