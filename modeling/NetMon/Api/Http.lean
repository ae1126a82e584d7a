import NetMon.Lib.CNum

/-!
# HTTP heads

What `mg_http_parse` of the bundled `mongoose.c` makes of what a connection has received. A
head ends at the first empty line (`mg_http_get_request_len`); its first line falls into a
method, a target and the rest, each other line into a name and a value.

A head that is written line by line is read back as written, whatever follows it
(`mgHttpParse_head`), and no proper prefix of it is taken for one
(`mgHttpParse_take`), so how a text was cut on its way does not matter. `size_t` has
32 bits.
-/

namespace NetMon.Api

open NetMon.Lib

/-! ## The end of a head -/

/-- `isok` -/
def isok (c : UInt8) : Bool := c == 10 || c == 13 || c == 9 || 32 ≤ c

/-- The loop of `mg_http_get_request_len` at index `i`, behind the bytes `p2` and `p1`. -/
def requestLenFrom (i : Nat) (p2 p1 : UInt8) : Bytes → Int
  | [] => 0
  | b :: s =>
    if !isok b then -1
    else if (0 < i ∧ b = 10 ∧ p1 = 10) ∨ (3 < i ∧ b = 10 ∧ p1 = 13 ∧ p2 = 10) then i + 1
    else requestLenFrom (i + 1) p1 b s

/-- `mg_http_get_request_len` -/
def mgHttpGetRequestLen (buf : Bytes) : Int := requestLenFrom 0 0 0 buf

/-! ## Parts of a line -/

/-- `vcb` -/
def vcb (c : UInt8) : Bool := c &&& 0xC0 == 0x80

/-- `k` continuation bytes in front. -/
def continues (k : Nat) (s : Bytes) : Bool := k ≤ s.length && (s.take k).all vcb

/-- `clen`: the length of the character in front, zero if there is none. -/
def clen : Bytes → Nat
  | [] => 0
  | c :: s =>
    if 32 < c ∧ c ≤ 126 then 1
    else if c &&& 0xE0 = 0xC0 ∧ continues 1 s then 2
    else if c &&& 0xF0 = 0xE0 ∧ continues 2 s then 3
    else if c &&& 0xF8 = 0xF0 ∧ continues 3 s then 4
    else 0

/-- How far the characters in front reach, up to one that starts with a `stop`. Each of them has
a byte at least. -/
def charsLen (stop : UInt8 → Bool) : Nat → Bytes → Nat
  | _, [] => 0
  | 0, _ :: _ => 0
  | n + 1, b :: s =>
    if stop b ∨ clen (b :: s) = 0 then 0
    else clen (b :: s) + charsLen stop n ((b :: s).drop (clen (b :: s)))

/-- The characters in front, and what is behind them. -/
def scanChars (stop : UInt8 → Bool) (s : Bytes) : Bytes × Bytes :=
  s.splitAt (charsLen stop s.length s)

def skipSpaces (s : Bytes) : Bytes := s.dropWhile (· == 32)

def isBlank (b : UInt8) : Bool := b == 32 || b == 9

/-- Neither `\n` nor `\r`. -/
def inLine (b : UInt8) : Bool := b != 10 && b != 13

/-- `skiptorn`: the line up to its end, and what is behind it. -/
def skiptorn (s : Bytes) : Option (Bytes × Bytes) :=
  match s.dropWhile inLine with
  | 10 :: rest => some (s.takeWhile inLine, rest)
  | 13 :: 10 :: rest => some (s.takeWhile inLine, rest)
  | _ => none

/-- The value without the blanks behind it. -/
def trimBlanks (v : Bytes) : Bytes := v.rdropWhile isBlank

/-! ## Headers -/

/-- `struct mg_http_header` -/
structure HttpHeader where
  name : Bytes
  value : Bytes
  deriving DecidableEq

/-- `MG_MAX_HTTP_HEADERS` -/
def mgMaxHttpHeaders : Nat := 30

/-- `mg_http_parse_headers`, with room for this many; lines beyond them are not looked at. -/
def mgHttpParseHeaders : Nat → Bytes → Option (List HttpHeader)
  | 0, _ => some []
  | _ + 1, [] => none
  | n + 1, b :: s =>
    if b = 10 ∨ (b = 13 ∧ s.head? = some 10) then some []
    else
      let (name, s) := scanChars (· == 58) (b :: s)
      if name = [] ∨ clen s = 0 then none
      else
        match s with
        | 58 :: s =>
          (skiptorn (s.dropWhile isBlank)).bind fun (value, s) =>
            (mgHttpParseHeaders n s).map (⟨name, trimBlanks value⟩ :: ·)
        | _ => none

/-- `mg_tolc` -/
def mgTolc (c : UInt8) : UInt8 := if 65 ≤ c ∧ c ≤ 90 then c + 32 else c

/-- `mg_strcasecmp(s, t) == 0` -/
def sameNoCase (s t : Bytes) : Bool := s.map mgTolc == t.map mgTolc

/-- `(size_t) -1` -/
def sizeMax : Nat := 2 ^ 32 - 1

/-- The digits' loop of `mg_to_size_t`. -/
def sizeDigits (result : Nat) : Bytes → Option Nat
  | [] => some result
  | b :: ds =>
    if result > sizeMax / 10 then none
    else if result * 10 > sizeMax - (b.toNat - 48) then none
    else sizeDigits (result * 10 + (b.toNat - 48)) ds

/-- `mg_to_size_t` -/
def mgToSizeT (str : Bytes) : Option Nat :=
  let s := str.dropWhile isBlank
  if s.head? = some 45 then none
  else
    match sizeDigits 0 (s.takeWhile isdigit) with
    | none => none
    | some result =>
      if s.takeWhile isdigit = [] ∨ (s.dropWhile isdigit).dropWhile isBlank ≠ [] then none
      else some result

/-! ## Messages -/

/-- `struct mg_http_message`: what its parts hold. The body is behind the head. -/
structure HttpMessage where
  method : Bytes
  uri : Bytes
  query : Bytes
  proto : Bytes
  headers : List HttpHeader
  headLen : Nat
  bodyLen : Nat
  messageLen : Nat
  deriving DecidableEq

/-- `mg_http_get_header` -/
def mgHttpGetHeader (headers : List HttpHeader) (name : CStr) : Option Bytes :=
  (headers.find? fun h => sameNoCase h.name name.bytes).map HttpHeader.value

/-- What `mg_http_parse` returns: -1, 0, or the length of the head. -/
inductive HttpParse where
  | error
  | incomplete
  | message (hm : HttpMessage)
  deriving DecidableEq

/-- Whether a first word of more than five characters starts with `HTTP/`. -/
def httpPrefix (s : Bytes) : Bool := 5 < s.length && sameNoCase (s.take 5) (CStr.lit "HTTP/").bytes

/-- The version, where there is one, is `HTTP/` and two digits with a dot in between. -/
def versionOk (proto : Bytes) : Bool :=
  proto == [] || httpPrefix proto && proto.length == 8 &&
    isdigit (proto.getD 5 0) && proto.getD 6 0 == 46 && isdigit (proto.getD 7 0)

/-- The length the headers give the body; the inner `none` stands for a length that is no number. -/
def declaredLength (headers : List HttpHeader) : Option (Option Nat) :=
  (mgHttpGetHeader headers (CStr.lit "Content-Length")).map mgToSizeT

/-- The lengths of a body and its message. Without a declared length the body is endless, unless
the message has none. -/
def bodyLengths (isResponse : Bool) (method uri : Bytes) (reqLen : Nat) (declared : Option Nat) :
    Nat × Nat :=
  let body := declared.getD sizeMax
  let message := (declared.map fun n => (reqLen + n) % 2 ^ 32).getD sizeMax
  if body = sizeMax ∧ (if isResponse then sameNoCase uri (CStr.lit "204").bytes
      else !sameNoCase method (CStr.lit "PUT").bytes && !sameNoCase method (CStr.lit "POST").bytes)
  then (0, reqLen)
  else (body, message)

/-- The end of `mg_http_parse`: its checks on the first line and what it makes of the headers. -/
def checkMessage (reqLen : Nat) (method target proto : Bytes)
    (headers : Option (List HttpHeader)) : HttpParse :=
  let isResponse := httpPrefix method
  let uri := target.takeWhile (· != 63)
  if !isResponse && !versionOk proto then .error
  else if method = [] ∨ uri = [] then .error
  else
    match headers with
    | none => .error
    | some headers =>
      if declaredLength headers = some none then .error
      else
        let (bodyLen, messageLen) :=
          bodyLengths isResponse method uri reqLen ((declaredLength headers).bind id)
        if messageLen < reqLen then .error
        else .message ⟨method, uri, target.drop (uri.length + 1), proto, headers, reqLen,
          bodyLen, messageLen⟩

/-- `mg_http_parse` on a head. -/
def parseHead (head : Bytes) : HttpParse :=
  let (method, s) := scanChars (fun _ => false) head
  let (target, s) := scanChars (fun _ => false) (skipSpaces s)
  match skiptorn (skipSpaces s) with
  | none => .incomplete -- `return false`
  | some (proto, s) =>
    checkMessage head.length method target proto (mgHttpParseHeaders mgMaxHttpHeaders s)

/-- `mg_http_parse` -/
def mgHttpParse (buf : Bytes) : HttpParse :=
  let reqLen := mgHttpGetRequestLen buf
  if reqLen < 0 then .error
  else if reqLen = 0 then .incomplete
  else parseHead (buf.take reqLen.toNat)

/-! ## Where a head ends -/

/-- A head ends within what has been read, and before that nothing is decided. -/
theorem requestLenFrom_take {i : Nat} {p2 p1 : UInt8} {s : Bytes} {n : Nat}
    (h : requestLenFrom i p2 p1 s = n) (hn : 0 < n) :
    i < n ∧ n ≤ i + s.length ∧ ∀ k, i + k < n → requestLenFrom i p2 p1 (s.take k) = 0 := by
  induction s generalizing i p2 p1 with
  | nil =>
    rw [requestLenFrom] at h
    omega
  | cons b s ih =>
    rw [requestLenFrom] at h
    split at h
    · omega
    · next hok =>
      split at h
      · refine ⟨by omega, by rw [List.length_cons]; omega, fun k hk => ?_⟩
        obtain rfl : k = 0 := by omega
        rfl
      · next hend =>
        obtain ⟨hlt, hle, hbefore⟩ := ih h
        refine ⟨by omega, by rw [List.length_cons]; omega, fun k hk => ?_⟩
        rcases k with _ | k
        · rfl
        · rw [List.take_succ_cons, requestLenFrom, if_neg hok, if_neg hend]
          exact hbefore k (by omega)

/-- No proper prefix of a head is one. -/
theorem mgHttpParse_take {s : Bytes} {n : Nat} (h : mgHttpGetRequestLen s = n) (hn : 0 < n)
    {k : Nat} (hk : k < n) : mgHttpParse (s.take k) = .incomplete := by
  have hzero : mgHttpGetRequestLen (s.take k) = 0 :=
    (requestLenFrom_take h hn).2.2 k (by omega)
  unfold mgHttpParse
  simp only [hzero, lt_irrefl, if_false, if_true]

/-! ## Characters -/

theorem continues_append {k : Nat} {s : Bytes} (h : continues k s = true) (t : Bytes) :
    continues k (s ++ t) = true := by
  simp only [continues, Bool.and_eq_true, decide_eq_true_eq, List.length_append] at h ⊢
  rw [List.take_append_of_le_length h.1]
  exact ⟨by omega, h.2⟩

theorem clen_le (s : Bytes) : clen s ≤ s.length := by
  have hcont : ∀ {k : Nat} {s : Bytes}, continues k s = true → k ≤ s.length := fun h => by
    simp only [continues, Bool.and_eq_true, decide_eq_true_eq] at h
    exact h.1
  cases s with
  | nil => exact Nat.zero_le _
  | cons c s =>
    rw [clen, List.length_cons]
    split_ifs with h1 h2 h3 h4
    · omega
    · have := hcont h2.2
      omega
    · have := hcont h3.2
      omega
    · have := hcont h4.2
      omega
    · omega

/-- The three kinds of leading bytes differ. -/
theorem leading_distinct (c : UInt8) :
    (c &&& 0xF0 = 0xE0 → c &&& 0xE0 ≠ 0xC0) ∧
      (c &&& 0xF8 = 0xF0 → c &&& 0xE0 ≠ 0xC0 ∧ c &&& 0xF0 ≠ 0xE0) :=
  forall_byte (P := fun c => (c &&& 0xF0 = 0xE0 → c &&& 0xE0 ≠ 0xC0) ∧
    (c &&& 0xF8 = 0xF0 → c &&& 0xE0 ≠ 0xC0 ∧ c &&& 0xF0 ≠ 0xE0)) (by decide +kernel) c

/-- A character is one whatever follows. -/
theorem clen_append {s : Bytes} (h : clen s ≠ 0) (t : Bytes) : clen (s ++ t) = clen s := by
  cases s with
  | nil => exact absurd rfl h
  | cons c s =>
    obtain ⟨hthree, hfour⟩ := leading_distinct c
    rw [List.cons_append]
    rw [clen] at h ⊢
    rw [clen]
    split_ifs at h with h1 h2 h3 h4
    · rw [if_pos h1, if_pos h1]
    · rw [if_neg h1, if_neg h1, if_pos h2, if_pos ⟨h2.1, continues_append h2.2 t⟩]
    · have hne := hthree h3.1
      rw [if_neg h1, if_neg h1, if_neg h2, if_neg (fun hc => hne hc.1), if_pos h3,
        if_pos ⟨h3.1, continues_append h3.2 t⟩]
    · obtain ⟨hne, hne'⟩ := hfour h4.1
      rw [if_neg h1, if_neg h1, if_neg h2, if_neg (fun hc => hne hc.1), if_neg h3,
        if_neg (fun hc => hne' hc.1), if_pos h4, if_pos ⟨h4.1, continues_append h4.2 t⟩]
    · exact absurd rfl h

section Scan

variable {stop : UInt8 → Bool}

/-- As many turns as there are bytes are enough. -/
theorem charsLen_fuel {m n : Nat} {s : Bytes} (hm : s.length ≤ m) (hn : s.length ≤ n) :
    charsLen stop m s = charsLen stop n s := by
  induction m generalizing n s with
  | zero =>
    obtain rfl := List.length_eq_zero_iff.mp (Nat.le_zero.mp hm)
    cases n <;> rfl
  | succ m ih =>
    cases s with
    | nil => cases n <;> rfl
    | cons b s =>
      rw [List.length_cons] at hm hn
      obtain ⟨n, rfl⟩ : ∃ k, n = k + 1 := ⟨n - 1, by omega⟩
      rw [charsLen, charsLen]
      split
      · rfl
      · next hstop =>
        have hpos : clen (b :: s) ≠ 0 := fun h0 => hstop (.inr h0)
        have hlen : ((b :: s).drop (clen (b :: s))).length ≤ s.length := by
          rw [List.length_drop, List.length_cons]
          omega
        rw [ih (n := n) (by omega) (by omega)]

/-- All of it is characters, none of which starts with a `stop`. -/
def Chars (stop : UInt8 → Bool) (l : Bytes) : Prop := charsLen stop l.length l = l.length

instance (l : Bytes) : Decidable (Chars stop l) := inferInstanceAs (Decidable (_ = _))

/-- What ends a run of characters. -/
def EndsChars (stop : UInt8 → Bool) (t : Bytes) : Prop := ∀ b ∈ t.head?, stop b ∨ clen t = 0

theorem charsLen_append {l t : Bytes} (ht : EndsChars stop t) {n : Nat}
    (hn : (l ++ t).length ≤ n) (hl : Chars stop l) : charsLen stop n (l ++ t) = l.length := by
  induction hk : l.length using Nat.strong_induction_on generalizing l n with
  | _ k ih =>
    subst hk
    cases l with
    | nil =>
      cases t with
      | nil => cases n <;> rfl
      | cons b t =>
        rcases n with _ | n
        · cases hn
        · rw [List.nil_append, charsLen, if_pos (ht b rfl)]
          rfl
    | cons b l =>
      rcases n with _ | n
      · cases hn
      rw [Chars, List.length_cons, charsLen] at hl
      split at hl
      · omega
      · next hgo =>
        rw [not_or] at hgo
        have hle := clen_le (b :: l)
        have hsame : clen (b :: (l ++ t)) = clen (b :: l) := clen_append hgo.2 t
        have hdrop : (b :: (l ++ t)).drop (clen (b :: l)) = (b :: l).drop (clen (b :: l)) ++ t :=
          List.drop_append_of_le_length hle
        have hrest : ((b :: l).drop (clen (b :: l))).length = l.length + 1 - clen (b :: l) := by
          rw [List.length_drop, List.length_cons]
        have hshort : ((b :: l).drop (clen (b :: l))).length ≤ l.length := by omega
        have hchars : Chars stop ((b :: l).drop (clen (b :: l))) := by
          rw [Chars, charsLen_fuel le_rfl hshort]
          omega
        rw [List.cons_append, charsLen, hsame, if_neg (not_or.mpr hgo), hdrop,
          ih _ (by rw [hrest, List.length_cons]; omega) _ hchars rfl, hrest, List.length_cons]
        · rw [List.length_cons] at hle
          omega
        · rw [List.length_append, hrest]
          simp only [List.cons_append, List.length_cons, List.length_append] at hn
          omega

theorem scanChars_append {l t : Bytes} (hl : Chars stop l) (ht : EndsChars stop t) :
    scanChars stop (l ++ t) = (l, t) := by
  rw [scanChars, charsLen_append ht le_rfl hl, List.splitAt_eq, List.take_left, List.drop_left]

/-- Printed characters of ASCII. -/
theorem chars_of_visible {l : Bytes} (h : ∀ b ∈ l, 32 < b ∧ b ≤ 126 ∧ stop b = false) :
    Chars stop l := by
  induction l with
  | nil => rfl
  | cons b l ih =>
    obtain ⟨⟨hlo, hhi, hstop⟩, hl⟩ := List.forall_mem_cons.mp h
    have hone : clen (b :: l) = 1 := by rw [clen, if_pos ⟨hlo, hhi⟩]
    rw [Chars, List.length_cons, charsLen, hone, if_neg (by rw [hstop]; simp), List.drop_one,
      List.tail_cons, ih hl, Nat.add_comm]

end Scan

/-! ## Heads written line by line -/

/-- A head: its first line and its headers. -/
structure HttpHead where
  method : Bytes
  target : Bytes
  proto : Bytes
  headers : List HttpHeader
  deriving DecidableEq

def crlf : Bytes := [13, 10]

namespace HttpHead

def firstLine (h : HttpHead) : Bytes := h.method ++ 32 :: (h.target ++ 32 :: h.proto)

def headerLine (x : HttpHeader) : Bytes := x.name ++ 58 :: 32 :: x.value

def lines (h : HttpHead) : List Bytes := h.firstLine :: h.headers.map headerLine

/-- Each line with its end, and an empty one behind them. -/
def bytes (h : HttpHead) : Bytes := h.lines.flatMap (· ++ crlf) ++ crlf

/-- What of a header's value counts. -/
def stripped (x : HttpHeader) : HttpHeader := ⟨x.name, trimBlanks (x.value.dropWhile isBlank)⟩

/-- The parts can be told apart: no line has an end in it, and the method, the target and the
names are runs of characters. -/
structure WellFormed (h : HttpHead) : Prop where
  text : ∀ l ∈ h.lines, ∀ b ∈ l, isok b = true ∧ inLine b = true
  method : Chars (fun _ => false) h.method
  target : h.target ≠ [] ∧ Chars (fun _ => false) h.target
  names : ∀ x ∈ h.headers, x.name ≠ [] ∧ Chars (· == 58) x.name
  count : h.headers.length ≤ mgMaxHttpHeaders

end HttpHead

/-- A line without its end leads past that end. -/
theorem requestLenFrom_line {l : Bytes} (hne : l ≠ [])
    (hl : ∀ b ∈ l, isok b = true ∧ inLine b = true) (i : Nat) (p2 p1 : UInt8) (s : Bytes) :
    requestLenFrom i p2 p1 (l ++ crlf ++ s) = requestLenFrom (i + l.length + 2) 13 10 s := by
  have hstep : ∀ (i : Nat) (p2 p1 b : UInt8) (s : Bytes), isok b = true → inLine b = true →
      requestLenFrom i p2 p1 (b :: s) = requestLenFrom (i + 1) p1 b s := by
    intro i p2 p1 b s hok hin
    have hb : b ≠ 10 := by
      rintro rfl
      cases hin
    rw [requestLenFrom, hok, if_neg (by simp), if_neg (by simp [hb])]
  -- The last byte of the line is not `\n`, so neither is this its end an empty line's.
  have hend : ∀ (i : Nat) (p2 p1 : UInt8), p1 ≠ 10 →
      requestLenFrom i p2 p1 (crlf ++ s) = requestLenFrom (i + 2) 13 10 s := by
    intro i p2 p1 hp1
    have hok13 : isok 13 = true := rfl
    have hok10 : isok 10 = true := rfl
    rw [crlf, List.cons_append, requestLenFrom, hok13, if_neg (by simp), if_neg (by simp),
      List.cons_append, requestLenFrom, hok10, if_neg (by simp), if_neg (by simp [hp1]),
      List.nil_append]
  induction l generalizing i p2 p1 with
  | nil => exact absurd rfl hne
  | cons b l ih =>
    obtain ⟨⟨hok, hin⟩, hl⟩ := List.forall_mem_cons.mp hl
    rw [List.cons_append, List.cons_append, hstep _ _ _ _ _ hok hin]
    cases l with
    | nil =>
      have hb : b ≠ 10 := by
        rintro rfl
        cases hin
      rw [List.nil_append, hend _ _ _ hb, List.length_singleton]
    | cons c l =>
      rw [ih (List.cons_ne_nil c l) hl, List.length_cons (a := b)]
      congr 1
      omega

theorem requestLenFrom_lines {ls : List Bytes} (hne : ∀ l ∈ ls, l ≠ [])
    (hls : ∀ l ∈ ls, ∀ b ∈ l, isok b = true ∧ inLine b = true) {i : Nat} (hi : 2 < i) (s : Bytes) :
    requestLenFrom i 13 10 (ls.flatMap (· ++ crlf) ++ (crlf ++ s)) =
      i + (ls.flatMap (· ++ crlf)).length + 2 := by
  induction ls generalizing i with
  | nil =>
    have hok13 : isok 13 = true := rfl
    have hok10 : isok 10 = true := rfl
    rw [List.flatMap_nil, List.nil_append, crlf, List.cons_append, requestLenFrom, hok13,
      if_neg (by simp), if_neg (by simp), List.cons_append, requestLenFrom, hok10,
      if_neg (by simp), if_pos (.inr ⟨by omega, rfl, rfl, rfl⟩), List.length_nil]
    push_cast
    omega
  | cons l ls ih =>
    rw [List.forall_mem_cons] at hne hls
    rw [List.flatMap_cons, List.append_assoc, requestLenFrom_line hne.1 hls.1,
      ih hne.2 hls.2 (by omega)]
    simp only [List.length_append, crlf, List.length_cons, List.length_nil]
    push_cast
    omega

theorem mgHttpGetRequestLen_head {h : HttpHead} (hh : h.WellFormed) (s : Bytes) :
    mgHttpGetRequestLen (h.bytes ++ s) = h.bytes.length := by
  have htext := hh.text
  rw [HttpHead.lines, List.forall_mem_cons] at htext
  have hfirst : h.firstLine ≠ [] := by simp [HttpHead.firstLine]
  have hlen : 2 ≤ h.firstLine.length := by
    simp only [HttpHead.firstLine, List.length_append, List.length_cons]
    omega
  have hheaders : ∀ l ∈ h.headers.map HttpHead.headerLine, l ≠ [] := by
    rw [List.forall_mem_map]
    exact fun x _ => by simp [HttpHead.headerLine]
  rw [mgHttpGetRequestLen, HttpHead.bytes, HttpHead.lines, List.flatMap_cons, List.append_assoc,
    List.append_assoc, requestLenFrom_line hfirst htext.1,
    requestLenFrom_lines hheaders htext.2 (by omega)]
  simp only [List.length_append, crlf, List.length_cons, List.length_nil]
  push_cast
  omega

theorem skiptorn_line {l : Bytes} (hl : ∀ b ∈ l, inLine b = true) (s : Bytes) :
    skiptorn (l ++ crlf ++ s) = some (l, s) := by
  have hend : inLine 13 = false := rfl
  have htake : (l ++ crlf ++ s).takeWhile inLine = l := by
    rw [List.append_assoc, List.takeWhile_append_of_pos hl, crlf, List.cons_append,
      List.takeWhile_cons_of_neg (by simp [hend]), List.append_nil]
  have hdrop : (l ++ crlf ++ s).dropWhile inLine = 13 :: 10 :: s := by
    rw [List.append_assoc, List.dropWhile_append_of_pos hl, crlf, List.cons_append,
      List.dropWhile_cons_of_neg (by simp [hend])]
    rfl
  rw [skiptorn, hdrop, htake]
  rfl

/-- Skipping in front of a line's end does not reach it. -/
theorem dropWhile_line {p : UInt8 → Bool} (hp : p 13 = false) (l s : Bytes) :
    (l ++ crlf ++ s).dropWhile p = l.dropWhile p ++ crlf ++ s := by
  induction l with
  | nil =>
    rw [List.nil_append, crlf, List.cons_append, List.dropWhile_cons_of_neg (by simp [hp])]
    rfl
  | cons b l ih =>
    rw [List.cons_append, List.cons_append, List.dropWhile_cons, List.dropWhile_cons]
    split
    · exact ih
    · rfl

theorem mgHttpParseHeaders_lines {xs : List HttpHeader} {n : Nat} (hn : xs.length ≤ n)
    (htext : ∀ l ∈ xs.map HttpHead.headerLine, ∀ b ∈ l, isok b = true ∧ inLine b = true)
    (hnames : ∀ x ∈ xs, x.name ≠ [] ∧ Chars (· == 58) x.name) (s : Bytes) :
    mgHttpParseHeaders n ((xs.map HttpHead.headerLine).flatMap (· ++ crlf) ++ (crlf ++ s)) =
      some (xs.map HttpHead.stripped) := by
  induction xs generalizing n with
  | nil =>
    cases n with
    | zero => rfl
    | succ n =>
      rw [List.map_nil, List.flatMap_nil, List.nil_append, crlf, List.cons_append,
        mgHttpParseHeaders, if_pos (.inr ⟨rfl, rfl⟩), List.map_nil]
  | cons x xs ih =>
    obtain ⟨n, rfl⟩ : ∃ k, n = k + 1 := ⟨n - 1, by rw [List.length_cons] at hn; omega⟩
    rw [List.map_cons, List.forall_mem_cons] at htext
    rw [List.forall_mem_cons] at hnames
    rw [List.length_cons] at hn
    have hrest := ih (n := n) (by omega) htext.2 hnames.2
    have hinline : ∀ b ∈ (32 :: x.value).dropWhile isBlank, inLine b = true := fun b hb =>
      (htext.1 b (List.mem_append_right x.name (List.mem_cons_of_mem _
        ((List.dropWhile_sublist isBlank).subset hb)))).2
    have hfirst : ∀ b ∈ x.name.head?, inLine b = true := fun b hb =>
      (htext.1 b (List.mem_append_left _ (List.mem_of_mem_head? hb))).2
    generalize htail : (xs.map HttpHead.headerLine).flatMap (· ++ crlf) ++ (crlf ++ s) = tail
      at hrest ⊢
    have hshape : ((x :: xs).map HttpHead.headerLine).flatMap (· ++ crlf) ++ (crlf ++ s) =
        x.name ++ (58 :: (32 :: x.value ++ crlf ++ tail)) := by
      rw [List.map_cons, List.flatMap_cons, List.append_assoc, htail, HttpHead.headerLine]
      simp only [List.append_assoc, List.cons_append]
    have hscan := scanChars_append hnames.1.2 (t := 58 :: (32 :: x.value ++ crlf ++ tail))
      fun b hb => .inl (by
        rw [List.head?_cons, Option.mem_some_iff] at hb
        rw [← hb]
        rfl)
    obtain ⟨b, name, hname⟩ := List.exists_cons_of_ne_nil hnames.1.1
    have hb : b ≠ 10 ∧ b ≠ 13 := by
      have hin := hfirst b (by rw [hname]; rfl)
      simpa [inLine] using hin
    have hcolon : clen (58 :: (32 :: x.value ++ crlf ++ tail)) ≠ 0 := by
      rw [clen, if_pos (by decide)]
      exact one_ne_zero
    have hcons : ∀ t, x.name ++ t = b :: (name ++ t) := fun t => by rw [hname, List.cons_append]
    rw [hcons] at hscan
    rw [hshape, hcons, mgHttpParseHeaders, if_neg (by simp [hb])]
    simp only [hscan]
    rw [if_neg (not_or.mpr ⟨hnames.1.1, hcolon⟩), dropWhile_line rfl, skiptorn_line hinline,
      Option.bind_some, hrest]
    rfl

/-- **Heads are read as written.** A head written line by line is found to end where it does and
falls into the parts it was written from, whatever is received behind it. -/
theorem mgHttpParse_head {h : HttpHead} (hh : h.WellFormed) (s : Bytes) :
    mgHttpParse (h.bytes ++ s) = checkMessage h.bytes.length h.method h.target (skipSpaces h.proto)
      (some (h.headers.map HttpHead.stripped)) := by
  have hlen := mgHttpGetRequestLen_head hh s
  have hpos : 0 < h.bytes.length := by
    simp only [HttpHead.bytes, List.length_append, crlf, List.length_cons, List.length_nil]
    omega
  have hspace : ∀ t, EndsChars (fun _ => false) (32 :: t) := fun t b hb => by
    rw [List.head?_cons, Option.mem_some_iff] at hb
    exact .inr rfl
  have htext := hh.text
  rw [HttpHead.lines, List.forall_mem_cons] at htext
  obtain ⟨c, target, htarget⟩ := List.exists_cons_of_ne_nil hh.target.1
  -- The target starts with a character, so the blank in front of it is the only one.
  have hc : (c == 32) = false := by
    rw [beq_eq_false_iff_ne]
    rintro rfl
    have hchars := hh.target.2
    rw [htarget, Chars, List.length_cons, charsLen, if_pos (.inr rfl)] at hchars
    omega
  have hproto : ∀ b ∈ skipSpaces h.proto, inLine b = true := fun b hb =>
    (htext.1 b (List.mem_append_right _ (List.mem_cons_of_mem _ (List.mem_append_right _
      (List.mem_cons_of_mem _ ((List.dropWhile_sublist _).subset hb)))))).2
  unfold mgHttpParse
  simp only [hlen]
  rw [if_neg (by omega), if_neg (by omega), Int.toNat_natCast, List.take_left]
  generalize htail : (h.headers.map HttpHead.headerLine).flatMap (· ++ crlf) ++ crlf = tail
  have hshape : h.bytes = h.method ++ 32 :: (h.target ++ 32 :: (h.proto ++ crlf ++ tail)) := by
    rw [HttpHead.bytes, HttpHead.lines, List.flatMap_cons, HttpHead.firstLine, ← htail]
    simp only [List.append_assoc, List.cons_append]
  have hskip : skipSpaces (32 :: (h.target ++ 32 :: (h.proto ++ crlf ++ tail))) =
      h.target ++ 32 :: (h.proto ++ crlf ++ tail) := by
    rw [skipSpaces, List.dropWhile_cons_of_pos rfl, htarget, List.cons_append,
      List.dropWhile_cons_of_neg (by rw [hc]; simp)]
  have hskip' : skipSpaces (32 :: (h.proto ++ crlf ++ tail)) =
      skipSpaces h.proto ++ crlf ++ tail := by
    rw [skipSpaces, List.dropWhile_cons_of_pos rfl, dropWhile_line rfl, skipSpaces]
  have hheaders := mgHttpParseHeaders_lines hh.count htext.2 hh.names []
  rw [List.append_nil, htail] at hheaders
  have hmethod : scanChars (fun _ => false) h.bytes =
      (h.method, 32 :: (h.target ++ 32 :: (h.proto ++ crlf ++ tail))) := by
    rw [hshape, scanChars_append hh.method (hspace _)]
  have hscan := scanChars_append hh.target.2 (hspace (h.proto ++ crlf ++ tail))
  unfold parseHead
  simp only [hmethod, hskip, hscan, hskip', skiptorn_line hproto, hheaders]

end NetMon.Api
