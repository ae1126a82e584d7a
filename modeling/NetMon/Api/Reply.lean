import NetMon.Api.Http
import NetMon.Lib.CJsonPrint

/-!
# Replies

`send_json` in `api_routes.c`, over the server's `mg_http_reply`. A reply is a head written line
by line and the body behind it, so a client that parses it the server's own way finds the code,
the headers, and the body as long as it is (`replyHead_parsed`).
-/

namespace NetMon.Api

open NetMon.Lib

/-- `%-10lu` in a field of ten. -/
def lengthField (n : Nat) : Bytes := (digitBytes (natDigits n) ++ List.replicate 10 32).take 10

theorem lengthField_length (n : Nat) : (lengthField n).length = 10 := by
  rw [lengthField, List.length_take, List.length_append, List.length_replicate]
  omega

/-- What `mg_http_reply` puts in front of a body of `n` bytes, with the code 200. -/
def replyHeader (headers : CStr) (n : Nat) : Bytes :=
  (CStr.lit "HTTP/1.1 200 OK\r\n").bytes ++ (headers.bytes ++
    ((CStr.lit "Content-Length: ").bytes ++ (lengthField n ++ (CStr.lit " \r\n\r\n").bytes)))

/-- `mg_http_reply` with the format `%s`. -/
def mgHttpReply (headers : CStr) (body : Bytes) : Bytes := replyHeader headers body.length ++ body

def jsonHeaders : CStr :=
  CStr.lit "Content-Type: application/json\r\nAccess-Control-Allow-Origin: *\r\n"

/-- `send_json`; a document that could not be printed is sent as an empty text. -/
def sendJson (json : CJson) : Bytes :=
  mgHttpReply jsonHeaders (json.printUnformatted.getD [])

/-- The length of the header. -/
def headerWidth : Nat := 112

theorem replyHeader_length (n : Nat) : (replyHeader jsonHeaders n).length = headerWidth := by
  have hstatus : (CStr.lit "HTTP/1.1 200 OK\r\n").bytes.length = 17 := by decide +kernel
  have hheaders : jsonHeaders.bytes.length = 64 := by decide +kernel
  have hname : (CStr.lit "Content-Length: ").bytes.length = 16 := by decide +kernel
  have hend : (CStr.lit " \r\n\r\n").bytes.length = 5 := by decide +kernel
  simp only [replyHeader, List.length_append, hstatus, hheaders, hname, lengthField_length, hend,
    headerWidth]

theorem replyHeader_nonul (headers : CStr) (n : Nat) : 0 ∉ replyHeader headers n := by
  have hfield : 0 ∉ lengthField n := by
    intro h
    rcases List.mem_append.mp (List.mem_of_mem_take h) with h | h
    · exact absurd (digitBytes_isdigit _ 0 h) (by decide)
    · exact absurd (List.eq_of_mem_replicate h) (by decide)
  simp only [replyHeader, List.mem_append, not_or]
  exact ⟨CStr.nonul _, CStr.nonul _, CStr.nonul _, hfield, CStr.nonul _⟩

theorem sendJson_eq {json : CJson} {t : Bytes} (h : json.printUnformatted = some t) :
    sendJson json = replyHeader jsonHeaders t.length ++ t := by
  rw [sendJson, h]
  rfl

theorem sendJson_length {json : CJson} {t : Bytes} (h : json.printUnformatted = some t) :
    (sendJson json).length = headerWidth + json.width := by
  rw [sendJson_eq h, List.length_append, replyHeader_length, CJson.printUnformatted_length h]

/-! ## Every code -/

/-- `mg_http_status_code_str`, for the codes the server sends. -/
def mgHttpStatusCodeStr (code : Nat) : CStr :=
  match code with
  | 200 => CStr.lit "OK"
  | 204 => CStr.lit "No Content"
  | 400 => CStr.lit "Bad Request"
  | 404 => CStr.lit "Not Found"
  | 411 => CStr.lit "Length Required"
  | 500 => CStr.lit "Internal Server Error"
  | _ => CStr.empty

/-- `mg_http_reply` -/
def mgHttpReplyWith (code : Nat) (headers : CStr) (body : Bytes) : Bytes :=
  (CStr.lit "HTTP/1.1 ").bytes ++ decimal code ++ (CStr.lit " ").bytes ++
    (mgHttpStatusCodeStr code).bytes ++ (CStr.lit "\r\n").bytes ++ headers.bytes ++
    (CStr.lit "Content-Length: ").bytes ++ lengthField body.length ++
    (CStr.lit " \r\n\r\n").bytes ++ body

/-! ## Replies as messages -/

/-- Header lines as they are handed to `mg_http_reply`. -/
def headerText (xs : List HttpHeader) : Bytes := (xs.map HttpHead.headerLine).flatMap (· ++ crlf)

/-- The head of a reply: the code and its reason, the handler's headers and the length. -/
def replyHead (code : Nat) (xs : List HttpHeader) (n : Nat) : HttpHead where
  method := CStr.chars "HTTP/1.1"
  target := decimal code
  proto := (mgHttpStatusCodeStr code).bytes
  headers := xs ++ [⟨CStr.chars "Content-Length", lengthField n ++ [32]⟩]

theorem mgHttpReplyWith_head (code : Nat) {headers : CStr} {xs : List HttpHeader}
    (hheaders : headers.bytes = headerText xs) (body : Bytes) :
    mgHttpReplyWith code headers body = (replyHead code xs body.length).bytes ++ body := by
  have hproto : (CStr.lit "HTTP/1.1 ").bytes = CStr.chars "HTTP/1.1" ++ [32] := rfl
  have hspace : (CStr.lit " ").bytes = [32] := rfl
  have hline : (CStr.lit "\r\n").bytes = crlf := rfl
  have hname : (CStr.lit "Content-Length: ").bytes = CStr.chars "Content-Length" ++ [58, 32] := rfl
  have hend : (CStr.lit " \r\n\r\n").bytes = [32] ++ crlf ++ crlf := rfl
  rw [mgHttpReplyWith, hproto, hspace, hline, hname, hend, hheaders, HttpHead.bytes,
    HttpHead.lines, List.flatMap_cons, HttpHead.firstLine, replyHead, List.map_append,
    List.flatMap_append, headerText, List.map_singleton, List.flatMap_singleton,
    HttpHead.headerLine]
  simp only [List.append_assoc, List.cons_append, List.nil_append]

/-- The codes the server sends. -/
def sentCodes : List Nat := [200, 204, 400, 404, 411, 500]

/-- Header lines that say nothing about the length. -/
structure PlainHeaders (xs : List HttpHeader) : Prop where
  text : ∀ x ∈ xs, ∀ b ∈ HttpHead.headerLine x, isok b = true ∧ inLine b = true
  names : ∀ x ∈ xs, x.name ≠ [] ∧ Chars (· == 58) x.name
  others : ∀ x ∈ xs, sameNoCase x.name (CStr.lit "Content-Length").bytes = false
  count : xs.length < mgMaxHttpHeaders

/-- A length in its field is its digits and blanks. -/
theorem lengthField_eq {n : Nat} (hn : n < 2 ^ 32) :
    lengthField n ++ [32] =
      digitBytes (natDigits n) ++ List.replicate (11 - (natDigits n).length) 32 := by
  have hlen : (natDigits n).length ≤ 10 := natDigits_length_le (by decide) (by omega)
  have hdigits : (digitBytes (natDigits n)).length = (natDigits n).length := by
    rw [digitBytes, List.length_map]
  have hblank : [(32 : UInt8)] = List.replicate 1 32 := rfl
  rw [lengthField, List.take_append, List.take_of_length_le (by omega), hdigits,
    List.take_replicate, Nat.min_eq_left (by omega), List.append_assoc, hblank,
    List.replicate_append_replicate, show 10 - (natDigits n).length + 1 =
      11 - (natDigits n).length by omega]

theorem sizeDigits_digits {ds : Bytes} (hds : ∀ b ∈ ds, isdigit b = true) {m : Nat}
    (h : ds.foldl (fun n b => 10 * n + (b.toNat - 48)) m < 2 ^ 32) :
    sizeDigits m ds = some (ds.foldl (fun n b => 10 * n + (b.toNat - 48)) m) := by
  have hmono : ∀ (ds : Bytes) (m : Nat), m ≤ ds.foldl (fun n b => 10 * n + (b.toNat - 48)) m := by
    intro ds
    induction ds with
    | nil => exact fun m => le_rfl
    | cons b ds ih =>
      intro m
      rw [List.foldl_cons]
      exact le_trans (by omega) (ih _)
  induction ds generalizing m with
  | nil => rfl
  | cons b ds ih =>
    rw [List.forall_mem_cons] at hds
    rw [List.foldl_cons] at h ⊢
    have hdigit := isdigit_iff.mp hds.1
    have hstep := (hmono ds (10 * m + (b.toNat - 48))).trans_lt h
    unfold sizeDigits sizeMax
    rw [if_neg (by omega), if_neg (by omega), Nat.mul_comm m 10]
    exact ih hds.2 h

/-- A length is read back from its digits and the blanks behind them. -/
theorem mgToSizeT_padded {ds : Bytes} (hds : ∀ b ∈ ds, isdigit b = true) (hne : ds ≠ [])
    (hval : digitsVal ds < 2 ^ 32) (k : Nat) :
    mgToSizeT (trimBlanks ((ds ++ List.replicate k 32).dropWhile isBlank)) =
      some (digitsVal ds) := by
  obtain ⟨d, ds', hcons⟩ := List.exists_cons_of_ne_nil hne
  have hnot : ∀ b, isdigit b = true → isBlank b = false := by
    intro b hb
    have hb' := isdigit_iff.mp hb
    simp only [isBlank, Bool.or_eq_false_iff, beq_eq_false_iff_ne, Ne, ← UInt8.toNat_inj]
    exact ⟨fun h => absurd (h ▸ hb'.1) (by decide), fun h => absurd (h ▸ hb'.1) (by decide)⟩
  have hd : isBlank d = false := hnot d (hds d (by rw [hcons]; exact List.mem_cons_self))
  have hfront : ∀ t, (ds ++ t).dropWhile isBlank = ds ++ t := fun t => by
    rw [hcons, List.cons_append, List.dropWhile_cons_of_neg (by simp [hd])]
  have hself : ds.dropWhile isBlank = ds := by
    have := hfront []
    rwa [List.append_nil] at this
  have htrim : trimBlanks (ds ++ List.replicate k 32) = ds := by
    have hlast : ds.rdropWhile isBlank = ds := by
      rw [List.rdropWhile_eq_self_iff]
      intro h
      rw [hnot _ (hds _ (List.getLast_mem h))]
      exact Bool.false_ne_true
    rw [trimBlanks]
    induction k with
    | zero => rw [List.replicate_zero, List.append_nil, hlast]
    | succ k ih =>
      rw [List.replicate_succ', ← List.append_assoc, List.rdropWhile_concat_pos _ _ _ rfl, ih]
  have hminus : ds.head? ≠ some 45 := by
    intro h
    have := hds 45 (List.mem_of_mem_head? h)
    cases this
  have htake : ds.takeWhile isdigit = ds := List.takeWhile_eq_self_iff.mpr hds
  have hdrop : ds.dropWhile isdigit = [] := List.dropWhile_eq_nil_iff.mpr hds
  have hsize : sizeDigits 0 ds = some (digitsVal ds) := sizeDigits_digits hds hval
  rw [hfront, htrim, mgToSizeT]
  simp only [hself, htake, hdrop, hsize]
  rw [if_neg hminus, if_neg (by simp [hcons])]

theorem decimal_visible_text (n : Nat) : ∀ b ∈ decimal n, 32 < b ∧ b ≤ 126 ∧ b ≠ 63 := by
  intro b hb
  have hb' := isdigit_iff.mp (isdigit_decimal n b hb)
  simp only [UInt8.lt_iff_toNat_lt, UInt8.le_iff_toNat_le, Ne, ← UInt8.toNat_inj]
  exact ⟨lt_of_lt_of_le (by decide) hb'.1, hb'.2.trans (by decide),
    fun h => absurd (h ▸ hb'.2) (by decide)⟩

theorem isok_of_visible {b : UInt8} (h : 32 ≤ b.toNat) : isok b = true ∧ inLine b = true := by
  simp only [isok, inLine, Bool.or_eq_true, Bool.and_eq_true, decide_eq_true_eq, bne_iff_ne, Ne,
    ← UInt8.toNat_inj, UInt8.le_iff_toNat_le]
  exact ⟨.inr h, fun h10 => absurd (h10 ▸ h) (by decide), fun h13 => absurd (h13 ▸ h) (by decide)⟩

/-- Printed characters and blanks. -/
def Printable (s : Bytes) : Prop := (s.all fun b => 32 ≤ b.toNat) = true

instance (s : Bytes) : Decidable (Printable s) := inferInstanceAs (Decidable (_ = true))

theorem Printable.text {s : Bytes} (h : Printable s) : ∀ b ∈ s, isok b = true ∧ inLine b = true :=
  fun b hb => isok_of_visible (by simpa using List.all_eq_true.mp h b hb)

theorem replyHead_wellFormed {code : Nat} (hcode : code ∈ sentCodes) {xs : List HttpHeader}
    (hxs : PlainHeaders xs) {n : Nat} (hn : n < 2 ^ 32) : (replyHead code xs n).WellFormed := by
  have hreason : ∀ code ∈ sentCodes, Printable (mgHttpStatusCodeStr code).bytes := by decide
  have hlength : ∀ b ∈ lengthField n ++ [32], isok b = true ∧ inLine b = true := by
    rw [lengthField_eq hn, List.forall_mem_append]
    refine ⟨fun b hb => isok_of_visible ?_, fun b hb => ?_⟩
    · have hb' := isdigit_iff.mp (digitBytes_isdigit _ b hb)
      exact le_trans (by decide) hb'.1
    · rw [List.eq_of_mem_replicate hb]
      exact isok_of_visible (by decide)
  have hname : ∀ b ∈ CStr.chars "Content-Length", isok b = true ∧ inLine b = true :=
    Printable.text (s := CStr.chars "Content-Length") rfl
  have hspace : isok 32 = true ∧ inLine 32 = true := ⟨rfl, rfl⟩
  have hcolon : isok 58 = true ∧ inLine 58 = true := ⟨rfl, rfl⟩
  constructor
  · rw [HttpHead.lines, List.forall_mem_cons, List.forall_mem_map]
    constructor
    · intro b hb
      simp only [HttpHead.firstLine, replyHead, List.mem_append, List.mem_cons] at hb
      rcases hb with hb | rfl | hb | rfl | hb
      · exact Printable.text (s := CStr.chars "HTTP/1.1") rfl b hb
      · exact hspace
      · exact isok_of_visible (UInt8.lt_iff_toNat_lt.mp (decimal_visible_text code b hb).1).le
      · exact hspace
      · exact (hreason code hcode).text b hb
    · intro x hx
      rcases List.mem_append.mp hx with hx | hx
      · exact hxs.text x hx
      · rw [List.mem_singleton.mp hx]
        intro b hb
        simp only [HttpHead.headerLine, List.mem_append (s := CStr.chars "Content-Length"),
          List.mem_cons] at hb
        rcases hb with hb | rfl | rfl | hb
        · exact hname b hb
        · exact hcolon
        · exact hspace
        · exact hlength b hb
  · rfl
  · exact ⟨decimal_ne_nil code, chars_of_visible fun b hb =>
      ⟨(decimal_visible_text code b hb).1, (decimal_visible_text code b hb).2.1, rfl⟩⟩
  · intro x hx
    rcases List.mem_append.mp hx with hx | hx
    · exact hxs.names x hx
    · rw [List.mem_singleton.mp hx]
      exact ⟨List.cons_ne_nil _ _, rfl⟩
  · have := hxs.count
    rw [replyHead, List.length_append, List.length_singleton]
    omega

theorem mgHttpGetHeader_append {hs : List HttpHeader} {name : CStr}
    (hhs : ∀ x ∈ hs, sameNoCase x.name name.bytes = false) {x : HttpHeader}
    (hx : sameNoCase x.name name.bytes = true) (tail : List HttpHeader) :
    mgHttpGetHeader (hs ++ x :: tail) name = some x.value := by
  have hnone : hs.find? (fun h => sameNoCase h.name name.bytes) = none :=
    List.find?_eq_none.mpr fun y hy => by rw [hhs y hy]; exact Bool.false_ne_true
  have hfirst : (x :: tail).find? (fun h => sameNoCase h.name name.bytes) = some x :=
    List.find?_cons_of_pos hx
  rw [mgHttpGetHeader, List.find?_append, hnone, Option.none_or, hfirst]
  rfl

/-- The head of a response with its code that declares a body of `n` bytes. -/
structure Announces (head : HttpHead) (code n : Nat) : Prop where
  wellFormed : head.WellFormed
  method : head.method = CStr.chars "HTTP/1.1"
  target : head.target = decimal code
  declared : declaredLength (head.headers.map HttpHead.stripped) = some (some n)

/-- What a client learns from it. -/
def responseMessage (head : HttpHead) (code n : Nat) : HttpMessage where
  method := head.method
  uri := decimal code
  query := []
  proto := skipSpaces head.proto
  headers := head.headers.map HttpHead.stripped
  headLen := head.bytes.length
  bodyLen := n
  messageLen := head.bytes.length + n

theorem Announces.parsed {head : HttpHead} {code n : Nat} (h : Announces head code n)
    (hsize : head.bytes.length + n < 2 ^ 32) (t : Bytes) :
    mgHttpParse (head.bytes ++ t) = .message (responseMessage head code n) := by
  have hpos : 0 < head.bytes.length := by
    rw [HttpHead.bytes, List.length_append, crlf, List.length_cons]
    omega
  have hdigits : (decimal code).takeWhile (· != 63) = decimal code :=
    List.takeWhile_eq_self_iff.mpr fun b hb => by
      rw [bne_iff_ne]
      exact (decimal_visible_text code b hb).2.2
  have hlengths : bodyLengths true (CStr.chars "HTTP/1.1") (decimal code) head.bytes.length
      (some n) = (n, head.bytes.length + n) := by
    unfold bodyLengths sizeMax
    simp only [Option.getD_some, Option.map_some]
    rw [if_neg (by omega), Nat.mod_eq_of_lt hsize]
  have hresponse : httpPrefix (CStr.chars "HTTP/1.1") = true := rfl
  rw [mgHttpParse_head h.wellFormed, checkMessage]
  simp only [h.method, h.target, hresponse, hdigits, h.declared, Option.bind_some, id, hlengths]
  rw [if_neg (by simp), if_neg (by simp [decimal_ne_nil, CStr.chars]), if_neg (by simp),
    if_neg (by omega), List.drop_of_length_le (by omega), ← h.method]
  rfl

theorem replyHead_announces {code : Nat} (hcode : code ∈ sentCodes) {xs : List HttpHeader}
    (hxs : PlainHeaders xs) {n : Nat} (hn : n < 2 ^ 32) :
    Announces (replyHead code xs n) code n where
  wellFormed := replyHead_wellFormed hcode hxs hn
  method := rfl
  target := rfl
  declared := by
    have hhs : ∀ x ∈ xs.map HttpHead.stripped,
        sameNoCase x.name (CStr.lit "Content-Length").bytes = false :=
      List.forall_mem_map.mpr fun x hx => hxs.others x hx
    rw [replyHead, List.map_append, List.map_singleton, declaredLength,
      mgHttpGetHeader_append hhs rfl, Option.map_some, HttpHead.stripped, lengthField_eq hn]
    have hval := digitsVal_natDigits n
    have hback := mgToSizeT_padded (digitBytes_isdigit (natDigits n))
      (digitBytes_ne_nil (natDigits_ne_nil n)) (by rw [hval]; exact hn)
    rw [hval] at hback
    exact congrArg some (hback _)

/-- **Replies are whole messages.** A reply is parsed, by the parser of the server itself, as the
response with its code that has its body, whatever is received behind it. -/
theorem replyHead_parsed {code : Nat} (hcode : code ∈ sentCodes) {headers : CStr}
    {xs : List HttpHeader} (hheaders : headers.bytes = headerText xs) (hxs : PlainHeaders xs)
    {body : Bytes} (hsize : (mgHttpReplyWith code headers body).length < 2 ^ 32) (t : Bytes) :
    mgHttpParse (mgHttpReplyWith code headers body ++ t) =
      .message (responseMessage (replyHead code xs body.length) code body.length) := by
  rw [mgHttpReplyWith_head code hheaders, List.length_append] at hsize
  rw [mgHttpReplyWith_head code hheaders, List.append_assoc]
  exact (replyHead_announces hcode hxs (by omega)).parsed hsize _

/-- A refusal without headers, and a half of the next message. -/
theorem replyHead_parsed_refusal :
    mgHttpParse (mgHttpReplyWith 411 CStr.empty [] ++ CStr.chars "HTTP/1.1 2") =
      .message (responseMessage (replyHead 411 [] ([] : Bytes).length) 411 ([] : Bytes).length) :=
  replyHead_parsed (by decide) rfl ⟨by decide, by decide, by decide, by decide⟩
    (by decide +kernel) _

theorem mgHttpReplyWith_ok (headers : CStr) (body : Bytes) :
    mgHttpReplyWith 200 headers body = mgHttpReply headers body := by
  simp only [mgHttpReplyWith, mgHttpReply, replyHeader, List.append_assoc]
  rfl

end NetMon.Api
