import NetMon.Api.Reply
import NetMon.Lib.CJsonParse

/-!
# Fetching a document

`http_get` in `sat_feeder.c` reads a reply into a buffer of `HTTP_BUF_SIZE` bytes and returns
what is behind the header. However the reply is cut into pieces on its way, the whole
document arrives exactly when the reply is shorter than the buffer (`received_iff`).
-/

namespace NetMon.Satellite

open NetMon.Lib NetMon.Api

/-- `HTTP_BUF_SIZE` -/
def httpBufSize : Nat := 8192

/-- The read loop: each `read` returns the next piece, or what fits of it. -/
def readResponse : List Bytes → Bytes → Bytes
  | [], buf => buf
  | piece :: pieces, buf =>
    let chunk := piece.take (httpBufSize - buf.length - 1)
    if chunk = [] then buf
    else
      let buf := buf ++ chunk
      if buf.length ≥ httpBufSize - 1 then buf else readResponse pieces buf

/-- What `strstr` finds behind the first empty line. -/
def afterBlankLine : Bytes → Option Bytes
  | [] => none
  | b :: s =>
    if [13, 10, 13, 10].isPrefixOf (b :: s) then some ((b :: s).drop 4) else afterBlankLine s

/-- `http_get`, given the pieces its socket delivers until the server closes it. -/
def httpGet (pieces : List Bytes) : Option CStr :=
  (afterBlankLine (CStr.ofBytes (readResponse pieces [])).bytes).map CStr.ofBytes

/-- The pieces a text may arrive in. -/
structure Delivers (pieces : List Bytes) (text : Bytes) : Prop where
  whole : pieces.flatten = text
  nonempty : ∀ p ∈ pieces, p ≠ []

/-- The document's whole text arrives, in whatever pieces, and the feeder's parser accepts
it. -/
def Received (json : CJson) : Prop :=
  ∃ t, json.printUnformatted = some t ∧ ∀ pieces, Delivers pieces (sendJson json) →
    ∃ body, httpGet pieces = some body ∧ body.bytes = t ∧ (CJson.parse body).isSome

/-! ## The read loop -/

/-- The loop keeps what the buffer has room for. -/
theorem readResponse_eq {pieces : List Bytes} (hne : ∀ p ∈ pieces, p ≠ []) {buf : Bytes}
    (hbuf : buf.length < httpBufSize - 1) :
    readResponse pieces buf = (buf ++ pieces.flatten).take (httpBufSize - 1) := by
  induction pieces generalizing buf with
  | nil => rw [List.flatten_nil, List.append_nil, List.take_of_length_le hbuf.le]; rfl
  | cons piece pieces ih =>
    rw [List.forall_mem_cons] at hne
    have hpos := List.length_pos_iff.mpr hne.1
    have hchunk : piece.take (httpBufSize - buf.length - 1) ≠ [] := by
      rw [Ne, List.take_eq_nil_iff]
      exact not_or.mpr ⟨by omega, hne.1⟩
    unfold readResponse
    simp only [if_neg hchunk]
    rw [List.length_append, List.length_take, List.flatten_cons]
    split
    · next hfull =>
      rw [← List.append_assoc, List.take_append_of_le_length (by rw [List.length_append]; omega),
        List.take_append, List.take_of_length_le hbuf.le,
        show httpBufSize - buf.length - 1 = httpBufSize - 1 - buf.length by omega]
    · next hroom =>
      have hall : piece.take (httpBufSize - buf.length - 1) = piece :=
        List.take_of_length_le (by omega)
      rw [hall, ih hne.2 (by rw [List.length_append]; omega), List.append_assoc]

theorem readResponse_all {pieces : List Bytes} {text : Bytes} (h : Delivers pieces text) :
    readResponse pieces [] = text.take (httpBufSize - 1) := by
  rw [readResponse_eq h.nonempty (by decide), List.nil_append, h.whole]

/-! ## The header -/

theorem afterBlankLine_cons {b : UInt8} (hb : b ≠ 13) (s : Bytes) :
    afterBlankLine (b :: s) = afterBlankLine s := by
  have hfirst : [13, 10, 13, 10].isPrefixOf (b :: s) = false := by
    show (13 == b && _) = false
    rw [beq_eq_false_iff_ne.mpr hb.symm, Bool.false_and]
  rw [afterBlankLine, hfirst]
  rfl

theorem afterBlankLine_append {l : Bytes} (hl : 13 ∉ l) (s : Bytes) :
    afterBlankLine (l ++ s) = afterBlankLine s := by
  induction l with
  | nil => rfl
  | cons b l ih =>
    rw [List.mem_cons, not_or] at hl
    rw [List.cons_append, afterBlankLine_cons (Ne.symm hl.1), ih hl.2]

/-- The first empty line is the one behind the header. -/
theorem afterBlankLine_header (n : Nat) (body : Bytes) :
    afterBlankLine (replyHeader jsonHeaders n ++ body) = some body := by
  have hfield : 13 ∉ lengthField n := by
    intro h
    rcases List.mem_append.mp (List.mem_of_mem_take h) with h | h
    · exact absurd (digitBytes_isdigit _ 13 h) (by decide)
    · exact absurd (List.eq_of_mem_replicate h) (by decide)
  have hfixed : ∀ s, afterBlankLine ((CStr.lit "HTTP/1.1 200 OK\r\n").bytes ++ (jsonHeaders.bytes ++
      ((CStr.lit "Content-Length: ").bytes ++ s))) = afterBlankLine s := fun s => rfl
  simp only [replyHeader, List.append_assoc]
  rw [hfixed, afterBlankLine_append hfield]
  rfl

/-! ## What arrives -/

/-- However it arrives, the document's text is kept up to where the buffer ends. -/
theorem httpGet_eq {json : CJson} {t : Bytes} (h : json.printUnformatted = some t)
    {pieces : List Bytes} (hp : Delivers pieces (sendJson json)) :
    ∃ body, httpGet pieces = some body ∧
      body.bytes = t.take (httpBufSize - 1 - headerWidth) := by
  have hsplit : (sendJson json).take (httpBufSize - 1) =
      replyHeader jsonHeaders t.length ++ t.take (httpBufSize - 1 - headerWidth) := by
    rw [sendJson_eq h, List.take_append, replyHeader_length,
      List.take_of_length_le (by rw [replyHeader_length]; decide)]
  have htext : 0 ∉ t := fun h0 => absurd (CJson.printUnformatted_visible h 0 h0) (by decide)
  have hcut : 0 ∉ t.take (httpBufSize - 1 - headerWidth) := fun h0 =>
    htext (List.mem_of_mem_take h0)
  have hall : 0 ∉ replyHeader jsonHeaders t.length ++ t.take (httpBufSize - 1 - headerWidth) := by
    rw [List.mem_append, not_or]
    exact ⟨replyHeader_nonul _ _, hcut⟩
  refine ⟨CStr.ofBytes (t.take (httpBufSize - 1 - headerWidth)), ?_, CStr.ofBytes_of_nonul hcut⟩
  rw [httpGet, readResponse_all hp, hsplit, CStr.ofBytes_of_nonul hall, afterBlankLine_header]
  rfl

/-- **The buffer.** A document that prints arrives whole, and is accepted, exactly when its
reply is shorter than the buffer. -/
theorem received_iff {json : CJson} {t : Bytes} (h : json.printUnformatted = some t) :
    Received json ↔ (sendJson json).length ≤ httpBufSize - 1 := by
  have hlen : (sendJson json).length = headerWidth + t.length := by
    rw [sendJson_eq h, List.length_append, replyHeader_length]
  have hroom : headerWidth ≤ httpBufSize - 1 := by decide
  constructor
  · rintro ⟨t', ht', hall⟩
    obtain rfl : t = t' := Option.some.inj (h.symm.trans ht')
    have hone : Delivers [sendJson json] (sendJson json) := by
      refine ⟨List.flatten_singleton, fun p hp => ?_⟩
      rw [List.mem_singleton.mp hp, ← List.length_pos_iff, hlen]
      exact Nat.add_pos_left (by decide) _
    obtain ⟨body, hbody, hwhole, -⟩ := hall _ hone
    obtain ⟨body', hbody', hcut⟩ := httpGet_eq h hone
    obtain rfl : body = body' := Option.some.inj (hbody.symm.trans hbody')
    have hle : t.length ≤ httpBufSize - 1 - headerWidth := by
      rw [← hwhole, hcut]
      exact List.length_take_le _ _
    omega
  · intro hle
    refine ⟨t, h, fun pieces hp => ?_⟩
    obtain ⟨body, hbody, hcut⟩ := httpGet_eq h hp
    rw [List.take_of_length_le (by omega)] at hcut
    refine ⟨body, hbody, hcut, ?_⟩
    obtain rfl : body = CStr.ofBytes t := by rw [← hcut, CStr.ofBytes_bytes]
    rw [CJson.parse_print h]
    rfl

end NetMon.Satellite
