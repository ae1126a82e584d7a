import NetMon.Api.Routes
import NetMon.Lib.CJsonCut
import NetMon.Satellite.Feeder
import NetMon.Satellite.ReplySize
import NetMon.Satellite.Request

/-!
# A poll of the status

The feeder's request at the server, and the server's reply at the feeder. The request is one the
server hands over whole, in whatever pieces it arrives (`pollRequest`), and it is answered with the
status of the monitor at that moment (`handle_poll`). However much of the reply `http_get` gets
before its socket times out, the feeder takes over the whole document or none of it
(`fetch_status`).
-/

namespace NetMon.Satellite

open NetMon.Lib NetMon.Core NetMon.Net NetMon.Api

/-! ## The request -/

/-- The head that `http_get` prints. -/
def pollHead (target host : CStr) (port : Int) : HttpHead where
  method := CStr.chars "GET"
  target := target.bytes
  proto := CStr.chars "HTTP/1.0"
  headers := [⟨CStr.chars "Host", host.bytes ++ CStr.chars ":" ++ (CStr.lit s!"{port}").bytes⟩,
    ⟨CStr.chars "Connection", CStr.chars "close"⟩]

theorem getRequest_head (target host : CStr) (port : Int) :
    getRequest target host port = (pollHead target host port).bytes := by
  have hget : CStr.chars "GET " = CStr.chars "GET" ++ [32] := rfl
  have hversion : CStr.chars " HTTP/1.0" = 32 :: CStr.chars "HTTP/1.0" := rfl
  have hhost : CStr.chars "Host: " = CStr.chars "Host" ++ [58, 32] := rfl
  have hclose : CStr.chars "Connection: close" =
      CStr.chars "Connection" ++ 58 :: 32 :: CStr.chars "close" := rfl
  rw [getRequest, hget, hversion, hhost, hclose]
  simp only [HttpHead.bytes, HttpHead.lines, HttpHead.firstLine, HttpHead.headerLine, pollHead,
    crlf, List.map_cons, List.map_nil, List.flatMap_cons, List.flatMap_nil, List.append_assoc,
    List.cons_append, List.nil_append, List.append_nil]

/-- The status path of an URL without a path. -/
def statusTarget : CStr := CStr.lit "/api/v1/status"

theorem port_printable (port : Int) : Printable (CStr.lit s!"{port}").bytes := by
  rw [Printable, List.all_eq_true]
  intro b hb
  rw [CStr.lit_int, List.mem_append] at hb
  rw [decide_eq_true_eq]
  rcases hb with hb | hb
  · split at hb
    · rw [List.mem_singleton.mp hb]
      decide
    · cases hb
  · exact (UInt8.lt_iff_toNat_lt.mp (decimal_visible_text _ b hb).1).le

theorem pollHead_wellFormed {host : CStr} (hhost : Printable host.bytes) (port : Int) :
    (pollHead statusTarget host port).WellFormed := by
  have hline : ∀ {name value : Bytes}, Printable name →
      (∀ b ∈ value, isok b = true ∧ inLine b = true) →
      ∀ b ∈ HttpHead.headerLine ⟨name, value⟩, isok b = true ∧ inLine b = true := by
    intro name value hname hvalue b hb
    simp only [HttpHead.headerLine, List.mem_append, List.mem_cons] at hb
    rcases hb with hb | rfl | rfl | hb
    · exact hname.text b hb
    · exact ⟨rfl, rfl⟩
    · exact ⟨rfl, rfl⟩
    · exact hvalue b hb
  constructor
  · simp only [HttpHead.lines, pollHead, List.map_cons, List.map_nil, List.forall_mem_cons]
    refine ⟨?_, hline rfl fun b hb => ?_, hline rfl (Printable.text rfl), List.forall_mem_nil _⟩
    · have hfirst : ∀ b ∈ CStr.chars "GET" ++ 32 :: (statusTarget.bytes ++ 32 ::
          CStr.chars "HTTP/1.0"), isok b = true ∧ inLine b = true := by decide +kernel
      exact hfirst
    · simp only [List.mem_append] at hb
      rcases hb with (hb | hb) | hb
      · exact hhost.text b hb
      · exact Printable.text (s := CStr.chars ":") rfl b hb
      · exact (port_printable port).text b hb
  · exact (rfl : Chars (fun _ => false) (CStr.chars "GET"))
  · exact ⟨List.cons_ne_nil _ _, (by decide : Chars (fun _ => false) statusTarget.bytes)⟩
  · simp only [pollHead, List.forall_mem_cons]
    exact ⟨by decide, by decide, List.forall_mem_nil _⟩
  · exact (by decide : 2 ≤ mgMaxHttpHeaders)

/-- What the server makes of it. -/
def pollMessage (host : CStr) (port : Int) : HttpMessage where
  method := CStr.chars "GET"
  uri := statusTarget.bytes
  query := []
  proto := CStr.chars "HTTP/1.0"
  headers := (pollHead statusTarget host port).headers.map HttpHead.stripped
  headLen := (pollHead statusTarget host port).bytes.length
  bodyLen := 0
  messageLen := (pollHead statusTarget host port).bytes.length

theorem checkMessage_poll (host : CStr) (port : Int) :
    checkMessage (pollHead statusTarget host port).bytes.length
      (pollHead statusTarget host port).method (pollHead statusTarget host port).target
      (skipSpaces (pollHead statusTarget host port).proto)
      (some ((pollHead statusTarget host port).headers.map HttpHead.stripped)) =
      .message (pollMessage host port) := by
  have hmethod : (pollHead statusTarget host port).method = CStr.chars "GET" := rfl
  have htarget : (pollHead statusTarget host port).target = statusTarget.bytes := rfl
  have hproto : skipSpaces (pollHead statusTarget host port).proto = CStr.chars "HTTP/1.0" := rfl
  have hversion : versionOk (CStr.chars "HTTP/1.0") = true := by decide
  have huri : statusTarget.bytes.takeWhile (· != 63) = statusTarget.bytes := by decide
  have hnone : declaredLength ((pollHead statusTarget host port).headers.map HttpHead.stripped) =
      none := rfl
  have hlengths : ∀ n, bodyLengths (httpPrefix (CStr.chars "GET")) (CStr.chars "GET")
      statusTarget.bytes n none = (0, n) := fun n => by
    unfold bodyLengths
    exact if_pos (by decide)
  unfold checkMessage
  rw [hmethod, htarget, hproto]
  simp only [hversion, huri, hnone, Option.bind_none, hlengths]
  rw [if_neg (by decide), if_neg (by decide), if_neg nofun, if_neg (lt_irrefl _)]
  rfl

/-- The feeder's request as the server gets it. -/
def pollRequest (host : CStr) (port : Int) (hhost : Printable host.bytes) : Api.Request where
  head := pollHead statusTarget host port
  body := []
  hm := pollMessage host port
  wellFormed := pollHead_wellFormed hhost port
  parsed := checkMessage_poll host port
  length := rfl
  plain := rfl
  declared := .inr rfl

theorem pollRequest_bytes (host : CStr) (port : Int) (hhost : Printable host.bytes) :
    (pollRequest host port hhost).bytes = getRequest statusTarget host port := by
  rw [getRequest_head]
  exact List.append_nil _

/-- It is answered with the status. -/
theorem handle_poll (s : ApiState) (host : CStr) (port : Int) (hhost : Printable host.bytes) :
    apiRoutesHandle s (pollRequest host port hhost).request =
      (s, sendJson (apiJsonStatus s.monitor), false) := rfl

/-! ## The reply -/

/-- What `http_get` and `cJSON_Parse` make of the pieces. -/
def fetchReply (pieces : List Bytes) : Satellite.Reply :=
  match httpGet pieces with
  | none => .none
  | some body =>
    match CJson.parse body with
    | none => .notJson
    | some root => .json root

theorem length_of_afterBlankLine {s r : Bytes} (h : afterBlankLine s = some r) : 4 ≤ s.length := by
  induction s with
  | nil => cases h
  | cons b s ih =>
    rw [afterBlankLine] at h
    split at h
    · next hpre =>
      obtain ⟨t, ht⟩ := List.isPrefixOf_iff_prefix.mp hpre
      rw [← ht, List.length_append]
      exact Nat.le_add_right 4 _
    · rw [List.length_cons]
      have := ih h
      omega

/-- An empty line that is found stays found, whatever follows. -/
theorem afterBlankLine_extend {s r : Bytes} (h : afterBlankLine s = some r) (t : Bytes) :
    afterBlankLine (s ++ t) = some (r ++ t) := by
  induction s with
  | nil => cases h
  | cons b s ih =>
    have hlong := length_of_afterBlankLine h
    rw [afterBlankLine] at h
    rw [List.cons_append, afterBlankLine]
    split at h
    · next hpre =>
      have hmore : [13, 10, 13, 10].isPrefixOf (b :: (s ++ t)) = true :=
        List.isPrefixOf_iff_prefix.mpr ((List.isPrefixOf_iff_prefix.mp hpre).trans
          (List.prefix_append (b :: s) t))
      cases h
      rw [if_pos hmore, ← List.cons_append, List.drop_append_of_le_length hlong]
    · next hpre =>
      have hnot : ¬ [13, 10, 13, 10].isPrefixOf (b :: (s ++ t)) = true := fun hmore =>
        hpre (List.isPrefixOf_iff_prefix.mpr (List.prefix_of_prefix_length_le
          (List.isPrefixOf_iff_prefix.mp hmore) (List.prefix_append (b :: s) t) hlong))
      rw [if_neg hnot]
      exact ih h

/-- A part of a reply to a status request, however it was cut, comes to nothing, or to the end of
the document's text. -/
theorem afterBlankLine_part {n : Nat} {text p r : Bytes}
    (hpre : p <+: replyHeader jsonHeaders n ++ text) (h : afterBlankLine p = some r) :
    p = replyHeader jsonHeaders n ++ r ∧ r <+: text := by
  obtain ⟨q, hq⟩ := hpre
  have hwhole := afterBlankLine_header n text
  rw [← hq, afterBlankLine_extend h, Option.some.injEq] at hwhole
  refine ⟨?_, q, hwhole⟩
  rw [← hwhole, ← List.append_assoc] at hq
  exact List.append_cancel_right hq

/-- **All or nothing.** Whatever part of the reply `http_get` gets, in whatever pieces, before its
socket times out or its buffer is full: if the feeder takes a document from it, the reply has come
whole and the document is the status, its numbers as they read back. -/
theorem fetch_status {m : Monitor} {pieces : List Bytes} (hne : ∀ p ∈ pieces, p ≠ [])
    (hpre : pieces.flatten <+: sendJson (apiJsonStatus m)) {root : CJson}
    (hjson : fetchReply pieces = .json root) :
    pieces.flatten = sendJson (apiJsonStatus m) ∧ root = CJson.reread (apiJsonStatus m) := by
  obtain ⟨t, ht⟩ := status_prints m
  rw [sendJson_eq ht] at hpre ⊢
  set p := pieces.flatten.take (httpBufSize - 1) with hp
  have htake : p <+: replyHeader jsonHeaders t.length ++ t :=
    (List.take_prefix _ _).trans hpre
  have hnonul : 0 ∉ p := by
    intro h0
    rcases List.mem_append.mp (htake.subset h0) with h0 | h0
    · exact replyHeader_nonul _ _ h0
    · exact absurd (CJson.printUnformatted_visible ht 0 h0) (by decide)
  have hread : readResponse pieces [] = p := readResponse_all ⟨rfl, hne⟩
  unfold fetchReply httpGet at hjson
  rw [hread, CStr.ofBytes_of_nonul hnonul] at hjson
  cases hafter : afterBlankLine p with
  | none =>
    rw [hafter] at hjson
    cases hjson
  | some r =>
    rw [hafter] at hjson
    obtain ⟨hhead, hr⟩ := afterBlankLine_part htake hafter
    by_cases hcut : r = t
    · have hparse := CJson.parse_print ht
      subst hcut
      have hall : pieces.flatten = replyHeader jsonHeaders r.length ++ r := by
        have hle : (replyHeader jsonHeaders r.length ++ r).length ≤ pieces.flatten.length := by
          rw [← hhead, hp]
          exact List.length_take_le' _ _
        exact hpre.eq_of_length_le hle
      refine ⟨hall, ?_⟩
      dsimp only [Option.map_some] at hjson
      rw [hparse] at hjson
      cases hjson
      rfl
    · have hnone := CJson.parse_cut ht hr hcut
      dsimp only [Option.map_some] at hjson
      rw [hnone] at hjson
      cases hjson

/-- A reply that comes whole is taken over, if it fits the buffer. -/
theorem fetch_whole {m : Monitor} (hfit : statusWidth m ≤ 8079) {pieces : List Bytes}
    (hp : Delivers pieces (sendJson (apiJsonStatus m))) :
    fetchReply pieces = .json (CJson.reread (apiJsonStatus m)) := by
  obtain ⟨t, ht⟩ := status_prints m
  have hlen := status_length m
  rw [sendJson_eq ht, List.length_append, replyHeader_length] at hlen
  obtain ⟨body, hbody, hcut⟩ := httpGet_eq ht hp
  have hroom : httpBufSize - 1 - headerWidth = 8079 := rfl
  rw [hroom, List.take_of_length_le (by omega)] at hcut
  have hwhole : body = CStr.ofBytes t := by rw [← hcut, CStr.ofBytes_bytes]
  rw [fetchReply, hbody, hwhole]
  dsimp only
  rw [CJson.parse_print ht]

/-- A reply that is longer than the buffer has lost the end of its document. -/
theorem fetch_long {m : Monitor} (hlong : 8079 < statusWidth m) {pieces : List Bytes}
    (hp : Delivers pieces (sendJson (apiJsonStatus m))) : fetchReply pieces = .notJson := by
  obtain ⟨t, ht⟩ := status_prints m
  have hlen := status_length m
  rw [sendJson_eq ht, List.length_append, replyHeader_length] at hlen
  obtain ⟨body, hbody, hcut⟩ := httpGet_eq ht hp
  have hroom : httpBufSize - 1 - headerWidth = 8079 := rfl
  rw [hroom] at hcut
  have hshort : body.bytes ≠ t := fun heq => by
    have := congrArg List.length (hcut.symm.trans heq)
    rw [List.length_take] at this
    omega
  have hpart : body.bytes <+: t := hcut ▸ List.take_prefix 8079 t
  have hnone := CJson.parse_cut ht hpart hshort
  rw [CStr.ofBytes_bytes] at hnone
  rw [fetchReply, hbody]
  dsimp only
  rw [hnone]

/-- **All or nothing.** Whatever the feeder gets of the reply, in whatever pieces: it takes a
document from it exactly when the reply has come whole and fits the buffer, and then the document is
the status of that monitor, its numbers as they read back. -/
theorem fetch_iff {m : Monitor} {pieces : List Bytes} (hne : ∀ p ∈ pieces, p ≠ [])
    (hpre : pieces.flatten <+: sendJson (apiJsonStatus m)) (root : CJson) :
    fetchReply pieces = .json root ↔ pieces.flatten = sendJson (apiJsonStatus m) ∧
      statusWidth m ≤ 8079 ∧ root = CJson.reread (apiJsonStatus m) := by
  constructor
  · intro hjson
    obtain ⟨hall, hroot⟩ := fetch_status hne hpre hjson
    refine ⟨hall, ?_, hroot⟩
    by_contra hlong
    rw [fetch_long (not_le.mp hlong) ⟨hall, hne⟩] at hjson
    cases hjson
  · rintro ⟨hall, hfit, rfl⟩
    exact fetch_whole hfit ⟨hall, hne⟩

/-- Of the status of a monitor that has just been started the last byte is missing. -/
theorem fetch_iff_cut : let m := bootApi.monitor
    let piece := (sendJson (apiJsonStatus m)).dropLast
    fetchReply [piece] = .json .null ↔ [piece].flatten = sendJson (apiJsonStatus m) ∧
      statusWidth m ≤ 8079 ∧ CJson.null = CJson.reread (apiJsonStatus m) := by
  refine fetch_iff ?_ ?_ .null
  · rw [List.forall_mem_singleton]
    decide +kernel
  · rw [List.flatten_singleton]
    exact List.dropLast_prefix _

end NetMon.Satellite
