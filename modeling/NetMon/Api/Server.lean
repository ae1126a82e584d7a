import NetMon.Api.Http
import NetMon.Api.Reply
import NetMon.Lib.Scanf
import NetMon.Net.WifiScan

/-!
# A connection of the HTTP server

`http_cb` of `mongoose.c` on a connection the server accepted: what is received is collected,
and every request that is complete is handed to the handler, one behind the other. Requests
whose length is declared are handed over exactly as they were sent and in their order, however
the stream is cut into reads and wherever it stops (`connection_serves`).

`is_resp` is cleared by `mg_http_reply`. A handler that sends its reply some other way leaves it
set, and the loop does not begin another turn.
-/

namespace NetMon.Api

open NetMon.Lib NetMon.Net

/-! ## Chunks -/

/-- `is_hex_digit` -/
def isHexDigit (c : UInt8) : Bool := Scanf.isxdigit c

/-- What `skip_chunk` finds: `error` and `more` are its -1 and 0. -/
inductive ChunkScan where
  | error
  | more
  | chunk (prefixLen : Nat) (dataLen : Nat)

/-- `skip_chunk`. Behind a carriage return it looks at the next byte even when that has not been
received. -/
def skipChunk (behind buf : Bytes) : ChunkScan :=
  let digits := buf.takeWhile isHexDigit
  let i := digits.length
  let n := Scanf.hexVal digits
  if buf.length < 3 then .more
  else if i = 0 ∨ 8 < i ∨ buf.length < i + 1 ∨ buf.getD i 0 ≠ 13 then .error
  else if buf.getD (i + 1) (behind.headD 0) ≠ 10 ∨ 2 ^ 31 ≤ n then .error
  else if buf.length < n + i + 4 then .more
  else if buf.getD (i + n + 2) 0 ≠ 13 ∨ buf.getD (i + n + 3) 0 ≠ 10 then .error
  else .chunk (i + 2) n

/-- What the two passes over the chunks come to: the data, and how many bytes held it. -/
inductive Dechunked where
  | error
  | more
  | body (data : Bytes) (used : Nat)

/-- Both passes; each chunk has a byte at least. -/
def dechunk (behind : Bytes) : Nat → Bytes → Dechunked
  | 0, _ => .more
  | fuel + 1, buf =>
    match skipChunk behind buf with
    | .error => .error
    | .more => .more
    | .chunk pl dl =>
      if dl = 0 then .body [] (pl + 2)
      else
        match dechunk behind fuel (buf.drop (pl + dl + 2)) with
        | .body data used => .body ((buf.drop pl).take dl ++ data) (pl + dl + 2 + used)
        | r => r

/-! ## One turn -/

/-- What happens to a connection, and what lies in memory behind all that is received by then. -/
inductive ConnEvent where
  | read (piece : Bytes) (behind : Bytes)
  | poll (behind : Bytes)
  | close (behind : Bytes)
  deriving DecidableEq

namespace ConnEvent

def behind : ConnEvent → Bytes
  | .read _ behind => behind
  | .poll behind => behind
  | .close behind => behind

def isClose : ConnEvent → Bool
  | .close _ => true
  | _ => false

end ConnEvent

/-- What the handler of `MG_EV_HTTP_MSG` is given. `body` are the bytes it finds at `body.buf`, as
many as `body.len` says; where that is the greatest `size_t`, they go on behind what is received. -/
structure HttpRequest where
  hm : HttpMessage
  body : Bytes
  deriving DecidableEq

/-- What a turn of the loop in `http_cb` does with what is received. `dropped` bytes are done
with; `refused`: a 411 is sent. -/
inductive Turn where
  | bad
  | badEncoding
  | badChunk
  | wait (dropped : Nat) (refused : Bool)
  | deliver (req : HttpRequest) (used : Nat) (refused : Bool)

/-- `mg_ncasecmp(hm.method.buf, "HTTP/", 5) == 0`; a shorter method is followed by a byte that is
no character. -/
def isResponseMethod (method : Bytes) : Bool := sameNoCase (method.take 5) (CStr.lit "HTTP/").bytes

/-- `require_content_len`, for a message without a declared length. -/
def requireContentLen (hm : HttpMessage) : Bool :=
  if isResponseMethod hm.method then
    let status := atoi hm.uri
    200 ≤ status && status != 204 && status != 304
  else
    sameNoCase hm.method (CStr.lit "POST").bytes || sameNoCase hm.method (CStr.lit "PUT").bytes

/-- `ofs` moves over a POST or PUT without a declared length before its body is looked for. -/
def skippedHead (hm : HttpMessage) : Nat :=
  if requireContentLen hm && !isResponseMethod hm.method then hm.headLen else 0

/-- On close the body is what is there. -/
def messageAt (ev : ConnEvent) (buf : Bytes) (hm : HttpMessage) : HttpMessage :=
  if ev.isClose then
    { hm with bodyLen := buf.length - hm.headLen, messageLen := buf.length }
  else hm

/-- A message that is not chunked; the lengths are of type `size_t`. Behind a POST without a
declared length, which is moved over twice, `len` can wrap. -/
def plainTurn (behind buf : Bytes) (hm : HttpMessage) (skipped : Nat) (refused : Bool) : Turn :=
  let len := (2 ^ 32 + buf.length - skipped - hm.headLen) % 2 ^ 32
  if hm.bodyLen > len then .wait skipped refused
  else .deliver ⟨hm, ((buf ++ behind).drop hm.headLen).take hm.bodyLen⟩
    ((skipped + hm.headLen + hm.bodyLen) % 2 ^ 32) refused

def chunkedTurn (behind buf : Bytes) (hm : HttpMessage) : Turn :=
  match dechunk behind (buf.length + 1) (buf.drop hm.headLen) with
  | .error => .badChunk
  | .more => .wait 0 false
  | .body data used =>
    let hm' := { hm with bodyLen := data.length, messageLen := hm.headLen + data.length }
    .deliver ⟨hm', data⟩ (hm.headLen + used) false

/-- One turn, `buf` being what is received and not done with. -/
def httpTurn (ev : ConnEvent) (buf : Bytes) : Turn :=
  match mgHttpParse buf with
  | .error => .bad
  | .incomplete => .wait 0 false
  | .message hm =>
    let hm := messageAt ev buf hm
    match mgHttpGetHeader hm.headers (CStr.lit "Transfer-Encoding") with
    | some te =>
      if sameNoCase te (CStr.lit "chunked").bytes then chunkedTurn ev.behind buf hm
      else .badEncoding
    | none =>
      if (mgHttpGetHeader hm.headers (CStr.lit "Content-length")).isSome then
        plainTurn ev.behind buf hm 0 false
      else plainTurn ev.behind buf hm (skippedHead hm) (requireContentLen hm)

/-! ## The connection -/

structure Conn where
  recv : Bytes
  isResp : Bool
  isDraining : Bool
  isClosing : Bool
  deriving DecidableEq

/-- An accepted connection. -/
def Conn.accepted : Conn := ⟨[], false, false, false⟩

/-- A request handed over, or bytes for the client. -/
inductive ConnOut where
  | message (req : HttpRequest)
  | send (bytes : Bytes)
  deriving DecidableEq

/-- The handler: what it puts into the send buffer, and `is_resp` afterwards. -/
abbrev Handler (σ : Type*) := σ → HttpRequest → σ × Bytes × Bool

/-- The 411 for a message without a declared length. -/
def refusal (refused : Bool) : List ConnOut :=
  if refused then [.send (mgHttpReplyWith 411 CStr.empty [])] else []

/-- `Connection: close` -/
def wantsClose (hm : HttpMessage) : Bool :=
  (mgHttpGetHeader hm.headers (CStr.lit "Connection")).any
    (sameNoCase · (CStr.lit "close").bytes)

section Server

variable {σ : Type*} (h : Handler σ)

/-- The loop of `http_cb`, and what is received afterwards. `whole` is what was received when it
began; a message takes a byte at least. -/
def httpLoop (ev : ConnEvent) (whole : Bytes) : Nat → σ → Conn → (σ × Conn) × List ConnOut
  | 0, s, c => ((s, c), [])
  | fuel + 1, s, c =>
    if c.isResp = true ∨ c.recv = [] then ((s, c), [])
    else
      match httpTurn ev c.recv with
      | .bad => ((s, { c with recv := [], isDraining := true }), [])
      | .badEncoding => ((s, { c with recv := whole, isClosing := true }), [])
      | .badChunk => ((s, { c with isClosing := true }), [])
      | .wait dropped refused => ((s, { c with recv := c.recv.drop dropped }), refusal refused)
      | .deliver req used refused =>
        let (s, bytes, isResp) := h s req
        let c := { c with recv := c.recv.drop used, isResp := isResp }
        let out := refusal refused ++ [.message req, .send bytes]
        if isResp = false ∧ wantsClose req.hm = true then
          ((s, { c with isDraining := true }), out)
        else
          let r := httpLoop ev whole fuel s c
          (r.1, out ++ r.2)

/-- `http_cb` -/
def httpCb (s : σ) (c : Conn) (ev : ConnEvent) : (σ × Conn) × List ConnOut :=
  match ev with
  | .read piece _ =>
    let c := { c with recv := c.recv ++ piece }
    httpLoop h ev c.recv (c.recv.length + 1) s c
  | .poll _ =>
    if c.isDraining = true ∨ c.recv = [] then ((s, c), [])
    else httpLoop h ev c.recv (c.recv.length + 1) s c
  | .close _ => httpLoop h ev c.recv (c.recv.length + 1) s c

/-- A connection with the server's state. -/
def connection : Machine (σ × Conn) ConnEvent ConnOut where
  step s ev := (httpCb h s.1 s.2 ev).1
  out s ev := (httpCb h s.1 s.2 ev).2

end Server

/-! ## Requests with a declared length -/

/-- A request as it is sent: a head, and behind it the body it declares. -/
structure Request where
  head : HttpHead
  body : Bytes
  hm : HttpMessage
  wellFormed : head.WellFormed
  parsed : checkMessage head.bytes.length head.method head.target (skipSpaces head.proto)
    (some (head.headers.map HttpHead.stripped)) = .message hm
  length : hm.bodyLen = body.length
  plain : mgHttpGetHeader hm.headers (CStr.lit "Transfer-Encoding") = none
  declared : (mgHttpGetHeader hm.headers (CStr.lit "Content-length")).isSome = true ∨
    requireContentLen hm = false

namespace Request

def bytes (r : Request) : Bytes := r.head.bytes ++ r.body

/-- What the handler is given. -/
def request (r : Request) : HttpRequest := ⟨r.hm, r.body⟩

theorem headLen_of_checkMessage {n : Nat} {method target proto : Bytes}
    {headers : Option (List HttpHeader)} {hm : HttpMessage}
    (h : checkMessage n method target proto headers = .message hm) : hm.headLen = n := by
  unfold checkMessage at h
  dsimp only at h
  split_ifs at h
  split at h
  · cases h
  · split_ifs at h
    cases h
    rfl

theorem headLen (r : Request) : r.hm.headLen = r.head.bytes.length :=
  headLen_of_checkMessage r.parsed

theorem length_bytes (r : Request) : r.bytes.length = r.hm.headLen + r.hm.bodyLen := by
  rw [bytes, List.length_append, r.headLen, r.length]

theorem head_pos (r : Request) : 0 < r.hm.headLen := by
  rw [r.headLen, HttpHead.bytes, List.length_append, crlf, List.length_cons]
  omega

theorem parse_append (r : Request) (t : Bytes) :
    mgHttpParse (r.head.bytes ++ t) = .message r.hm := by
  rw [mgHttpParse_head r.wellFormed, r.parsed]

/-- Behind the whole head the turn depends on the body alone. -/
theorem turn_eq (r : Request) {ev : ConnEvent} (hev : ev.isClose = false) (t : Bytes) :
    httpTurn ev (r.head.bytes ++ t) = plainTurn ev.behind (r.head.bytes ++ t) r.hm 0 false := by
  have hopen : ∀ buf, messageAt ev buf r.hm = r.hm := fun buf => by
    rw [messageAt, hev, if_neg Bool.false_ne_true]
  unfold httpTurn
  rw [r.parse_append]
  simp only [hopen, r.plain]
  rcases r.declared with hdeclared | hfree
  · rw [if_pos hdeclared]
  · have hskip : skippedHead r.hm = 0 := by rw [skippedHead, hfree]; rfl
    rw [hskip, hfree, ite_self]

/-- A request that has not arrived whole is waited for. -/
theorem turn_short (r : Request) {ev : ConnEvent} (hev : ev.isClose = false) {buf rest : Bytes}
    (hbuf : buf ++ rest = r.bytes) (hshort : buf.length < r.bytes.length)
    (hsize : r.bytes.length < 2 ^ 32) : httpTurn ev buf = .wait 0 false := by
  have hlen := r.length_bytes
  have hhead := r.headLen
  by_cases hle : r.head.bytes.length ≤ buf.length
  · obtain ⟨t, rfl⟩ : ∃ t, buf = r.head.bytes ++ t := by
      refine ⟨buf.drop r.head.bytes.length, ?_⟩
      have htake : buf.take r.head.bytes.length = r.head.bytes := by
        have := congrArg (List.take r.head.bytes.length) hbuf
        rwa [List.take_append_of_le_length hle, bytes, List.take_left] at this
      conv_lhs => rw [← List.take_append_drop r.head.bytes.length buf, htake]
    rw [r.turn_eq hev, plainTurn, if_pos]
    rw [List.length_append] at hshort ⊢
    omega
  · have htake : buf = r.head.bytes.take buf.length := by
      have := congrArg (List.take buf.length) hbuf
      rwa [List.take_left, bytes, List.take_append_of_le_length (by omega)] at this
    have hend := mgHttpGetRequestLen_head r.wellFormed []
    rw [List.append_nil] at hend
    have hpos := r.head_pos
    unfold httpTurn
    rw [htake, mgHttpParse_take hend (by omega) (by omega)]

/-- A request that has arrived is handed over as it was sent. -/
theorem turn_whole (r : Request) {ev : ConnEvent} (hev : ev.isClose = false) {t : Bytes}
    (hsize : (r.bytes ++ t).length < 2 ^ 32) :
    httpTurn ev (r.bytes ++ t) = .deliver r.request r.bytes.length false := by
  have hlen := r.length_bytes
  have hdrop : ((r.bytes ++ t ++ ev.behind).drop r.hm.headLen).take r.hm.bodyLen = r.body := by
    rw [bytes, List.append_assoc, List.append_assoc, r.headLen, List.drop_left, r.length,
      List.take_left]
  have hturn : httpTurn ev (r.bytes ++ t) = plainTurn ev.behind (r.bytes ++ t) r.hm 0 false := by
    rw [bytes, List.append_assoc]
    exact r.turn_eq hev _
  rw [List.length_append] at hsize
  rw [hturn, plainTurn, hdrop, if_neg, hlen, Nat.zero_add, Nat.mod_eq_of_lt]
  · rfl
  · omega
  · rw [List.length_append]
    omega

end Request

/-- The requests that were handed over. -/
def messagesOf (outs : List ConnOut) : List HttpRequest :=
  outs.filterMap fun
    | .message req => some req
    | .send _ => none

theorem messagesOf_append (a b : List ConnOut) :
    messagesOf (a ++ b) = messagesOf a ++ messagesOf b := List.filterMap_append

/-! ## Streams of requests -/

/-- The bytes the events bring. -/
def received (evs : List ConnEvent) : Bytes :=
  evs.flatMap fun
    | .read piece _ => piece
    | _ => []

/-- The handler on its own, request by request. -/
def serving {σ : Type*} (h : Handler σ) : Machine σ HttpRequest ConnOut where
  step s req := (h s req).1
  out s req := [.message req, .send (h s req).2.1]

/-- How far a stream of requests has been served: `served` are answered, of the next one the bytes
`part` are here. -/
structure Progress (rs : List Request) (got : Bytes) (served left : List Request) (part : Bytes) :
    Prop where
  split : rs = served ++ left
  bytes : got = served.flatMap Request.bytes ++ part
  short : ∀ r ∈ left.head?, part.length < r.bytes.length
  ended : left = [] → part = []

/-- A connection that waits for the rest of a request. -/
def waitingConn (served : List Request) (part : Bytes) (draining : Bool) : Conn :=
  ⟨part, false, draining || served.any (wantsClose ·.hm), false⟩

section Serve

variable {σ : Type*} {h : Handler σ}

theorem Progress.trans {rs served left served' left' : List Request} {got got' part part' : Bytes}
    (h1 : Progress rs got served left part)
    (h2 : Progress left (part ++ got') served' left' part') :
    Progress rs (got ++ got') (served ++ served') left' part' where
  split := by rw [h1.split, h2.split, List.append_assoc]
  bytes := by
    rw [h1.bytes, List.append_assoc, h2.bytes, List.flatMap_append, List.append_assoc]
  short := h2.short
  ended := h2.ended

@[simp] theorem waitingConn_nil (part : Bytes) (draining : Bool) :
    waitingConn [] part draining = ⟨part, false, draining, false⟩ := by
  rw [waitingConn, List.any_nil, Bool.or_false]

theorem waitingConn_append (served served' : List Request) (part : Bytes) (draining : Bool) :
    waitingConn (served ++ served') part draining =
      waitingConn served' part (draining || served.any (wantsClose ·.hm)) := by
  rw [waitingConn, List.any_append, ← Bool.or_assoc]
  rfl

theorem mem_dropLast_append {α : Type*} (l : List α) {l' : List α} {x : α}
    (hx : x ∈ l'.dropLast) : x ∈ (l ++ l').dropLast := by
  have hne : l' ≠ [] := by
    rintro rfl
    cases hx
  rw [List.dropLast_append_of_ne_nil hne]
  exact List.mem_append_right _ hx

/-- What has arrived of a request is kept. -/
theorem httpLoop_short {ev : ConnEvent} (hev : ev.isClose = false) (r : Request) {buf : Bytes}
    (hpre : buf <+: r.bytes) (hshort : buf.length < r.bytes.length)
    (hsize : r.bytes.length < 2 ^ 32) (whole : Bytes) (fuel : Nat) (s : σ) (draining : Bool) :
    httpLoop h ev whole (fuel + 1) s ⟨buf, false, draining, false⟩ =
      ((s, ⟨buf, false, draining, false⟩), []) := by
  obtain ⟨rest, hrest⟩ := hpre
  by_cases hnil : buf = []
  · rw [httpLoop, if_pos (.inr hnil)]
  · rw [httpLoop, if_neg (by simp [hnil]), r.turn_short hev hrest hshort hsize]
    rfl

/-- A request that has arrived is answered, and the loop goes on behind it unless the request asks
for the connection to be closed. -/
theorem httpLoop_whole {ev : ConnEvent} (hev : ev.isClose = false) (r : Request) {t : Bytes}
    (hsize : (r.bytes ++ t).length < 2 ^ 32) (whole : Bytes) (fuel : Nat) {s : σ}
    (hkeep : (h s r.request).2.2 = false) (draining : Bool) :
    httpLoop h ev whole (fuel + 1) s ⟨r.bytes ++ t, false, draining, false⟩ =
      if wantsClose r.hm = true then
        (((h s r.request).1, ⟨t, false, true, false⟩), (serving h).out s r.request)
      else
        let rest := httpLoop h ev whole fuel (h s r.request).1 ⟨t, false, draining, false⟩
        (rest.1, (serving h).out s r.request ++ rest.2) := by
  have hne : r.bytes ++ t ≠ [] := by
    rw [← List.length_pos_iff, List.length_append, r.length_bytes]
    have := r.head_pos
    omega
  rw [httpLoop, if_neg (by simp [hne]), r.turn_whole hev hsize]
  simp only [hkeep, List.drop_left, true_and]
  rfl

/-- The loop serves the requests that are there. -/
theorem httpLoop_serves {ev : ConnEvent} (hev : ev.isClose = false) {rs : List Request}
    (hclose : ∀ r ∈ rs.dropLast, wantsClose r.hm = false)
    (hreply : ∀ s, ∀ r ∈ rs, (h s r.request).2.2 = false) {buf rest : Bytes}
    (hbuf : buf ++ rest = rs.flatMap Request.bytes)
    (hsize : (rs.flatMap Request.bytes).length < 2 ^ 32) (whole : Bytes) {fuel : Nat}
    (hfuel : buf.length < fuel) (s : σ) (draining : Bool) :
    ∃ served left part, Progress rs buf served left part ∧
      httpLoop h ev whole fuel s ⟨buf, false, draining, false⟩ =
        (((serving h).exec s (served.map Request.request),
          waitingConn served part draining), (serving h).trace s (served.map Request.request)) := by
  obtain ⟨fuel, rfl⟩ : ∃ k, fuel = k + 1 := ⟨fuel - 1, by omega⟩
  induction rs generalizing buf fuel s draining with
  | nil =>
    obtain ⟨rfl, rfl⟩ := List.append_eq_nil_iff.mp hbuf
    refine ⟨[], [], [], ⟨rfl, rfl, by simp, fun _ => rfl⟩, ?_⟩
    rw [httpLoop, if_pos (.inr rfl), waitingConn_nil]
    rfl
  | cons r rs ih =>
    rw [List.flatMap_cons] at hbuf hsize
    have hprefix : buf <+: r.bytes ++ rs.flatMap Request.bytes := ⟨rest, hbuf⟩
    have hlen := hprefix.length_le
    rw [List.length_append] at hsize hlen
    by_cases hshort : buf.length < r.bytes.length
    · have hpre : buf <+: r.bytes :=
        List.prefix_of_prefix_length_le hprefix (List.prefix_append _ _) hshort.le
      refine ⟨[], r :: rs, buf, ⟨rfl, rfl, by simpa using hshort, nofun⟩, ?_⟩
      rw [httpLoop_short hev r hpre hshort (by omega), waitingConn_nil]
      rfl
    · obtain ⟨t, rfl⟩ : r.bytes <+: buf :=
        List.prefix_of_prefix_length_le (List.prefix_append _ _) hprefix (not_lt.mp hshort)
      have hkeep := hreply s r List.mem_cons_self
      rw [List.append_assoc, List.append_cancel_left_eq] at hbuf
      rw [httpLoop_whole hev r (by rw [List.length_append] at hlen ⊢; omega) whole fuel hkeep]
      by_cases hlast : wantsClose r.hm = true
      · -- Only the last request closes, so nothing is left behind it.
        obtain rfl : rs = [] := by
          by_contra hrs
          obtain ⟨q, qs, rfl⟩ := List.exists_cons_of_ne_nil hrs
          rw [hclose r (by simp)] at hlast
          cases hlast
        obtain ⟨rfl, rfl⟩ := List.append_eq_nil_iff.mp hbuf
        refine ⟨[r], [], [], ⟨rfl, by simp, by simp, fun _ => rfl⟩, ?_⟩
        have hconn : waitingConn [r] [] draining = ⟨[], false, true, false⟩ := by
          rw [waitingConn, List.any_cons, hlast, Bool.true_or, Bool.or_true]
        rw [if_pos hlast, hconn]
        exact Prod.ext rfl (List.append_nil _).symm
      · have hpos := r.head_pos
        have hbytes := r.length_bytes
        rw [List.length_append] at hfuel
        obtain ⟨fuel, rfl⟩ : ∃ k, fuel = k + 1 := ⟨fuel - 1, by omega⟩
        obtain ⟨served, left, part, hprog, hloop⟩ :=
          ih (fun q hq => hclose q (mem_dropLast_append [r] hq))
            (fun s q hq => hreply s q (List.mem_cons_of_mem _ hq)) hbuf (by omega)
            (h s r.request).1 draining fuel (by omega)
        refine ⟨r :: served, left, part, ⟨?_, ?_, hprog.short, hprog.ended⟩, ?_⟩
        · rw [hprog.split, List.cons_append]
        · rw [hprog.bytes, List.flatMap_cons, List.append_assoc]
        · have hconn := waitingConn_append [r] served part draining
          rw [List.any_cons, List.any_nil, Bool.or_false, Bool.eq_false_iff.mpr hlast,
            Bool.or_false, List.singleton_append] at hconn
          rw [if_neg hlast, hloop, hconn]
          rfl

/-- One event, while some requests are left and a part of the next one is here. -/
theorem httpCb_serves {ev : ConnEvent} (hev : ev.isClose = false) {left : List Request}
    (hclose : ∀ r ∈ left.dropLast, wantsClose r.hm = false)
    (hreply : ∀ s, ∀ r ∈ left, (h s r.request).2.2 = false) {part rest : Bytes}
    (hpart : part ++ received [ev] ++ rest = left.flatMap Request.bytes)
    (hshort : ∀ r ∈ left.head?, part.length < r.bytes.length) (hended : left = [] → part = [])
    (hsize : (left.flatMap Request.bytes).length < 2 ^ 32) (s : σ) (draining : Bool) :
    ∃ served left' part', Progress left (part ++ received [ev]) served left' part' ∧
      httpCb h s ⟨part, false, draining, false⟩ ev =
        (((serving h).exec s (served.map Request.request), waitingConn served part' draining),
          (serving h).trace s (served.map Request.request)) := by
  cases ev with
  | close behind => cases hev
  | read piece behind =>
    have hone : received [.read piece behind] = piece := by simp [received]
    rw [hone] at hpart ⊢
    exact httpLoop_serves hev hclose hreply hpart hsize (part ++ piece) (Nat.lt_succ_self _) s _
  | poll behind =>
    have hone : received [.poll behind] = [] := rfl
    rw [hone, List.append_nil] at hpart ⊢
    by_cases hidle : draining = true ∨ part = []
    · refine ⟨[], left, part, ⟨rfl, rfl, hshort, hended⟩, ?_⟩
      rw [httpCb, if_pos hidle, waitingConn_nil]
      rfl
    · obtain ⟨served, left', part', hprog, hloop⟩ :=
        httpLoop_serves hev hclose hreply hpart hsize part (Nat.lt_succ_self _) s draining
      refine ⟨served, left', part', hprog, ?_⟩
      rw [httpCb, if_neg hidle]
      exact hloop

theorem run_serves {evs : List ConnEvent} (hevs : ∀ ev ∈ evs, ev.isClose = false)
    {left : List Request}
    (hclose : ∀ r ∈ left.dropLast, wantsClose r.hm = false)
    (hreply : ∀ s, ∀ r ∈ left, (h s r.request).2.2 = false) {part rest : Bytes}
    (hpart : part ++ received evs ++ rest = left.flatMap Request.bytes)
    (hshort : ∀ r ∈ left.head?, part.length < r.bytes.length) (hended : left = [] → part = [])
    (hsize : (left.flatMap Request.bytes).length < 2 ^ 32) (s : σ) (draining : Bool) :
    ∃ served left' part', Progress left (part ++ received evs) served left' part' ∧
      (connection h).Runs (s, ⟨part, false, draining, false⟩) evs
        ((serving h).exec s (served.map Request.request), waitingConn served part' draining)
        ((serving h).trace s (served.map Request.request)) := by
  induction evs generalizing left part s draining with
  | nil =>
    refine ⟨[], left, part, ⟨rfl, List.append_nil _, hshort, hended⟩, ?_⟩
    rw [waitingConn_nil]
    exact Machine.Runs.refl _
  | cons ev evs ih =>
    rw [List.forall_mem_cons] at hevs
    have hsplit : received (ev :: evs) = received [ev] ++ received evs := by
      simp only [received, List.flatMap_cons, List.flatMap_nil, List.append_nil]
    rw [hsplit] at hpart ⊢
    obtain ⟨served, left', part', hprog, hcb⟩ := httpCb_serves hevs.1 hclose hreply
      (show part ++ received [ev] ++ (received evs ++ rest) = _ by
        rw [← hpart]
        simp only [List.append_assoc]) hshort hended hsize s draining
    have hleft : part' ++ received evs ++ rest = left'.flatMap Request.bytes := by
      rw [hprog.split, List.flatMap_append] at hpart
      have := hprog.bytes
      rw [← List.append_assoc, this, List.append_assoc, List.append_assoc,
        List.append_cancel_left_eq] at hpart
      rw [List.append_assoc]
      exact hpart
    have hless : (left'.flatMap Request.bytes).length < 2 ^ 32 := by
      rw [hprog.split, List.flatMap_append, List.length_append] at hsize
      omega
    have hclose' : ∀ r ∈ left'.dropLast, wantsClose r.hm = false := fun r hr => by
      refine hclose r ?_
      rw [hprog.split]
      exact mem_dropLast_append served hr
    obtain ⟨served', left'', part'', hprog', hrun⟩ := ih hevs.2 hclose'
      (fun s r hr => hreply s r (by rw [hprog.split]; exact List.mem_append_right _ hr)) hleft
      hprog.short hprog.ended hless ((serving h).exec s (served.map Request.request))
      (draining || served.any (wantsClose ·.hm))
    refine ⟨served ++ served', left'', part'', ?_, ?_⟩
    · rw [← List.append_assoc]
      exact hprog.trans hprog'
    · rw [waitingConn_append, List.map_append, Machine.exec_append, Machine.trace_append]
      exact (Machine.Runs.single (congrArg Prod.fst hcb) (congrArg Prod.snd hcb)).trans hrun

/-- **The connection.** A stream of requests with declared lengths, of which only the last may
ask for the connection to be closed, reaches the handler request by request: whatever pieces
it is read in, with the server's polls in between, what has been handed over are the requests
that have arrived whole, each once and as it was sent, and the client is sent what the handler
replies to them, in their order. What has arrived of the next one is kept. -/
theorem connection_serves {rs : List Request}
    (hclose : ∀ r ∈ rs.dropLast, wantsClose r.hm = false)
    (hreply : ∀ s, ∀ r ∈ rs, (h s r.request).2.2 = false)
    (hsize : (rs.flatMap Request.bytes).length < 2 ^ 32) {evs : List ConnEvent}
    (hevs : ∀ ev ∈ evs, ev.isClose = false)
    (hgot : received evs <+: rs.flatMap Request.bytes) (s : σ) :
    ∃ served left part, Progress rs (received evs) served left part ∧
      (connection h).Runs (s, .accepted) evs
        ((serving h).exec s (served.map Request.request), waitingConn served part false)
        ((serving h).trace s (served.map Request.request)) := by
  obtain ⟨rest, hrest⟩ := hgot
  refine run_serves hevs hclose hreply (show [] ++ received evs ++ rest = _ from hrest)
    (fun r _ => ?_) (fun _ => rfl) hsize s false
  rw [r.length_bytes, List.length_nil]
  have := r.head_pos
  omega

/-- When all of them have arrived, all have been served. -/
theorem Progress.complete {rs served left : List Request} {part : Bytes}
    (h : Progress rs (rs.flatMap Request.bytes) served left part) :
    served = rs ∧ part = [] := by
  have hsplit := h.split
  cases left with
  | nil => exact ⟨by rw [hsplit, List.append_nil], h.ended rfl⟩
  | cons r left =>
    have hbytes := h.bytes
    rw [hsplit, List.flatMap_append, List.append_cancel_left_eq, List.flatMap_cons] at hbytes
    have hshort := h.short r rfl
    rw [← hbytes, List.length_append] at hshort
    omega

end Serve

end NetMon.Api
