import NetMon.Api.Clients
import NetMon.Api.Config
import NetMon.Lib.CJsonParse
import NetMon.Net.Connections

/-!
# The routes of the REST API

`api_routes.c`: which handler a request reaches, and what it sends. The patterns of the routes have
no wildcards, so `mg_match` compares byte for byte (`mgMatch_plain`).

Whatever bytes the clients send and however they arrive: the configuration is what the objects
posted to its own path have made of it, in their order, and its file holds what the last save that
went through has written (`server_config`). What a client is sent is one whole response behind the
other (`server_responses`). A screenshot is the last one (`server_screenshot`).
-/

namespace NetMon.Api

open NetMon.Lib NetMon.Core NetMon.Net

/-! ## Matching -/

/-- The loop of `mg_match` at `i` in the pattern and `j` in the text; `ni` is the last star and
`nj` where it is tried next. The byte behind the text, which only a star looks at, reads as NUL. -/
def mgMatchFrom (s p : Bytes) : Nat → Nat → Nat → Nat → Nat → Bool
  | 0, _, _, _, _ => false
  | fuel + 1, i, j, ni, nj =>
    if i < p.length ∨ j < s.length then
      if i < p.length ∧ j < s.length ∧ (p.getD i 0 = 63 ∨
          (p.getD i 0 ≠ 42 ∧ p.getD i 0 ≠ 35 ∧ s.getD j 0 = p.getD i 0)) then
        mgMatchFrom s p fuel (i + 1) (j + 1) ni nj
      else if i < p.length ∧ (p.getD i 0 = 42 ∨ p.getD i 0 = 35) then
        mgMatchFrom s p fuel (i + 1) j i (j + 1)
      else if 0 < nj ∧ nj ≤ s.length ∧
          ((ni < p.length ∧ p.getD ni 0 = 35) ∨ s.getD j 0 ≠ 47) then
        mgMatchFrom s p fuel ni nj ni nj
      else false
    else true

/-- `mg_match` without captures. No star is tried twice at one place. -/
def mgMatch (s : Bytes) (p : CStr) : Bool :=
  mgMatchFrom s p.bytes ((p.length + 2) ^ 2 * (s.length + 2)) 0 0 0 0

/-- No `?`, `*` or `#`. -/
def Plain (p : Bytes) : Prop := ∀ b ∈ p, b ≠ 63 ∧ b ≠ 42 ∧ b ≠ 35

theorem mgMatchFrom_plain {s p : Bytes} (hp : Plain p) {fuel k : Nat} (hk : k ≤ p.length)
    (hfuel : p.length < fuel + k) :
    mgMatchFrom s p fuel k k 0 0 = true ↔ s.drop k = p.drop k := by
  induction fuel generalizing k with
  | zero => omega
  | succ fuel ih =>
    unfold mgMatchFrom
    by_cases hend : k < p.length
    · have hbyte := hp _ (List.getElem_mem hend)
      have hpat : p.getD k 0 = p[k] := List.getD_eq_getElem p 0 hend
      have hdrop := List.drop_eq_getElem_cons hend
      rw [if_pos (.inl hend), hpat]
      by_cases hin : k < s.length
      · have htext : s.getD k 0 = s[k] := List.getD_eq_getElem s 0 hin
        have hiff : s.drop k = p.drop k ↔ s[k] = p[k] ∧ s.drop (k + 1) = p.drop (k + 1) := by
          rw [List.drop_eq_getElem_cons hin, hdrop, List.cons.injEq]
        rw [htext, hiff]
        by_cases heq : s[k] = p[k]
        · rw [if_pos ⟨hend, hin, .inr ⟨hbyte.2.1, hbyte.2.2, heq⟩⟩, ih (by omega) (by omega)]
          exact (and_iff_right heq).symm
        · rw [if_neg (by simp [hbyte, heq]), if_neg (by simp [hbyte]), if_neg (by simp)]
          exact iff_of_false Bool.false_ne_true fun h => heq h.1
      · rw [if_neg (by simp [hin]), if_neg (by simp [hbyte]), if_neg (by simp),
          List.drop_of_length_le (by omega), hdrop]
        exact iff_of_false Bool.false_ne_true (List.cons_ne_nil _ _).symm
    · have hlast : p.drop k = [] := List.drop_of_length_le (by omega)
      rw [hlast, List.drop_eq_nil_iff]
      by_cases hin : k < s.length
      · rw [if_pos (.inr hin), if_neg (by simp [hend]), if_neg (by simp [hend]), if_neg (by simp)]
        exact iff_of_false Bool.false_ne_true (by omega)
      · rw [if_neg (by omega)]
        exact iff_of_true rfl (by omega)

theorem mgMatch_plain {p : CStr} (hp : Plain p.bytes) (s : Bytes) :
    mgMatch s p = true ↔ s = p.bytes := by
  have hfuel : p.bytes.length < (p.length + 2) ^ 2 * (s.length + 2) + 0 := by
    have hsq : (p.length + 2) ^ 2 = (p.length + 2) * (p.length + 2) := Nat.pow_two _
    have h1 : p.length + 2 ≤ (p.length + 2) * (p.length + 2) := Nat.le_mul_of_pos_right _ (by omega)
    have h2 : (p.length + 2) ^ 2 ≤ (p.length + 2) ^ 2 * (s.length + 2) :=
      Nat.le_mul_of_pos_right _ (by omega)
    simp only [CStr.length] at h1 h2 hsq ⊢
    omega
  rw [mgMatch, mgMatchFrom_plain hp (Nat.zero_le _) hfuel, List.drop_zero, List.drop_zero]

/-! ## The handlers -/

/-- What reading `APP_FB_DEVICE` comes to: no device, no screen information, no memory for it, or
its size and the bytes it delivers. -/
inductive Framebuffer where
  | absent
  | noInfo
  | noMemory
  | pixels (xres yres bitsPerPixel : Nat) (data : Bytes)

/-- What the handlers read and write: the monitor, its connection table, the configuration and its
file. `writable` is whether the file can be opened for writing and `screens` what reading the screen
comes to, one time after the other. -/
structure ApiState where
  monitor : Monitor
  connections : List NetConnection
  cfg : Config
  file : Option Bytes
  writable : Nat → Bool
  screens : Nat → Framebuffer

def jsonConnection (conn : NetConnection) : CJson :=
  .object [
    (CStr.lit "local_addr", .string (formatIp conn.localAddr)),
    (CStr.lit "local_port", .number (conn.localPort.toNat : ℚ)),
    (CStr.lit "remote_addr", .string (formatIp conn.remoteAddr)),
    (CStr.lit "remote_port", .number (conn.remotePort.toNat : ℚ)),
    (CStr.lit "protocol", .string (if conn.protocol = 6 then CStr.lit "TCP" else CStr.lit "UDP")),
    (CStr.lit "state", .number (conn.state.toNat : ℚ))]

def apiJsonConnections (connections : List NetConnection) : CJson :=
  .array (connections.map jsonConnection)

/-- The text of an error, as a JSON object. -/
def errorBody (text : String) : Bytes :=
  CStr.chars "\x7b\"error\":\"" ++ CStr.chars text ++ CStr.chars "\"\x7d"

/-- `send_404` -/
def send404 : Bytes := mgHttpReplyWith 404 jsonHeaders (errorBody "not found")

/-- The header of a screenshot. -/
def screenshotHeader (total w h bpp : Nat) : Bytes :=
  CStr.chars "HTTP/1.1 200 OK\r\n" ++ CStr.chars "Content-Type: application/octet-stream\r\n" ++
    CStr.chars "Content-Length: " ++ decimal total ++ CStr.chars "\r\n" ++
    CStr.chars "Access-Control-Allow-Origin: *\r\n" ++
    CStr.chars "X-FB-Width: " ++ decimal w ++ CStr.chars "\r\n" ++
    CStr.chars "X-FB-Height: " ++ decimal h ++ CStr.chars "\r\n" ++
    CStr.chars "X-FB-BPP: " ++ decimal bpp ++ CStr.chars "\r\n" ++ CStr.chars "\r\n"

/-- `handle_get_screenshot`, with `is_resp` afterwards: a screenshot is not sent by
`mg_http_reply`. -/
def handleGetScreenshot (s : ApiState) : ApiState × Bytes × Bool :=
  let s' := { s with screens := fun k => s.screens (k + 1) }
  match s.screens 0 with
  | .absent => (s', mgHttpReplyWith 500 jsonHeaders (errorBody "cannot open framebuffer"), false)
  | .noInfo => (s', mgHttpReplyWith 500 jsonHeaders (errorBody "cannot get fb info"), false)
  | .noMemory => (s', mgHttpReplyWith 500 CStr.empty (errorBody "out of memory"), false)
  | .pixels w h bpp data =>
    let pixels := data.take (w * h * (bpp / 8))
    (s', screenshotHeader pixels.length w h bpp ++ pixels, true)

/-- `handle_post_config` -/
def postConfig (s : ApiState) (body : Bytes) : ApiState × Bytes :=
  let (cfg, file, reply) :=
    handlePostConfig s.cfg s.file (s.writable 0) (CJson.parseWithLength body)
  ({ s with cfg := cfg, file := file, writable := fun k => s.writable (k + 1) },
    match reply with
    | .json doc => sendJson doc
    | .error status text => mgHttpReplyWith status jsonHeaders text.bytes)

def corsHeaders : CStr :=
  CStr.lit "Access-Control-Allow-Origin: *\r\n" ++
    CStr.lit "Access-Control-Allow-Methods: GET, POST, OPTIONS\r\n" ++
    CStr.lit "Access-Control-Allow-Headers: Content-Type\r\n"

/-- The chain of `else if` under `GET`. -/
def handleGet (s : ApiState) (uri : Bytes) : ApiState × Bytes × Bool :=
  let json (doc : CJson) := (s, sendJson doc, false)
  if mgMatch uri (CStr.lit "/api/v1/status") then json (apiJsonStatus s.monitor)
  else if mgMatch uri (CStr.lit "/api/v1/interfaces") then json (apiJsonInterfaces s.monitor.state)
  else if mgMatch uri (CStr.lit "/api/v1/connectivity") then
    json (apiJsonConnectivity s.monitor.state)
  else if mgMatch uri (CStr.lit "/api/v1/connections") then json (apiJsonConnections s.connections)
  else if mgMatch uri (CStr.lit "/api/v1/alerts") then json (apiJsonAlerts s.monitor.alerts)
  else if mgMatch uri (CStr.lit "/api/v1/infra") then json (apiJsonInfra s.monitor.state)
  else if mgMatch uri (CStr.lit "/api/v1/wan") then json (apiJsonWan s.monitor.wan)
  else if mgMatch uri (CStr.lit "/api/v1/config") then json (apiJsonConfig s.cfg)
  else if mgMatch uri (CStr.lit "/api/v1/screenshot") then handleGetScreenshot s
  else if mgMatch uri (CStr.lit "/api/v1/info") then
    json (apiJsonInfo s.monitor.hostname s.monitor.state)
  else (s, send404, false)

/-- `api_routes_handle` -/
def apiRoutesHandle : Handler ApiState := fun s req =>
  if mgMatch req.hm.method (CStr.lit "OPTIONS") then (s, mgHttpReplyWith 204 corsHeaders [], false)
  else if mgMatch req.hm.method (CStr.lit "GET") then handleGet s req.hm.uri
  else if mgMatch req.hm.method (CStr.lit "POST") then
    if mgMatch req.hm.uri (CStr.lit "/api/v1/config") then
      let (s, bytes) := postConfig s req.body
      (s, bytes, false)
    else (s, send404, false)
  else (s, send404, false)

/-! ## Routes -/

/-- A text for one method and path of the API. -/
def IsRequest (req : HttpRequest) (method uri : String) : Prop :=
  req.hm.method = (CStr.lit method).bytes ∧ req.hm.uri = (CStr.lit uri).bytes

instance (req : HttpRequest) (method uri : String) : Decidable (IsRequest req method uri) :=
  inferInstanceAs (Decidable (_ ∧ _))

theorem plain_lit {s : String}
    (h : ((CStr.lit s).bytes.all fun b => b != 63 && b != 42 && b != 35) =
    true) : Plain (CStr.lit s).bytes := fun b hb => by
  simpa [and_assoc] using List.all_eq_true.mp h b hb

theorem mgMatch_lit {s : String}
    (h : ((CStr.lit s).bytes.all fun b => b != 63 && b != 42 && b != 35) = true) (t : Bytes) :
    mgMatch t (CStr.lit s) = decide (t = (CStr.lit s).bytes) := by
  rw [Bool.eq_iff_iff, decide_eq_true_eq]
  exact mgMatch_plain (plain_lit h) t

theorem handleGet_cases (s : ApiState) (uri : Bytes) :
    (uri = (CStr.lit "/api/v1/screenshot").bytes ∧ handleGet s uri = handleGetScreenshot s) ∨
    (uri ≠ (CStr.lit "/api/v1/screenshot").bytes ∧ ((∃ doc, handleGet s uri =
      (s, sendJson doc, false)) ∨ handleGet s uri = (s, send404, false))) := by
  by_cases hshot : uri = (CStr.lit "/api/v1/screenshot").bytes
  · refine .inl ⟨hshot, ?_⟩
    rw [hshot]
    rfl
  · refine .inr ⟨hshot, ?_⟩
    have hno : mgMatch uri (CStr.lit "/api/v1/screenshot") = false := by
      rw [mgMatch_lit rfl, decide_eq_false hshot]
    unfold handleGet
    dsimp only
    rw [hno, if_neg Bool.false_ne_true]
    split_ifs
    all_goals first
      | exact .inl ⟨_, rfl⟩
      | exact .inr rfl

/-- Only a posted configuration and a screenshot do more than reply. -/
theorem apiRoutesHandle_cases (s : ApiState) (req : HttpRequest) :
    (IsRequest req "POST" "/api/v1/config" ∧
      apiRoutesHandle s req = ((postConfig s req.body).1, (postConfig s req.body).2, false)) ∨
    (IsRequest req "GET" "/api/v1/screenshot" ∧ apiRoutesHandle s req = handleGetScreenshot s) ∨
    (¬ IsRequest req "POST" "/api/v1/config" ∧ ¬ IsRequest req "GET" "/api/v1/screenshot" ∧
      ((∃ doc, apiRoutesHandle s req = (s, sendJson doc, false)) ∨
        apiRoutesHandle s req = (s, send404, false) ∨
        apiRoutesHandle s req = (s, mgHttpReplyWith 204 corsHeaders [], false))) := by
  have hpost : (CStr.lit "POST").bytes ≠ (CStr.lit "GET").bytes := by decide
  unfold apiRoutesHandle IsRequest
  simp only [mgMatch_lit (s := "OPTIONS") rfl, mgMatch_lit (s := "GET") rfl,
    mgMatch_lit (s := "POST") rfl, mgMatch_lit (s := "/api/v1/config") rfl, decide_eq_true_eq]
  split_ifs with hoptions hget hpost' hconfig
  · refine .inr (.inr ⟨fun h => ?_, fun h => ?_, .inr (.inr rfl)⟩)
    · exact absurd (hoptions.symm.trans h.1) (by decide)
    · exact absurd (hoptions.symm.trans h.1) (by decide)
  · rcases handleGet_cases s req.hm.uri with ⟨hshot, heq⟩ | ⟨hother, heq⟩
    · exact .inr (.inl ⟨⟨hget, hshot⟩, heq⟩)
    · exact .inr (.inr ⟨fun h => hpost (h.1.symm.trans hget), fun h => hother h.2,
        heq.imp_right .inl⟩)
  · exact .inl ⟨⟨hpost', hconfig⟩, rfl⟩
  · exact .inr (.inr ⟨fun h => hconfig h.2, fun h => hget h.1, .inr (.inl rfl)⟩)
  · exact .inr (.inr ⟨fun h => hpost' h.1, fun h => hget h.1, .inr (.inl rfl)⟩)

/-! ## Responses -/

/-- One whole response: a head with one of the server's codes, and the body it announces. -/
def Responds (b : Bytes) : Prop :=
  b.length < 2 ^ 32 → ∃ code ∈ sentCodes, ∃ head body, Announces head code body.length ∧
    b = head.bytes ++ body

/-- The lines of `jsonHeaders`. -/
def jsonHeaderLines : List HttpHeader :=
  [⟨CStr.chars "Content-Type", CStr.chars "application/json"⟩,
    ⟨CStr.chars "Access-Control-Allow-Origin", CStr.chars "*"⟩]

/-- The lines of `corsHeaders`. -/
def corsHeaderLines : List HttpHeader :=
  [⟨CStr.chars "Access-Control-Allow-Origin", CStr.chars "*"⟩,
    ⟨CStr.chars "Access-Control-Allow-Methods", CStr.chars "GET, POST, OPTIONS"⟩,
    ⟨CStr.chars "Access-Control-Allow-Headers", CStr.chars "Content-Type"⟩]

theorem plain_jsonHeaders : PlainHeaders jsonHeaderLines where
  text := by decide +kernel
  names := by decide +kernel
  others := by decide +kernel
  count := by decide

theorem plain_corsHeaders : PlainHeaders corsHeaderLines where
  text := by decide +kernel
  names := by decide +kernel
  others := by decide +kernel
  count := by decide

theorem responds_reply {code : Nat} (hcode : code ∈ sentCodes) {headers : CStr}
    {xs : List HttpHeader} (hheaders : headers.bytes = headerText xs) (hxs : PlainHeaders xs)
    (body : Bytes) : Responds (mgHttpReplyWith code headers body) := by
  intro hsize
  have hhead := mgHttpReplyWith_head code hheaders body
  have hlen := congrArg List.length hhead
  rw [List.length_append] at hlen
  exact ⟨code, hcode, _, body, replyHead_announces hcode hxs (by omega), hhead⟩

theorem responds_json {code : Nat} (hcode : code ∈ sentCodes) (body : Bytes) :
    Responds (mgHttpReplyWith code jsonHeaders body) :=
  responds_reply hcode (by decide +kernel) plain_jsonHeaders body

theorem responds_empty {code : Nat} (hcode : code ∈ sentCodes) (body : Bytes) :
    Responds (mgHttpReplyWith code CStr.empty body) :=
  responds_reply hcode (show CStr.empty.bytes = headerText [] from rfl) ⟨nofun, nofun, nofun,
    by decide⟩ body

theorem responds_sendJson (doc : CJson) : Responds (sendJson doc) := by
  rw [sendJson, ← mgHttpReplyWith_ok]
  exact responds_json (by decide) _

/-- The head of a screenshot. -/
def screenshotHead (total w h bpp : Nat) : HttpHead where
  method := CStr.chars "HTTP/1.1"
  target := decimal 200
  proto := CStr.chars "OK"
  headers := [⟨CStr.chars "Content-Type", CStr.chars "application/octet-stream"⟩,
    ⟨CStr.chars "Content-Length", decimal total⟩,
    ⟨CStr.chars "Access-Control-Allow-Origin", CStr.chars "*"⟩,
    ⟨CStr.chars "X-FB-Width", decimal w⟩, ⟨CStr.chars "X-FB-Height", decimal h⟩,
    ⟨CStr.chars "X-FB-BPP", decimal bpp⟩]

theorem screenshotHeader_eq (total w h bpp : Nat) :
    screenshotHeader total w h bpp = (screenshotHead total w h bpp).bytes := by
  have hfirst : CStr.chars "HTTP/1.1 200 OK\r\n" =
      CStr.chars "HTTP/1.1" ++ 32 :: (decimal 200 ++ 32 :: CStr.chars "OK") ++ crlf := by decide
  have htype : CStr.chars "Content-Type: application/octet-stream\r\n" =
      CStr.chars "Content-Type" ++ 58 :: 32 :: CStr.chars "application/octet-stream" ++ crlf := rfl
  have hlength : CStr.chars "Content-Length: " = CStr.chars "Content-Length" ++ [58, 32] := rfl
  have horigin : CStr.chars "Access-Control-Allow-Origin: *\r\n" =
      CStr.chars "Access-Control-Allow-Origin" ++ 58 :: 32 :: CStr.chars "*" ++ crlf := rfl
  have hwidth : CStr.chars "X-FB-Width: " = CStr.chars "X-FB-Width" ++ [58, 32] := rfl
  have hheight : CStr.chars "X-FB-Height: " = CStr.chars "X-FB-Height" ++ [58, 32] := rfl
  have hbpp : CStr.chars "X-FB-BPP: " = CStr.chars "X-FB-BPP" ++ [58, 32] := rfl
  have hline : CStr.chars "\r\n" = crlf := rfl
  rw [screenshotHeader, hfirst, htype, hlength, horigin, hwidth, hheight, hbpp, hline]
  simp only [HttpHead.bytes, HttpHead.lines, HttpHead.firstLine, HttpHead.headerLine,
    screenshotHead, List.map_cons, List.map_nil, List.flatMap_cons, List.flatMap_nil,
    List.append_assoc, List.cons_append, List.nil_append]

theorem screenshotHead_announces {total : Nat} (htotal : total < 2 ^ 32) (w h bpp : Nat) :
    Announces (screenshotHead total w h bpp) 200 total where
  method := rfl
  target := rfl
  wellFormed := by
    have hdecimal : ∀ n, ∀ b ∈ decimal n, isok b = true ∧ inLine b = true := fun n b hb =>
      isok_of_visible (UInt8.lt_iff_toNat_lt.mp (decimal_visible_text n b hb).1).le
    have hfirst : ∀ b ∈ CStr.chars "HTTP/1.1" ++ 32 :: (decimal 200 ++ 32 :: CStr.chars "OK"),
        isok b = true ∧ inLine b = true := by decide +kernel
    have hprint : ∀ {s : Bytes}, Printable s → ∀ b ∈ s, isok b = true ∧ inLine b = true :=
      fun h => h.text
    have hline : ∀ {name value : Bytes}, Printable name →
        (∀ b ∈ value, isok b = true ∧ inLine b = true) →
        ∀ b ∈ HttpHead.headerLine ⟨name, value⟩, isok b = true ∧ inLine b = true := by
      intro name value hname hvalue b hb
      simp only [HttpHead.headerLine, List.mem_append, List.mem_cons] at hb
      rcases hb with hb | rfl | rfl | hb
      · exact hname.text b hb
      · exact ⟨rfl, rfl⟩
      · exact ⟨rfl, rfl⟩
      · exact hvalue b hb
    constructor
    · simp only [HttpHead.lines, screenshotHead, List.map_cons, List.map_nil, List.forall_mem_cons]
      refine ⟨?_, hline rfl (hprint rfl), hline rfl (hdecimal _), hline rfl (hprint rfl),
        hline rfl (hdecimal _), hline rfl (hdecimal _), hline rfl (hdecimal _),
        List.forall_mem_nil _⟩
      exact hfirst
    · exact (rfl : Chars (fun _ => false) (CStr.chars "HTTP/1.1"))
    · exact ⟨decimal_ne_nil 200, (by decide : Chars (fun _ => false) (decimal 200))⟩
    · simp only [screenshotHead, List.forall_mem_cons]
      exact ⟨by decide, by decide, by decide, by decide, by decide, by decide,
        List.forall_mem_nil _⟩
    · exact (by decide : 6 ≤ mgMaxHttpHeaders)
  declared := by
    have htype : sameNoCase (CStr.chars "Content-Type") (CStr.lit "Content-Length").bytes = false :=
      by decide
    have hval := digitsVal_decimal total
    have hback := mgToSizeT_padded (isdigit_decimal total) (decimal_ne_nil total)
      (by rw [hval]; exact htotal) 0
    rw [hval, List.replicate_zero, List.append_nil] at hback
    rw [screenshotHead, List.map_cons, List.map_cons, declaredLength,
      ← List.singleton_append, mgHttpGetHeader_append (List.forall_mem_singleton.mpr htype) rfl]
    exact congrArg some hback

theorem responds_screenshot {data : Bytes} {total : Nat} (htotal : data.length = total)
    (w h bpp : Nat) : Responds (screenshotHeader total w h bpp ++ data) := by
  intro hsize
  rw [List.length_append, htotal] at hsize
  subst htotal
  exact ⟨200, by decide, _, data, screenshotHead_announces (by omega) w h bpp,
    by rw [screenshotHeader_eq]⟩

theorem responds_handleGetScreenshot (s : ApiState) : Responds (handleGetScreenshot s).2.1 := by
  unfold handleGetScreenshot
  split
  · exact responds_json (by decide) _
  · exact responds_json (by decide) _
  · exact responds_empty (by decide) _
  · exact responds_screenshot rfl _ _ _

theorem responds_postConfig (s : ApiState) (body : Bytes) : Responds (postConfig s body).2 := by
  rcases handlePostConfig_cases s.cfg s.file (s.writable 0) (CJson.parseWithLength body) with
    ⟨_, -, h⟩ | ⟨-, h⟩
  · rw [postConfig, h]
    exact responds_sendJson _
  · rw [postConfig, h]
    exact responds_json (by decide) _

/-- Whatever is asked, the answer is one whole response. -/
theorem responds_apiRoutesHandle (s : ApiState) (req : HttpRequest) :
    Responds (apiRoutesHandle s req).2.1 := by
  rcases apiRoutesHandle_cases s req with ⟨-, h⟩ | ⟨-, h⟩ | ⟨-, -, ⟨doc, h⟩ | h | h⟩
  · rw [h]
    exact responds_postConfig s req.body
  · rw [h]
    exact responds_handleGetScreenshot s
  · rw [h]
    exact responds_sendJson doc
  · rw [h]
    exact responds_json (by decide) _
  · rw [h]
    exact responds_reply (by decide) (by decide +kernel) plain_corsHeaders []

/-! ## The API under its clients -/

/-- The bodies posted to the configuration, as `cJSON` reads them. -/
def posted (reqs : List HttpRequest) : List (Option CJson) :=
  (reqs.filter (IsRequest · "POST" "/api/v1/config")).map fun req => CJson.parseWithLength req.body

/-- The body at place `k` was accepted, and the file could be opened for it. -/
def SavedAt (s : ApiState) (posts : List (Option CJson)) (k : Nat) : Prop :=
  (∃ members, posts[k]? = some (some (.object members))) ∧ s.writable k = true

/-- Between two states the table has gone through the bodies, and the file holds it as it was at
the last one that was accepted and could be saved. -/
structure Configured (s : ApiState) (posts : List (Option CJson)) (s' : ApiState) : Prop where
  cfg : s'.cfg = configServer.exec s.cfg posts
  file : (∃ k, SavedAt s posts k ∧ (∀ j, k < j → ¬ SavedAt s posts j) ∧
      s'.file = some (configSave (configServer.exec s.cfg (posts.take (k + 1))))) ∨
    ((∀ k, ¬ SavedAt s posts k) ∧ s'.file = s.file)
  writable : ∀ k, s'.writable k = s.writable (posts.length + k)
  monitor : s'.monitor = s.monitor
  connections : s'.connections = s.connections

namespace Configured

theorem savedAt_lt {s : ApiState} {posts : List (Option CJson)} {k : Nat} (h : SavedAt s posts k) :
    k < posts.length := by
  obtain ⟨⟨members, hk⟩, -⟩ := h
  exact (List.getElem?_eq_some_iff.mp hk).1

theorem savedAt_left {s : ApiState} {xs : List (Option CJson)} (ys : List (Option CJson)) {k : Nat}
    (hk : k < xs.length) : SavedAt s (xs ++ ys) k ↔ SavedAt s xs k := by
  rw [SavedAt, SavedAt, List.getElem?_append_left hk]

theorem savedAt_right {s t : ApiState} {xs ys : List (Option CJson)}
    (hw : ∀ k, t.writable k = s.writable (xs.length + k)) {k : Nat} (hk : xs.length ≤ k) :
    SavedAt s (xs ++ ys) k ↔ SavedAt t ys (k - xs.length) := by
  rw [SavedAt, SavedAt, List.getElem?_append_right hk, hw, Nat.add_sub_cancel' hk]

theorem refl (s : ApiState) : Configured s [] s where
  cfg := rfl
  file := .inr ⟨fun _ h => absurd (savedAt_lt h) (Nat.not_lt_zero _), rfl⟩
  writable k := by rw [List.length_nil, Nat.zero_add]
  monitor := rfl
  connections := rfl

theorem trans {s t u : ApiState} {xs ys : List (Option CJson)} (h1 : Configured s xs t)
    (h2 : Configured t ys u) : Configured s (xs ++ ys) u where
  cfg := by rw [h2.cfg, h1.cfg, Machine.exec_append]
  file := by
    have hright : ∀ {k}, xs.length ≤ k →
        (SavedAt s (xs ++ ys) k ↔ SavedAt t ys (k - xs.length)) := savedAt_right h1.writable
    rcases h2.file with ⟨k, hk, hlast, hfile⟩ | ⟨hnone, hfile⟩
    · -- The last save is behind those of the first part.
      refine .inl ⟨xs.length + k, ?_, fun j hj => ?_, ?_⟩
      · rw [hright (Nat.le_add_right _ _), Nat.add_sub_cancel_left]
        exact hk
      · rw [hright (by omega)]
        exact hlast _ (by omega)
      · rw [hfile, h1.cfg, ← Machine.exec_append, Nat.add_assoc, List.take_length_add_append]
    · rcases h1.file with ⟨k, hk, hlast, hfile1⟩ | ⟨hnone1, hfile1⟩
      · have hlt := savedAt_lt hk
        refine .inl ⟨k, (savedAt_left ys hlt).mpr hk, fun j hj => ?_, ?_⟩
        · by_cases hin : j < xs.length
          · rw [savedAt_left ys hin]
            exact hlast j hj
          · rw [hright (by omega)]
            exact hnone _
        · rw [hfile, hfile1, List.take_append_of_le_length (by omega)]
      · refine .inr ⟨fun j => ?_, hfile.trans hfile1⟩
        by_cases hin : j < xs.length
        · rw [savedAt_left ys hin]
          exact hnone1 j
        · rw [hright (by omega)]
          exact hnone _
  writable k := by rw [h2.writable, h1.writable, List.length_append, Nat.add_assoc]
  monitor := h2.monitor.trans h1.monitor
  connections := h2.connections.trans h1.connections

theorem post (s : ApiState) (body : Bytes) :
    Configured s [CJson.parseWithLength body] (postConfig s body).1 := by
  have hshift : ∀ k, (postConfig s body).1.writable k = s.writable (1 + k) := fun k =>
    congrArg s.writable (Nat.add_comm k 1)
  have htable : (postConfig s body).1.cfg =
      configServer.exec s.cfg [CJson.parseWithLength body] := by
    show (handlePostConfig s.cfg s.file (s.writable 0) _).1 = (handlePostConfig s.cfg none true _).1
    unfold handlePostConfig
    split <;> rfl
  have hfile : (postConfig s body).1.file =
      (handlePostConfig s.cfg s.file (s.writable 0) (CJson.parseWithLength body)).2.1 := rfl
  refine ⟨htable, ?_, hshift, rfl, rfl⟩
  rcases handlePostConfig_cases s.cfg s.file (s.writable 0) (CJson.parseWithLength body) with
    ⟨members, hbody, h⟩ | ⟨hrefused, h⟩
  · rw [h] at hfile
    by_cases hopen : s.writable 0 = true
    · refine .inl ⟨0, ⟨⟨members, by rw [hbody]; rfl⟩, hopen⟩, fun j hj hsaved => ?_, ?_⟩
      · exact absurd (savedAt_lt hsaved) (not_lt.mpr hj)
      · rw [hfile, if_pos hopen, List.take_one, List.head?_cons, Option.toList_some, hbody]
        rfl
    · refine .inr ⟨fun k hsaved => ?_, hfile.trans (if_neg hopen)⟩
      obtain rfl : k = 0 := by simpa using savedAt_lt hsaved
      exact hopen hsaved.2
  · rw [h] at hfile
    refine .inr ⟨fun k hsaved => ?_, hfile⟩
    obtain rfl : k = 0 := by simpa using savedAt_lt hsaved
    obtain ⟨⟨members, hk⟩, -⟩ := hsaved
    exact hrefused members (Option.some_inj.mp hk)

theorem screenshot (s : ApiState) : Configured s [] (handleGetScreenshot s).1 := by
  unfold handleGetScreenshot
  split <;> exact { refl s with }

theorem handle (s : ApiState) (req : HttpRequest) :
    Configured s (posted [req]) (apiRoutesHandle s req).1 := by
  have hother : ¬ IsRequest req "POST" "/api/v1/config" → posted [req] = [] := fun h => by
    rw [posted, List.filter_cons_of_neg (by simpa using h), List.filter_nil, List.map_nil]
  rcases apiRoutesHandle_cases s req with ⟨hpost, h⟩ | ⟨hshot, h⟩ | ⟨hpost, -, ⟨doc, h⟩ | h | h⟩
  · rw [h, posted, List.filter_cons_of_pos (by simpa using hpost), List.filter_nil]
    exact post s req.body
  · rw [h, hother fun hpost => absurd (hpost.1.symm.trans hshot.1) (by decide)]
    exact screenshot s
  all_goals
    rw [h, hother hpost]
    exact refl s

/-- Along the exchanges. -/
theorem exchanges {s s' : ApiState} {a b : Nat → Bool} {outs : List (Nat × ConnOut)}
    (hx : Exchanges apiRoutesHandle s a outs s' b) :
    Configured s (posted (messagesOf (outs.map Prod.snd))) s' := by
  induction hx with
  | nil s => exact refl s
  | refusal _ _ ih => exact ih
  | @message s _ _ _ outs _ _ req _ ih =>
    have hsplit : posted (req :: messagesOf (outs.map Prod.snd)) =
        posted [req] ++ posted (messagesOf (outs.map Prod.snd)) := by
      rw [posted, ← List.singleton_append, List.filter_append, List.map_append, ← posted, ← posted]
    show Configured s (posted (req :: messagesOf (outs.map Prod.snd))) _
    rw [hsplit]
    exact (handle s req).trans ih

/-- Bodies that are refused change nothing. -/
theorem exec_refused {posts : List (Option CJson)} (h : ∀ body ∈ posts, ∀ members,
    body ≠ some (.object members)) (cfg : Config) : configServer.exec cfg posts = cfg := by
  induction posts with
  | nil => rfl
  | cons body posts ih =>
    rw [List.forall_mem_cons] at h
    have hstep : configServer.step cfg body = cfg := by
      rcases handlePostConfig_cases cfg none true body with ⟨members, hbody, -⟩ | ⟨-, heq⟩
      · exact absurd hbody (h.1 members)
      · exact congrArg Prod.fst heq
    rw [Machine.exec_cons, hstep]
    exact ih h.2

/-- While the file can be written, it holds the table as it is from the first accepted body on. -/
theorem current {s s' : ApiState} {posts : List (Option CJson)} (h : Configured s posts s')
    (hopen : ∀ k, s.writable k = true) :
    s'.file = some (configSave s'.cfg) ∨ (s'.file = s.file ∧ s'.cfg = s.cfg) := by
  rcases h.file with ⟨k, hk, hlast, hfile⟩ | ⟨hnone, hfile⟩
  · -- Behind the last accepted body the table stays as it was saved.
    have hrest : ∀ body ∈ posts.drop (k + 1), ∀ members, body ≠ some (.object members) := by
      rintro body hbody members rfl
      obtain ⟨j, hj⟩ := List.mem_iff_getElem?.mp hbody
      rw [List.getElem?_drop] at hj
      exact hlast (k + 1 + j) (by omega) ⟨⟨members, hj⟩, hopen _⟩
    refine .inl ?_
    rw [hfile, h.cfg]
    conv_rhs => rw [← List.take_append_drop (k + 1) posts, Machine.exec_append, exec_refused hrest]
  · refine .inr ⟨hfile, h.cfg.trans (exec_refused ?_ _)⟩
    rintro body hbody members rfl
    obtain ⟨j, hj⟩ := List.mem_iff_getElem?.mp hbody
    exact hnone j ⟨⟨members, hj⟩, hopen _⟩

end Configured

/-- The bodies the clients of a run have posted to the configuration, in their order. -/
def postedIn (s : ApiState × (Nat → Conn)) (es : List (Nat × ConnEvent)) : List (Option CJson) :=
  posted (messagesOf (((server apiRoutesHandle).trace s es).map Prod.snd))

section Run

variable (s : ApiState × (Nat → Conn)) (es : List (Nat × ConnEvent))

/-- **The configuration over the network.** Whatever bytes any number of clients send, in whatever
pieces and order: the table is what the bodies posted to its path have made of it, in the order in
which they were handed over, the file holds the table as it was at the last of them that was
accepted and could be saved, and the rest of the monitor is untouched. -/
theorem server_config :
    Configured s.1 (postedIn s es) ((server apiRoutesHandle).exec s es).1 :=
  .exchanges (server_exchanges s es)

variable {s es}

/-- A monitor that was started without a file, with a screen of two pixels. -/
def bootApi : ApiState where
  monitor := ⟨NetState.zero, alertsInit Config.empty, default, CStr.lit "netmon"⟩
  connections := []
  cfg := (configLoad none).2
  file := none
  writable _ := true
  screens _ := .pixels 2 1 32 [1, 2, 3, 0, 4, 5, 6, 0]

/-- One client posts a setting, in two pieces, while the other asks for the screen. -/
def bootEvents : List (Nat × ConnEvent) :=
  [(1, .read (CStr.chars "POST /api/v1/config HTTP/1.1\r\nContent-Length: 25\r\n\r\n\x7b\"ping_")
      []),
    (2, .read (CStr.chars "GET /api/v1/screenshot HTTP/1.1\r\n\r\n") []),
    (1, .read (CStr.chars "target\":\"1.1.1.1\"\x7d") []), (2, .poll [])]

/-- **Restart.** A monitor that was started from its file and gets only settings that fit comes up
with the same table when it is started again, as long as the file can be written. -/
theorem server_restart (hstart : (configLoad s.1.file).2 = s.1.cfg) (hcfg : Storable s.1.cfg)
    (hopen : ∀ k, s.1.writable k = true) (hposts : ∀ body ∈ postedIn s es, BodyFits body) :
    (configLoad ((server apiRoutesHandle).exec s es).1.file).2 =
      ((server apiRoutesHandle).exec s es).1.cfg := by
  have hconf := Configured.exchanges (server_exchanges s es)
  rcases hconf.current hopen with hfile | ⟨hfile, hsame⟩
  · rw [hfile, roundTrip_iff, hconf.cfg]
    exact storable_exec hcfg hposts
  · rw [hfile, hsame, hstart]

theorem server_restart_boot :
    (configLoad ((server apiRoutesHandle).exec (serverStart bootApi) bootEvents).1.file).2 =
      ((server apiRoutesHandle).exec (serverStart bootApi) bootEvents).1.cfg := by
  have hposted : (postedIn (serverStart bootApi) bootEvents).map (fun body =>
      (CJson.children body).map fun c => (c.1, c.2.valuestring)) =
      [[(some (CStr.lit "ping_target"), some (CStr.lit "1.1.1.1"))]] := by decide +kernel
  refine server_restart rfl (by decide +kernel) (fun _ => rfl) fun body hbody => ?_
  intro key value hmem
  have hrow := List.mem_map_of_mem (f := fun c => (c.1, c.2.valuestring)) hmem
  have hone := List.mem_map_of_mem (f := fun body => (CJson.children body).map fun c =>
    (c.1, c.2.valuestring)) hbody
  rw [hposted, List.mem_singleton] at hone
  rw [hone, List.mem_singleton] at hrow
  cases hrow
  constructor
  · constructor <;> decide +kernel
  · decide +kernel
  · decide +kernel

/-- What a client is sent. -/
def sendsOf (outs : List ConnOut) : List Bytes :=
  outs.filterMap fun
    | .message _ => none
    | .send b => some b

theorem exchanges_responds {s s' : ApiState} {a b : Nat → Bool} {outs : List (Nat × ConnOut)}
    (hx : Exchanges apiRoutesHandle s a outs s' b) :
    ∀ o ∈ outs, ∀ x, o.2 = .send x → Responds x := by
  induction hx with
  | nil => exact nofun
  | refusal _ _ ih =>
    refine List.forall_mem_cons.mpr ⟨fun x hx => ?_, ih⟩
    cases hx
    exact responds_empty (by decide) []
  | message _ req _ ih =>
    refine List.forall_mem_cons.mpr ⟨nofun, List.forall_mem_cons.mpr ⟨fun x hx => ?_, ih⟩⟩
    cases hx
    exact responds_apiRoutesHandle _ req

/-- **Responses.** Whatever the clients send, what each of them gets back are whole responses: at
the end of one below 4 GB the next one begins, and it has one of the server's codes and its exact
length, whatever is in its body. -/
theorem server_responses (i : Nat) {pre post : List Bytes} {b : Bytes}
    (hsends : sendsOf (ofConn i ((server apiRoutesHandle).trace s es)) = pre ++ b :: post)
    (hsize : b.length < 2 ^ 32) :
    ∃ code ∈ sentCodes, ∃ hm, mgHttpParse (b ++ post.flatten) = .message hm ∧
      hm.method = CStr.chars "HTTP/1.1" ∧ hm.uri = decimal code ∧ hm.messageLen = b.length := by
  have hmem : b ∈ sendsOf (ofConn i ((server apiRoutesHandle).trace s es)) := by
    rw [hsends]
    exact List.mem_append_right _ List.mem_cons_self
  obtain ⟨o, ho, hob⟩ := List.mem_filterMap.mp hmem
  obtain ⟨x, hx, hxo⟩ := List.mem_filterMap.mp ho
  have hsend : x.2 = .send b := by
    split at hxo
    · cases hxo
      split at hob
      · cases hob
      · next heq =>
        cases hob
        exact heq
    · cases hxo
  obtain ⟨code, hcode, head, body, hann, rfl⟩ :=
    exchanges_responds (server_exchanges s es) x hx b hsend hsize
  rw [List.length_append] at hsize
  refine ⟨code, hcode, responseMessage head code body.length, ?_, hann.method, rfl, ?_⟩
  · rw [List.append_assoc]
    exact hann.parsed hsize _
  · rw [List.length_append]
    rfl

theorem server_responses_boot :
    ∃ b, sendsOf (ofConn 2 ((server apiRoutesHandle).trace (serverStart bootApi) bootEvents)) =
        [] ++ b :: [] ∧
      ∃ code ∈ sentCodes, ∃ hm, mgHttpParse (b ++ [].flatten) = .message hm ∧
        hm.method = CStr.chars "HTTP/1.1" ∧ hm.uri = decimal code ∧ hm.messageLen = b.length := by
  have hone : (sendsOf (ofConn 2 ((server apiRoutesHandle).trace (serverStart bootApi)
      bootEvents))).length = 1 := by decide +kernel
  have hshort : ∀ b ∈ sendsOf (ofConn 2 ((server apiRoutesHandle).trace (serverStart bootApi)
      bootEvents)), b.length < 2 ^ 32 := by decide +kernel
  obtain ⟨b, hb⟩ := List.length_eq_one_iff.mp hone
  rw [hb, List.forall_mem_singleton] at hshort
  exact ⟨b, hb, server_responses 2 (show _ = [] ++ b :: [] from hb) hshort⟩

/-- **A screenshot is the last answer.** It is not sent by `mg_http_reply`, so behind one that could
be taken the client that asked for it is not served any more: nothing it sends later, and nothing
it had sent already, is handed over or answered. -/
theorem server_screenshot {i : Nat} {req : HttpRequest}
    (hreq : IsRequest req "GET" "/api/v1/screenshot") {pre post : List (Nat × ConnOut)}
    (hmsg : (server apiRoutesHandle).trace s es = pre ++ (i, .message req) :: post) :
    ∃ reply rest, post = (i, .send reply) :: rest ∧
      ((∃ headers text, reply = mgHttpReplyWith 500 headers text) ∨
        ((((server apiRoutesHandle).exec s es).2 i).isResp = true ∧ ∀ o ∈ rest, o.1 ≠ i)) := by
  have hx := server_exchanges (h := apiRoutesHandle) s es
  rw [hmsg] at hx
  obtain ⟨s1, a1, rest, -, hpost, hrest⟩ := hx.split_message
  have hhandle : apiRoutesHandle s1 req = handleGetScreenshot s1 := by
    rcases apiRoutesHandle_cases s1 req with ⟨hother, -⟩ | ⟨-, h⟩ | ⟨-, hno, -⟩
    · exact absurd (hother.1.symm.trans hreq.1) (by decide)
    · exact h
    · exact absurd hreq hno
  refine ⟨_, rest, hpost, ?_⟩
  rw [hhandle] at hrest ⊢
  unfold handleGetScreenshot at hrest ⊢
  split at hrest
  · exact .inl ⟨_, _, rfl⟩
  · exact .inl ⟨_, _, rfl⟩
  · exact .inl ⟨_, _, rfl⟩
  · exact .inr (hrest.silent (Function.update_self _ _ _))

theorem server_screenshot_boot : ∃ pre post req,
    (server apiRoutesHandle).trace (serverStart bootApi) bootEvents =
      pre ++ (2, .message req) :: post ∧
    ∃ reply rest, post = (2, .send reply) :: rest ∧
      ((∃ headers text, reply = mgHttpReplyWith 500 headers text) ∨
        ((((server apiRoutesHandle).exec (serverStart bootApi) bootEvents).2 2).isResp = true ∧
          ∀ o ∈ rest, o.1 ≠ 2)) := by
  have hasked : ((server apiRoutesHandle).trace (serverStart bootApi) bootEvents).any (fun o =>
      (messagesOf (ofConn 2 [o])).any (IsRequest · "GET" "/api/v1/screenshot")) = true := by
    decide +kernel
  obtain ⟨⟨i, out⟩, hmem, hone⟩ := List.any_eq_true.mp hasked
  obtain ⟨req, hreq, his⟩ := List.any_eq_true.mp hone
  obtain ⟨rfl, rfl⟩ : i = 2 ∧ out = .message req := by
    rw [ofConn_cons] at hreq
    split at hreq
    · next hi =>
      cases out with
      | send b => cases hreq
      | message r => exact ⟨hi, by rw [List.mem_singleton.mp hreq]⟩
    · cases hreq
  obtain ⟨pre, post, hsplit⟩ := List.append_of_mem hmem
  exact ⟨pre, post, req, hsplit, server_screenshot (of_decide_eq_true his) hsplit⟩

end Run

end NetMon.Api
