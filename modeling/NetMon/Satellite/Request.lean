import NetMon.Net.WifiScan

/-!
# The feeder's request

`main` of `sat_feeder.c` cuts a host, a port and a path out of its URL, each into a buffer of its
own, and `http_get` prints them into a request of 256 bytes. It writes as many bytes as the whole
text has, so a text that is too long for the buffer is sent with a NUL in it and with what lies
behind the buffer. The request is right exactly when host, port and path have at most 196 bytes
together (`request_complete_iff`); without a path they always do (`request_complete_of_root`).
-/

namespace NetMon.Satellite

open NetMon.Lib NetMon.Net

/-! ## The URL -/

/-- What `parse_url` stores. -/
structure ParsedUrl (hostLen pathLen : Nat) where
  host : CharArray hostLen
  port : Int
  path : CharArray pathLen

def slashByte : UInt8 := 47

def colonByte : UInt8 := 58

/-- `s + n` -/
def pointerAt (s : CStr) (n : Nat) : CStr := s.part (s.bytes.drop n) (List.drop_sublist n s.bytes)

/-- Skip the scheme; `none` is the return value -1. -/
def skipScheme (url : CStr) : Option CStr :=
  if (CStr.chars "http://").isPrefixOf url.bytes then some (pointerAt url 7)
  else if (CStr.chars "https://").isPrefixOf url.bytes then none
  else some url

/-- `colon && (!slash || colon < slash)` -/
def colonFirst (colon slash : Option Nat) : Bool :=
  match colon, slash with
  | some colon, some slash => colon < slash
  | some _, none => true
  | none, _ => false

/-- The position `strchr(p, '/')` finds. -/
def slashOf (p : CStr) : Option Nat := p.bytes.idxOf? slashByte

/-- The position `strchr(p, ':')` finds. -/
def colonOf (p : CStr) : Option Nat := p.bytes.idxOf? colonByte

/-- The host's text: up to the colon, the slash or the end. -/
def hostOf (p : CStr) : CStr :=
  p.trunc <|
    if colonFirst (colonOf p) (slashOf p) then (colonOf p).getD 0 else (slashOf p).getD p.length

/-- The port. `atoi` saturates; C leaves open what it returns for a number that is no `int`. -/
def portOf (p : CStr) : Int :=
  if colonFirst (colonOf p) (slashOf p) then atoi (p.bytes.drop ((colonOf p).getD 0 + 1)) else 80

/-- The path's text: from the slash on. -/
def pathOf (p : CStr) : CStr := (slashOf p).elim (CStr.lit "/") (pointerAt p)

/-- `parse_url`; `none` is the return value -1. -/
def parseUrl (url : CStr) (hostLen pathLen : Nat) : Option (ParsedUrl hostLen pathLen) :=
  (skipScheme url).map fun p =>
    { host := CharArray.copy hostLen (hostOf p)
      port := portOf p
      path := CharArray.copy pathLen (pathOf p) }

/-- `api_host`, `api_port` and `api_path`. -/
abbrev ApiUrl := ParsedUrl 128 128

/-- `strcmp(api_path, "/") == 0 ? "" : api_path` -/
def apiPrefix (apiPath : CStr) : CStr := if apiPath = CStr.lit "/" then CStr.empty else apiPath

/-- `status_path` -/
def statusPath (apiPath : CStr) : CharArray 256 :=
  CharArray.copy 256 (apiPrefix apiPath ++ CStr.lit "/api/v1/status")

/-! ## The request -/

/-- The text `http_get` prints. -/
def requestText (host : CStr) (port : Int) (path : CStr) : CStr :=
  CStr.lit "GET " ++ path ++ CStr.lit " HTTP/1.0\r\n" ++
    CStr.lit "Host: " ++ host ++ CStr.lit ":" ++ CStr.lit s!"{port}" ++ CStr.lit "\r\n" ++
    CStr.lit "Connection: close\r\n" ++ CStr.lit "\r\n"

/-- The length `http_get` passes to `write`, and the bytes it has written. -/
structure HttpRequest where
  reqLen : Nat
  sent : Bytes

/-- `sizeof(req)` -/
def sizeofReq : Nat := 256

/-- `http_get` up to its `write`. The memory behind `req` holds what the stack holds. -/
def httpGetRequest (stack : View) (host : CStr) (port : Int) (path : CStr) : HttpRequest :=
  let text := requestText host port path
  { reqLen := text.length
    sent := (stack.snprintf sizeofReq text).slice 0 text.length }

/-- The request `main` makes. -/
def statusRequest (stack : View) (u : ApiUrl) : HttpRequest :=
  httpGetRequest stack u.host.str u.port (statusPath u.path.str).str

/-- A GET request for `target`, line by line. The empty line ends it. -/
def getRequest (target host : CStr) (port : Int) : Bytes :=
  [CStr.chars "GET " ++ target.bytes ++ CStr.chars " HTTP/1.0",
    CStr.chars "Host: " ++ host.bytes ++ CStr.chars ":" ++ (CStr.lit s!"{port}").bytes,
    CStr.chars "Connection: close", []].flatMap (· ++ [13, 10])

/-- The request is within its buffer, and it is the whole request for the status below the
URL's path. -/
structure RequestComplete (r : HttpRequest) (u : ApiUrl) : Prop where
  bounded : r.reqLen < sizeofReq
  complete :
    r.sent = getRequest (apiPrefix u.path.str ++ CStr.lit "/api/v1/status") u.host.str u.port

/-! ## Its length -/

/-- The path of the status has room in its buffer. -/
theorem statusPath_str (path : CharArray 128) :
    (statusPath path.str).str = apiPrefix path.str ++ CStr.lit "/api/v1/status" := by
  apply CStr.trunc_of_le
  have hpath := path.fits
  have hprefix : (apiPrefix path.str).length ≤ path.str.length := by
    unfold apiPrefix
    split
    · exact Nat.zero_le _
    · exact le_rfl
  have hsuffix : (CStr.lit "/api/v1/status").length = 14 := rfl
  show ((apiPrefix path.str).bytes ++ (CStr.lit "/api/v1/status").bytes).length ≤ 255
  rw [List.length_append]
  simp only [CStr.length] at *
  omega

theorem requestText_bytes (host : CStr) (port : Int) (path : CStr) :
    (requestText host port path).bytes = getRequest path host port := by
  simp only [requestText, CStr.append_bytes, getRequest, List.flatMap_cons, List.flatMap_nil,
    List.append_assoc, List.append_nil, List.nil_append]
  rfl

theorem requestText_length (host : CStr) (port : Int) (path : CStr) :
    (requestText host port path).length =
      45 + (path.length + host.length + (CStr.lit s!"{port}").length) := by
  have hget : (CStr.lit "GET ").bytes.length = 4 := rfl
  have hversion : (CStr.lit " HTTP/1.0\r\n").bytes.length = 11 := rfl
  have hhost : (CStr.lit "Host: ").bytes.length = 6 := rfl
  have hcolon : (CStr.lit ":").bytes.length = 1 := rfl
  have hend : (CStr.lit "\r\n").bytes.length = 2 := rfl
  have hclose : (CStr.lit "Connection: close\r\n").bytes.length = 19 := rfl
  simp only [requestText, CStr.length, CStr.append_bytes, List.length_append, hget, hversion, hhost,
    hcolon, hend, hclose]
  omega

/-- What the host, the port and the path add to the fixed text. -/
def variableLength (u : ApiUrl) : Nat :=
  u.host.str.length + (CStr.lit s!"{u.port}").length + (apiPrefix u.path.str).length

theorem statusRequest_reqLen (stack : View) (u : ApiUrl) :
    (statusRequest stack u).reqLen = 59 + variableLength u := by
  have hsuffix : (CStr.lit "/api/v1/status").bytes.length = 14 := rfl
  show (requestText u.host.str u.port (statusPath u.path.str).str).length = _
  rw [requestText_length, statusPath_str, variableLength]
  simp only [CStr.length, CStr.append_bytes, List.length_append, hsuffix]
  omega

theorem statusRequest_sent_iff (stack : View) (u : ApiUrl) :
    (statusRequest stack u).sent =
        getRequest (apiPrefix u.path.str ++ CStr.lit "/api/v1/status") u.host.str u.port ↔
      (statusRequest stack u).reqLen < sizeofReq := by
  rw [← statusPath_str, ← requestText_bytes]
  exact stack.slice_snprintf_iff (by decide) _

theorem statusRequest_complete_iff (stack : View) (u : ApiUrl) :
    RequestComplete (statusRequest stack u) u ↔ variableLength u ≤ 196 := by
  have hlen := statusRequest_reqLen stack u
  have hbound : (statusRequest stack u).reqLen < sizeofReq ↔ variableLength u ≤ 196 := by
    rw [hlen]
    unfold sizeofReq
    omega
  rw [← hbound]
  exact ⟨fun h => h.bounded, fun h => ⟨h, (statusRequest_sent_iff stack u).mpr h⟩⟩

/-! ## URLs -/

/-- The bytes of a URL's host and path that the buffers of `main` keep, and the digits of its
port. A path that is only a slash counts for nothing. -/
def urlLength (url : CStr) : Nat :=
  (skipScheme url).elim 0 fun p =>
    min (hostOf p).length 127 + (CStr.lit s!"{portOf p}").length +
      min (apiPrefix (pathOf p)).length 127

theorem copy_length {n : Nat} (s : CStr) :
    (CharArray.copy n s).str.length = min s.length (n - 1) := by
  show (s.bytes.take (n - 1)).length = _
  rw [List.length_take, Nat.min_comm]
  rfl

/-- A path is cut to a slash only if it is one. -/
theorem apiPrefix_copy_length (path : CStr) :
    (apiPrefix (CharArray.copy 128 path).str).length = min (apiPrefix path).length 127 := by
  have hroot : (CStr.lit "/").length = 1 := rfl
  by_cases hpath : path = CStr.lit "/"
  · have hcopy : (CharArray.copy 128 path).str = CStr.lit "/" := by
      rw [hpath]
      rfl
    rw [apiPrefix, apiPrefix, if_pos hpath, if_pos hcopy]
    rfl
  · have hcopy : (CharArray.copy 128 path).str ≠ CStr.lit "/" := by
      intro h
      have hlen := congrArg CStr.length h
      rw [copy_length, hroot] at hlen
      exact hpath ((CStr.trunc_of_le (by omega)).symm.trans h)
    rw [apiPrefix, apiPrefix, if_neg hpath, if_neg hcopy, copy_length]

theorem variableLength_of_parseUrl {url : CStr} {u : ApiUrl} (h : parseUrl url 128 128 = some u) :
    variableLength u = urlLength url := by
  obtain ⟨p, hp, rfl⟩ := Option.map_eq_some_iff.mp h
  simp only [variableLength, urlLength, hp, Option.elim_some, copy_length, apiPrefix_copy_length]

/-- **The request.** For every URL that `parse_url` accepts, the feeder's request stays in its
buffer and is sent whole exactly when host, port and path have at most 196 bytes. -/
theorem request_complete_iff (stack : View) {url : CStr} {u : ApiUrl}
    (hurl : parseUrl url 128 128 = some u) :
    RequestComplete (statusRequest stack u) u ↔ urlLength url ≤ 196 := by
  rw [statusRequest_complete_iff, variableLength_of_parseUrl hurl]

/-- The default URL. -/
theorem request_complete_default :
    ∃ u, parseUrl (CStr.lit "http://localhost:8080") 128 128 = some u ∧
      RequestComplete (statusRequest (fun _ => 0) u) u := by
  have hlen : urlLength (CStr.lit "http://localhost:8080") ≤ 196 := by decide +kernel
  exact ⟨_, rfl, (request_complete_iff (fun _ => 0) rfl).mpr hlen⟩

/-- A host of 80 bytes, the port 8080 and a path of 121 bytes. -/
def longUrl : CStr :=
  CStr.ofBytes (CStr.chars "http://" ++ List.replicate 40 104 ++ [46] ++ List.replicate 39 104 ++
    CStr.chars ":8080/" ++ List.replicate 120 112)

/-- Its request has 264 bytes. -/
theorem request_too_long : ¬ ∀ (stack : View) (url : CStr) (u : ApiUrl),
    parseUrl url 128 128 = some u → RequestComplete (statusRequest stack u) u := by
  intro h
  have hlong : urlLength longUrl = 205 := by decide +kernel
  have hsome : (parseUrl longUrl 128 128).isSome := by decide +kernel
  obtain ⟨u, hu⟩ := Option.isSome_iff_exists.mp hsome
  have hbound := (h (fun _ => 0) longUrl u hu).bounded
  rw [statusRequest_reqLen, variableLength_of_parseUrl hu, hlong] at hbound
  exact absurd hbound (by decide)

theorem atoi_bounds (s : Bytes) : -2147483648 ≤ atoi s ∧ atoi s ≤ 2147483647 := by
  unfold atoi strtol
  cases scanNumber (CStr.ofBytes s).bytes with
  | none => decide
  | some r =>
    simp only [Option.map_some, Option.getD_some]
    omega

/-- Without a path there is always room. -/
theorem request_complete_of_root (stack : View) {url p : CStr} {u : ApiUrl}
    (hurl : parseUrl url 128 128 = some u) (hp : skipScheme url = some p)
    (hpath : pathOf p = CStr.lit "/") : RequestComplete (statusRequest stack u) u := by
  have hport : (CStr.lit s!"{portOf p}").length ≤ 11 := by
    unfold portOf
    split
    · exact CStr.lit_int_length_le (atoi_bounds _).1 (atoi_bounds _).2
    · decide
  have hprefix : (apiPrefix (pathOf p)).length = 0 := by
    rw [hpath]
    rfl
  rw [statusRequest_complete_iff, variableLength_of_parseUrl hurl, urlLength, hp, Option.elim_some,
    hprefix]
  omega

end NetMon.Satellite
