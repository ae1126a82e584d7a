import NetMon.Lib.Inet
import NetMon.Net.Checksum
import NetMon.Net.Ping

/-!
# WAN discovery

`net_discovery.c`: `probe_ttl` sends an echo request with a small TTL and takes the first
datagram its raw ICMP socket gets, `discovery_trace_wan` does so for up to four TTLs. What
the sockets, the clock and the network answer to a probe is its input.

`probe_ttl` looks at the ICMP type alone, so any echo reply or time-exceeded message of the
host is an answer to it (`onlyOwn_iff`). The trace goes on behind the first hop beyond the
gateway and keeps the latency of the last one (`wanSummary_iff`).
-/

namespace NetMon.Net

open NetMon.Lib

/-! ## One probe -/

/-- `struct timeval` -/
structure Timeval where
  sec : Int
  usec : Int
  deriving DecidableEq, Inhabited

/-- What a probe meets: whether it gets its socket, its TTL and its request out, the clock
before and behind, and the first datagram with its sender. -/
structure ProbeInput where
  socket : Bool
  ttlSet : Bool
  sent : Bool
  start : Timeval
  stop : Timeval
  reply : Option (UInt32 × Bytes)

/-- What `probe_ttl` returns (`ok` for 0) and leaves in its two results. -/
structure ProbeOutcome where
  ok : Bool
  responderIp : UInt32
  latencyMs : ℚ
  deriving DecidableEq

/-- `ICMP_TIME_EXCEEDED` -/
def icmpTimeExceeded : UInt8 := 11

/-- `sizeof(struct icmphdr)` -/
def sizeofIcmphdr : Nat := 8

/-- What lands in `recv_buf`. -/
def probeBuf (datagram : Bytes) : Bytes := datagram.take 512

def probeLatency (x : ProbeInput) : ℚ :=
  (x.stop.sec - x.start.sec : Int) * 1000 + (x.stop.usec - x.start.usec : Int) / 1000

/-- The datagrams `probe_ttl` takes for an answer. -/
def Answers (buf : Bytes) : Prop :=
  ipHlen buf + sizeofIcmphdr ≤ buf.length ∧
    (buf.view (ipHlen buf) = icmpTimeExceeded ∨ buf.view (ipHlen buf) = icmpEchoReply)

instance (buf : Bytes) : Decidable (Answers buf) := inferInstanceAs (Decidable (_ ∧ _))

def probeTtl (x : ProbeInput) : ProbeOutcome :=
  if ¬ (x.socket ∧ x.ttlSet ∧ x.sent) then ⟨false, 0, 0⟩
  else match x.reply with
    | none => ⟨false, 0, 0⟩
    | some (src, datagram) => ⟨Answers (probeBuf datagram), src, probeLatency x⟩

/-! ## The trace -/

/-- `DISCOVERY_MAX_HOPS` -/
def discoveryMaxHops : Nat := 4

/-- `trace_target` -/
def traceTarget : CStr := CStr.lit "1.1.1.1"

/-- The hop that is recorded for a probe. -/
def hopOf (o : ProbeOutcome) : DiscoveryHop :=
  if o.ok then ⟨o.responderIp, o.latencyMs, true, CharArray.copy 16 (inetNtoa o.responderIp)⟩
  else ⟨0, 0, false, CharArray.copy 16 (CStr.lit "*")⟩

/-- A hop beyond the gateway. -/
def isBeyond (gw : UInt32) (o : ProbeOutcome) : Bool := o.ok && o.responderIp != gw

/-- The body of the loop behind the probe. -/
def traceHop (gw : UInt32) (r : WanDiscovery) (o : ProbeOutcome) : WanDiscovery :=
  let r := if r.hops.length < discoveryMaxHops then { r with hops := r.hops ++ [hopOf o] } else r
  if isBeyond gw o ∧ 2 ≤ r.hops.length then
    { r with wanReachable := true, wanLatencyMs := o.latencyMs }
  else r

/-- The destination itself answered: the loop ends. -/
def arrived (o : ProbeOutcome) : Bool := o.ok && inetPton traceTarget == some o.responderIp

def traceLoop (gw : UInt32) (r : WanDiscovery) : List ProbeOutcome → WanDiscovery
  | [] => r
  | o :: os => if arrived o then traceHop gw r o else traceLoop gw (traceHop gw r o) os

/-- `discovery_trace_wan`, given what each TTL's probe returns. For a string that is no address
`inet_pton` leaves what the stack holds in `gw_addr`. -/
def discoveryTraceWan (gatewayIp : CStr) (stack : UInt32) (outcome : Nat → ProbeOutcome) :
    WanDiscovery :=
  traceLoop ((inetPton gatewayIp).getD stack) default
    ((List.range' 1 discoveryMaxHops).map outcome)

/-! ## What a trace reports -/

/-- The probes that are sent: those up to the first that arrives. -/
def sentOf : List ProbeOutcome → List ProbeOutcome
  | [] => []
  | o :: os => if arrived o then [o] else o :: sentOf os

def probesSent (outcome : Nat → ProbeOutcome) : List ProbeOutcome :=
  sentOf ((List.range' 1 discoveryMaxHops).map outcome)

theorem sentOf_initial (os : List ProbeOutcome) : sentOf os <+: os := by
  induction os with
  | nil => exact List.prefix_rfl
  | cons o os ih =>
    rw [sentOf]
    split
    · exact ⟨os, rfl⟩
    · exact (List.prefix_cons_inj o).mpr ih

theorem probesSent_length (outcome : Nat → ProbeOutcome) :
    (probesSent outcome).length ≤ discoveryMaxHops := by
  have hle := (sentOf_initial ((List.range' 1 discoveryMaxHops).map outcome)).length_le
  rwa [List.length_map, List.length_range'] at hle

/-- The loop runs its body for the probes that are sent. -/
theorem traceLoop_eq (gw : UInt32) (r : WanDiscovery) (os : List ProbeOutcome) :
    traceLoop gw r os = (sentOf os).foldl (traceHop gw) r := by
  induction os generalizing r with
  | nil => rfl
  | cons o os ih =>
    rw [traceLoop, sentOf]
    split
    · rfl
    · rw [List.foldl_cons, ih]

/-- The answers from beyond the gateway to the probes at TTL 2 and up. -/
def beyond (gw : UInt32) (os : List ProbeOutcome) : List ProbeOutcome :=
  (os.drop 1).filter (isBeyond gw)

theorem beyond_append (gw : UInt32) (os : List ProbeOutcome) (o : ProbeOutcome) :
    beyond gw (os ++ [o]) =
      if isBeyond gw o ∧ 1 ≤ os.length then beyond gw os ++ [o] else beyond gw os := by
  cases os with
  | nil => simp [beyond]
  | cons o' os =>
    rw [beyond, List.cons_append, List.drop_succ_cons, List.drop_zero, List.filter_append,
      List.filter_singleton]
    cases hb : isBeyond gw o with
    | false => simp [beyond]
    | true => simp [beyond]

/-- What the loop has made of the probes so far. -/
structure Traced (gw : UInt32) (os : List ProbeOutcome) (r : WanDiscovery) : Prop where
  hops : r.hops = os.map hopOf
  reachable : r.wanReachable = !(beyond gw os).isEmpty
  latency : r.wanLatencyMs = ((beyond gw os).getLast?.map ProbeOutcome.latencyMs).getD 0

/-- With room in the list, the hop is appended first. -/
theorem traceHop_eq {gw : UInt32} {r : WanDiscovery} (hroom : r.hops.length < discoveryMaxHops)
    (o : ProbeOutcome) : traceHop gw r o =
      if isBeyond gw o ∧ 1 ≤ r.hops.length then
        { r with hops := r.hops ++ [hopOf o], wanReachable := true, wanLatencyMs := o.latencyMs }
      else { r with hops := r.hops ++ [hopOf o] } := by
  have htwo : 2 ≤ (r.hops ++ [hopOf o]).length ↔ 1 ≤ r.hops.length := by
    rw [List.length_append, List.length_singleton]
    omega
  unfold traceHop
  rw [if_pos hroom]
  simp only [htwo]

theorem traced_step {gw : UInt32} {os : List ProbeOutcome} {r : WanDiscovery}
    (h : Traced gw os r) (hlen : os.length < discoveryMaxHops) (o : ProbeOutcome) :
    Traced gw (os ++ [o]) (traceHop gw r o) := by
  have hr : r.hops.length = os.length := by rw [h.hops, List.length_map]
  have hhops : r.hops ++ [hopOf o] = (os ++ [o]).map hopOf := by
    rw [h.hops, List.map_append, List.map_singleton]
  have hbeyond := beyond_append gw os o
  rw [traceHop_eq (by rw [hr]; exact hlen), hr]
  by_cases hnew : isBeyond gw o ∧ 1 ≤ os.length
  · rw [if_pos hnew] at hbeyond ⊢
    refine ⟨hhops, ?_, ?_⟩
    · rw [hbeyond]
      simp
    · rw [hbeyond, List.getLast?_concat]
      rfl
  · rw [if_neg hnew] at hbeyond ⊢
    exact ⟨hhops, by rw [hbeyond]; exact h.reachable, by rw [hbeyond]; exact h.latency⟩

theorem traced_run (gw : UInt32) {os : List ProbeOutcome} (hlen : os.length ≤ discoveryMaxHops) :
    Traced gw os (os.foldl (traceHop gw) default) := by
  induction os using List.reverseRecOn with
  | nil => exact ⟨rfl, rfl, rfl⟩
  | append_singleton os o ih =>
    rw [List.length_append, List.length_singleton] at hlen
    rw [List.foldl_append, List.foldl_cons, List.foldl_nil]
    exact traced_step (ih (by omega)) (by omega) o

/-- What `discovery_trace_wan` leaves behind. -/
theorem traced_trace (gatewayIp : CStr) (stack : UInt32) (outcome : Nat → ProbeOutcome) :
    Traced ((inetPton gatewayIp).getD stack) (probesSent outcome)
      (discoveryTraceWan gatewayIp stack outcome) := by
  rw [discoveryTraceWan, traceLoop_eq]
  exact traced_run _ (probesSent_length outcome)

/-- The probe at a TTL, if it was sent. -/
theorem probesSent_getElem {outcome : Nat → ProbeOutcome} {i : Nat} {o : ProbeOutcome}
    (h : (probesSent outcome)[i]? = some o) : o = outcome (i + 1) := by
  obtain ⟨os, hos⟩ := sentOf_initial ((List.range' 1 discoveryMaxHops).map outcome)
  have hi := (List.getElem?_eq_some_iff.mp h).1
  have hall : ((List.range' 1 discoveryMaxHops).map outcome)[i]? = some o := by
    rw [← hos]
    exact (List.getElem?_append_left hi).trans h
  rw [List.getElem?_map, Option.map_eq_some_iff] at hall
  obtain ⟨ttl, httl, rfl⟩ := hall
  have hlen := probesSent_length outcome
  rw [List.getElem?_range' (by omega), Option.some.injEq] at httl
  rw [← httl, Nat.one_mul, Nat.add_comm]

/-! ## The summary -/

/-- The summary as the structure documents it, with the latency of the first hop beyond the
gateway. -/
structure WanSummary (gw : UInt32) (os : List ProbeOutcome) (r : WanDiscovery) : Prop where
  reachable : r.wanReachable ↔ ∃ o ∈ os.drop 1, o.ok ∧ o.responderIp ≠ gw
  latency : ∀ o ∈ (beyond gw os).head?, r.wanLatencyMs = o.latencyMs
  hops : r.hops = os.map hopOf

/-- **The summary of a trace** is right exactly when the last answer from beyond the gateway has
the latency of the first one. -/
theorem wanSummary_iff {gatewayIp : CStr} {gw : UInt32} (hgw : inetPton gatewayIp = some gw)
    (stack : UInt32) (outcome : Nat → ProbeOutcome) :
    WanSummary gw (probesSent outcome) (discoveryTraceWan gatewayIp stack outcome) ↔
      (beyond gw (probesSent outcome)).getLast?.map ProbeOutcome.latencyMs =
        (beyond gw (probesSent outcome)).head?.map ProbeOutcome.latencyMs := by
  have htraced := traced_trace gatewayIp stack outcome
  rw [hgw, Option.getD_some] at htraced
  have hreachable : (discoveryTraceWan gatewayIp stack outcome).wanReachable ↔
      ∃ o ∈ (probesSent outcome).drop 1, o.ok ∧ o.responderIp ≠ gw := by
    rw [htraced.reachable]
    simp [beyond, isBeyond]
  constructor
  · intro h
    have hfirst := h.latency
    rw [htraced.latency] at hfirst
    cases hb : beyond gw (probesSent outcome) with
    | nil => rfl
    | cons o os =>
      rw [hb, List.getLast?_cons] at hfirst
      rw [List.getLast?_cons, List.head?_cons, Option.map_some, Option.map_some]
      exact congrArg some (hfirst o rfl)
  · intro h
    refine ⟨hreachable, fun o ho => ?_, htraced.hops⟩
    rw [Option.mem_def] at ho
    rw [htraced.latency, h, ho]
    rfl

/-- A gateway, and one answer from beyond it. -/
theorem wanSummary_gateway :
    WanSummary 0x0100000A
      (probesSent fun ttl => ⟨true, if ttl = 1 then 0x0100000A else 0x01010101, 5⟩)
      (discoveryTraceWan (CStr.lit "10.0.0.1") 0
        fun ttl => ⟨true, if ttl = 1 then 0x0100000A else 0x01010101, 5⟩) :=
  (wanSummary_iff (by decide) 0 _).mpr (by decide)

/-- Two hops beyond the gateway: the latency is that of the second. -/
theorem wanLatency_overwritten : ¬ ∀ (gatewayIp : CStr) (gw : UInt32),
    inetPton gatewayIp = some gw → ∀ (stack : UInt32) (outcome : Nat → ProbeOutcome),
      WanSummary gw (probesSent outcome) (discoveryTraceWan gatewayIp stack outcome) := by
  intro h
  have hlatency := (h (CStr.lit "10.0.0.1") 0x0100000A (by decide) 0
    fun ttl => ⟨true, UInt32.ofNat (0x0100000A + ttl - 1), ttl⟩).latency
    ⟨true, 0x0100000B, 2⟩ (by decide)
  revert hlatency
  decide

/-! ## Own answers -/

/-- The fields of an ICMP echo message at `p`. -/
def EchoAt (buf : Bytes) (p : Nat) (type : UInt8) (pid ttl : UInt16) : Prop :=
  p + sizeofIcmphdr ≤ buf.length ∧ buf.view p = type ∧ buf.view.le16 (p + 4) = pid ∧
    buf.view.le16 (p + 6) = ttl

instance (buf : Bytes) (p : Nat) (type : UInt8) (pid ttl : UInt16) :
    Decidable (EchoAt buf p type pid ttl) := inferInstanceAs (Decidable (_ ∧ _ ∧ _ ∧ _))

/-- Where a time-exceeded message quotes the packet it is about. -/
def quote (buf : Bytes) : Nat := ipHlen buf + sizeofIcmphdr

/-- An answer to the probe with this identifier and sequence number: its echo reply, or a
time-exceeded message that quotes its request. -/
def Own (pid ttl : UInt16) (buf : Bytes) : Prop :=
  EchoAt buf (ipHlen buf) icmpEchoReply pid ttl ∨
    buf.view (ipHlen buf) = icmpTimeExceeded ∧
      EchoAt buf (quote buf + ipHlen (buf.drop (quote buf))) icmpEcho pid ttl

instance (pid ttl : UInt16) (buf : Bytes) : Decidable (Own pid ttl buf) :=
  inferInstanceAs (Decidable (_ ∨ _ ∧ _))

/-- An IP header of the length it states. -/
def IpHeader (hdr : Bytes) : Prop := hdr ≠ [] ∧ ipHlen hdr = hdr.length

theorem ipHlen_append {hdr : Bytes} (h : IpHeader hdr) (rest : Bytes) :
    ipHlen (hdr ++ rest) = hdr.length := by
  rw [← h.2, ipHlen, Bytes.view_append_left rest (List.length_pos_iff.mpr h.1)]
  rfl

/-- An echo message with the fields of the probe's request, behind anything. -/
theorem echoAt_append (front : Bytes) (type code c0 c1 : UInt8) (pid ttl : UInt16)
    (rest : Bytes) :
    EchoAt (front ++ (type :: code :: c0 :: c1 :: (u16Bytes pid ++ u16Bytes ttl ++ rest)))
      front.length type pid ttl := by
  have hview := Bytes.view_append_right front
    (type :: code :: c0 :: c1 :: (u16Bytes pid ++ u16Bytes ttl ++ rest))
  refine ⟨?_, hview 0, ?_, ?_⟩
  · simp [sizeofIcmphdr, u16Bytes]
  · rw [View.le16, hview 4, Nat.add_assoc, hview 5]
    exact u16Bytes_le16 pid
  · rw [View.le16, hview 6, Nat.add_assoc, hview 7]
    exact u16Bytes_le16 ttl

/-- The target's reply to the request is the probe's own. -/
theorem own_reply {hdr : Bytes} (h : IpHeader hdr) (c0 c1 : UInt8) (pid ttl : UInt16) :
    Own pid ttl (hdr ++ (icmpEchoReply :: 0 :: c0 :: c1 :: (probeRequest pid ttl).drop 4)) := by
  refine .inl ?_
  rw [ipHlen_append h]
  exact echoAt_append hdr icmpEchoReply 0 c0 c1 pid ttl (List.replicate 8 0)

/-- So is the message of the hop where the request's time is up: it quotes the packet's header
and its first eight bytes. -/
theorem own_exceeded {hdr inner : Bytes} (h : IpHeader hdr) (hinner : IpHeader inner)
    (c0 c1 : UInt8) (pid ttl : UInt16) :
    Own pid ttl (hdr ++ [icmpTimeExceeded, 0, c0, c1, 0, 0, 0, 0] ++ inner ++
      (probeRequest pid ttl).take 8) := by
  obtain ⟨d0, d1, hrequest⟩ : ∃ d0 d1, (probeRequest pid ttl).take 8 =
      icmpEcho :: 0 :: d0 :: d1 :: (u16Bytes pid ++ u16Bytes ttl ++ []) := ⟨_, _, rfl⟩
  have hhlen : ipHlen (hdr ++ [icmpTimeExceeded, 0, c0, c1, 0, 0, 0, 0] ++ inner ++
      (probeRequest pid ttl).take 8) = hdr.length := by
    rw [List.append_assoc, List.append_assoc, ipHlen_append h]
  have hquote : quote (hdr ++ [icmpTimeExceeded, 0, c0, c1, 0, 0, 0, 0] ++ inner ++
      (probeRequest pid ttl).take 8) =
        (hdr ++ [icmpTimeExceeded, 0, c0, c1, 0, 0, 0, 0]).length := by
    rw [quote, hhlen, List.length_append]
    rfl
  refine .inr ⟨?_, ?_⟩
  · rw [hhlen, List.append_assoc, List.append_assoc]
    exact Bytes.view_append_right hdr _ 0
  · rw [hquote, List.append_assoc _ inner, List.drop_left, ipHlen_append hinner,
      ← List.length_append, ← List.append_assoc, hrequest]
    exact echoAt_append _ icmpEcho 0 d0 d1 pid ttl []

/-- The probe's first datagram is an answer to it. -/
def OwnAnswer (pid ttl : UInt16) (x : ProbeInput) : Prop :=
  ∃ r ∈ x.reply, Own pid ttl (probeBuf r.2)

/-- The probe goes out, and what comes first is an echo reply or a time-exceeded message that
has nothing to do with it. -/
def Foreign (pid ttl : UInt16) (x : ProbeInput) : Prop :=
  (x.socket ∧ x.ttlSet ∧ x.sent) ∧
    ∃ r ∈ x.reply, Answers (probeBuf r.2) ∧ ¬ Own pid ttl (probeBuf r.2)

theorem probeTtl_ok (x : ProbeInput) : (probeTtl x).ok ↔
    (x.socket ∧ x.ttlSet ∧ x.sent) ∧ ∃ r ∈ x.reply, Answers (probeBuf r.2) := by
  unfold probeTtl
  by_cases hsent : x.socket ∧ x.ttlSet ∧ x.sent
  · rw [if_neg (not_not.mpr hsent)]
    cases x.reply with
    | none => simp
    | some r => simp [hsent]
  · rw [if_pos hsent]
    simp [hsent]

/-- A probe takes only its own answer exactly when the datagram is not a foreign one. -/
theorem probeTtl_own_iff (pid ttl : UInt16) (x : ProbeInput) :
    ((probeTtl x).ok → OwnAnswer pid ttl x) ↔ ¬ Foreign pid ttl x := by
  rw [probeTtl_ok]
  exact taken_right_iff _ x.reply _ fun r => Own pid ttl (probeBuf r.2)

/-- A trace counts own answers only: in the probes it sends, its hops and its summary. -/
structure OnlyOwn (pid : UInt16) (x : Nat → ProbeInput) (n : Nat) (r : WanDiscovery) : Prop where
  probes : ∀ ttl, 1 ≤ ttl → ttl ≤ n → (probeTtl (x ttl)).ok →
    OwnAnswer pid (UInt16.ofNat ttl) (x ttl)
  hops : ∀ i hop, r.hops[i]? = some hop → hop.reachable →
    OwnAnswer pid (UInt16.ofNat (i + 1)) (x (i + 1))
  wan : r.wanReachable → ∃ ttl, 2 ≤ ttl ∧ ttl ≤ n ∧ OwnAnswer pid (UInt16.ofNat ttl) (x ttl)

/-- **A trace counts only its own answers** exactly when no probe it sends meets a foreign one. -/
theorem onlyOwn_iff (pid : UInt16) (gatewayIp : CStr) (stack : UInt32) (x : Nat → ProbeInput) :
    OnlyOwn pid x (probesSent fun ttl => probeTtl (x ttl)).length
        (discoveryTraceWan gatewayIp stack fun ttl => probeTtl (x ttl)) ↔
      ∀ ttl, 1 ≤ ttl → ttl ≤ (probesSent fun ttl => probeTtl (x ttl)).length →
        ¬ Foreign pid (UInt16.ofNat ttl) (x ttl) := by
  have htraced := traced_trace gatewayIp stack fun ttl => probeTtl (x ttl)
  constructor
  · exact fun h ttl hpos hle => (probeTtl_own_iff pid _ _).mp (h.probes ttl hpos hle)
  · intro h
    have hown : ∀ ttl, 1 ≤ ttl → ttl ≤ (probesSent fun ttl => probeTtl (x ttl)).length →
        (probeTtl (x ttl)).ok → OwnAnswer pid (UInt16.ofNat ttl) (x ttl) :=
      fun ttl hpos hle => (probeTtl_own_iff pid _ _).mpr (h ttl hpos hle)
    refine ⟨hown, fun i hop hhop hreachable => ?_, fun hwan => ?_⟩
    · rw [htraced.hops, List.getElem?_map, Option.map_eq_some_iff] at hhop
      obtain ⟨o, ho, rfl⟩ := hhop
      obtain rfl := probesSent_getElem ho
      refine hown (i + 1) (by omega) (List.getElem?_eq_some_iff.mp ho).1 ?_
      by_contra hfail
      rw [hopOf, if_neg hfail] at hreachable
      cases hreachable
    · rw [htraced.reachable, Bool.not_eq_true', List.isEmpty_eq_false_iff_exists_mem] at hwan
      obtain ⟨o, ho⟩ := hwan
      rw [beyond, List.mem_filter, isBeyond, Bool.and_eq_true] at ho
      obtain ⟨hdrop, hok, -⟩ := ho
      obtain ⟨i, hi⟩ := List.mem_iff_getElem?.mp hdrop
      rw [List.getElem?_drop] at hi
      obtain rfl := probesSent_getElem hi
      have hlt := (List.getElem?_eq_some_iff.mp hi).1
      exact ⟨1 + i + 1, by omega, by omega, hown _ (by omega) (by omega) hok⟩

/-- The reply to a ping of another process, at every TTL. -/
theorem foreign_counted : ¬ ∀ (pid : UInt16) (gatewayIp : CStr) (stack : UInt32)
    (x : Nat → ProbeInput), OnlyOwn pid x (probesSent fun ttl => probeTtl (x ttl)).length
      (discoveryTraceWan gatewayIp stack fun ttl => probeTtl (x ttl)) := by
  intro h
  obtain ⟨ttl, -, -, r, hr, hown⟩ := (h 4711 (CStr.lit "10.0.0.1") 0
    fun _ => ⟨true, true, true, ⟨0, 0⟩, ⟨0, 0⟩,
      some (0x08080808, 0x45 :: List.replicate 19 0 ++ [0, 0, 0, 0, 0, 1, 0, 1])⟩).wan (by decide)
  obtain rfl := Option.some.inj (Option.mem_def.mp hr)
  rcases hown with hown | hown
  · exact absurd hown.2.2.1 (by decide)
  · exact absurd hown.1 (by decide)

end NetMon.Net
