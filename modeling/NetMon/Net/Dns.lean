import NetMon.Lib.DomainName
import NetMon.Lib.Inet
import NetMon.Net.Ping

/-!
# The DNS probe

`net_dns.c`: `encode_qname` writes a hostname into the query as a name on the wire, and
`net_dns_probe` sends the query and waits for a reply. `int` is as wide as a pointer here, so
that the casts of lengths are exact.

The encoding is right for every name and every room (`encodeQname_spec`). Of the reply only the
length and the transaction id are looked at, so that a failure counts as well
(`resolves_iff`).
-/

namespace NetMon.Net

open NetMon.Lib NetMon.Core

/-! ## The name -/

/-- `if (*p == '.') p++;` -/
def skipDot (p : Bytes) : Bytes := if p.head? = some 46 then p.tail else p

/-- The loop of `encode_qname` with `p` left to do, and the root label behind it: what is
written and where, and the return value (none for -1). -/
def encodeLoop (buflen : Int) (pos : Nat) (p : Bytes) : List (UInt8 × Nat) × Option Nat :=
  if p = [] then
    if (pos : Int) + 1 ≥ buflen then ([], none) else ([(0, pos)], some (pos + 1))
  else
    let label := p.takeWhile (· != 46)
    if label.length = 0 ∨ label.length > 63 then ([], none)
    else if (pos : Int) + 1 + label.length ≥ buflen then ([], none)
    else
      let r := encodeLoop buflen (pos + 1 + label.length) (skipDot (p.drop label.length))
      ((UInt8.ofNat label.length, pos) :: label.zipIdx (pos + 1) ++ r.1, r.2)
termination_by p.length
decreasing_by
  have hpos := List.length_pos_iff.mpr ‹¬p = []›
  have hlabel : (p.takeWhile (· != 46)).length ≠ 0 := fun h => ‹¬(_ ∨ _)› (.inl h)
  unfold skipDot
  split
  · rw [List.length_tail, List.length_drop]
    omega
  · rw [List.length_drop]
    omega

def encodeQname (buflen : Int) (hostname : CStr) : List (UInt8 × Nat) × Option Nat :=
  encodeLoop buflen 0 hostname.bytes

theorem skipDot_tail {tail : Bytes} (h : IsTail 46 tail) : skipDot tail = tail.drop 1 := by
  cases tail with
  | nil => rfl
  | cons b rest =>
    obtain rfl : b = 46 := h b rfl
    rfl

/-- The loop on a first label and what is behind it. -/
theorem encodeLoop_append {buflen : Int} {pos : Nat} {l tail : Bytes} (h : 46 ∉ l)
    (htail : IsTail 46 tail) (hne : l ++ tail ≠ []) : encodeLoop buflen pos (l ++ tail) =
      if ¬ LabelFits l ∨ (pos : Int) + 1 + l.length ≥ buflen then ([], none)
      else ((wireLabel l).zipIdx pos ++ (encodeLoop buflen (pos + 1 + l.length) (tail.drop 1)).1,
        (encodeLoop buflen (pos + 1 + l.length) (tail.drop 1)).2) := by
  have hfits : (l.length = 0 ∨ l.length > 63) ↔ ¬ LabelFits l := by
    unfold LabelFits
    omega
  rw [encodeLoop, if_neg hne]
  simp only [takeWhile_field h htail, hfits, List.drop_left, skipDot_tail htail]
  by_cases hl : LabelFits l
  · simp [hl, wireLabel]
  · simp [hl]

/-- A name that fits into the room, laid out from `pos` on with `n` as the end. -/
def NameFits (buflen : Int) (pos : Nat) (p : Bytes) (n : Nat) : Prop :=
  (∀ l ∈ labels p, LabelFits l) ∧ n = pos + (wireName (labels p)).length ∧ (n : Int) < buflen

/-- What the loop does from a position on. -/
structure Encodes (buflen : Int) (pos : Nat) (p : Bytes) (r : List (UInt8 × Nat) × Option Nat) :
    Prop where
  accepts : ∀ n, r.2 = some n ↔ NameFits buflen pos p n
  writes : ∀ n, r.2 = some n → r.1 = (wireName (labels p)).zipIdx pos
  bounds : ∀ w ∈ r.1, (w.2 : Int) < buflen

theorem encodes_refused {buflen : Int} {pos : Nat} {p : Bytes}
    (h : ∀ n, ¬ NameFits buflen pos p n) : Encodes buflen pos p ([], none) :=
  ⟨fun n => iff_of_false nofun (h n), nofun, nofun⟩

/-- The root label behind the loop. -/
theorem encodes_root (buflen : Int) (pos : Nat) :
    Encodes buflen pos [] (encodeLoop buflen pos []) := by
  rw [encodeLoop, if_pos rfl]
  by_cases hroom : (pos : Int) + 1 ≥ buflen
  · rw [if_pos hroom]
    apply encodes_refused
    intro n
    rintro ⟨-, rfl, hlt⟩
    exact absurd hlt (not_lt.mpr hroom)
  · rw [if_neg hroom]
    refine ⟨fun n => ?_, fun n _ => rfl, fun w hw => ?_⟩
    · rw [Option.some.injEq, eq_comm]
      exact ⟨fun h => ⟨nofun, h, by rw [h]; exact not_le.mp hroom⟩, fun h => h.2.1⟩
    · rw [List.mem_singleton] at hw
      subst hw
      simp only
      omega

/-- A label the loop writes, in front of what it does behind it. -/
theorem encodes_label {buflen : Int} {pos : Nat} {l tail : Bytes}
    {r : List (UInt8 × Nat) × Option Nat} (hl : LabelFits l) (h : 46 ∉ l) (htail : IsTail 46 tail)
    (hroom : (pos : Int) + 1 + l.length < buflen)
    (hr : Encodes buflen (pos + 1 + l.length) (tail.drop 1) r) :
    Encodes buflen pos (l ++ tail) ((wireLabel l).zipIdx pos ++ r.1, r.2) := by
  have hlabels := labels_append (List.length_pos_iff.mp hl.1) h htail
  have hend : pos + (wireLabel l).length = pos + 1 + l.length := by
    rw [wireLabel, List.length_cons]
    omega
  refine ⟨fun n => ?_, fun n hn => ?_, fun w hw => ?_⟩
  · rw [hr.accepts n, NameFits, NameFits, hlabels, List.forall_mem_cons, wireName_cons,
      List.length_append, ← Nat.add_assoc, hend]
    exact ⟨fun hfits => ⟨⟨hl, hfits.1⟩, hfits.2⟩, fun hfits => ⟨hfits.1.2, hfits.2⟩⟩
  · rw [hr.writes n hn, hlabels, wireName_cons, List.zipIdx_append, hend]
  · rcases List.mem_append.mp hw with hw | hw
    · have hlt := List.snd_lt_add_of_mem_zipIdx hw
      omega
    · exact hr.bounds w hw

theorem encodeLoop_encodes (buflen : Int) (pos : Nat) (p : Bytes) :
    Encodes buflen pos p (encodeLoop buflen pos p) := by
  induction p using fields_induction 46 generalizing pos with
  | nil => exact encodes_root buflen pos
  | field l tail h htail hne ih =>
    rw [encodeLoop_append h htail hne]
    by_cases hstop : ¬ LabelFits l ∨ (pos : Int) + 1 + l.length ≥ buflen
    · rw [if_pos hstop]
      apply encodes_refused
      intro n hfits
      obtain ⟨hall, rfl, hlt⟩ := hfits
      have hl := hall l (mem_labels_append h htail hne)
      have hroom := hstop.resolve_left (not_not.mpr hl)
      rw [labels_append (List.length_pos_iff.mp hl.1) h htail, wireName_cons, wireLabel,
        List.cons_append, List.length_cons, List.length_append] at hlt
      omega
    · rw [if_neg hstop]
      rw [not_or, not_not, not_le] at hstop
      exact encodes_label hstop.1 h htail hstop.2 (ih _)

/-- What `encode_qname` promises for a buffer of this length. -/
structure QnameEncoded (buflen : Int) (hostname : CStr) (r : List (UInt8 × Nat) × Option Nat) :
    Prop where
  accepts : ∀ n, r.2 = some n ↔ (∀ l ∈ labels hostname.bytes, LabelFits l) ∧
    n = ((labels hostname.bytes).map fun l => l.length + 1).sum + 1 ∧ (n : Int) < buflen
  decodes : ∀ n, r.2 = some n → ∀ m : View,
    decodeName ((m.store r.1).slice 0 n) = some (labels hostname.bytes, [])
  bounds : ∀ w ∈ r.1, (w.2 : Int) < buflen

/-- **A hostname's encoding** decodes to its labels, is refused only where it has to be, and
stays in its buffer. -/
theorem encodeQname_spec (buflen : Int) (hostname : CStr) :
    QnameEncoded buflen hostname (encodeQname buflen hostname) := by
  have h := encodeLoop_encodes buflen 0 hostname.bytes
  refine ⟨fun n => ?_, fun n hn m => ?_, h.bounds⟩
  · rw [← wireName_length, ← Nat.zero_add (wireName _).length]
    exact h.accepts n
  · obtain ⟨hfits, hlen, -⟩ := (h.accepts n).mp hn
    rw [Nat.zero_add] at hlen
    have hback := decodeName_wireName hfits []
    rw [List.append_nil] at hback
    rw [encodeQname, h.writes n hn, hlen, View.slice_store, hback]

/-! ## The probe -/

/-- `sizeof(dns_header_t)` -/
def sizeofDnsHeader : Nat := 12

/-- `DNS_MAX_PKT` -/
def dnsMaxPkt : Nat := 512

/-- A 16-bit word laid out in network order. -/
def be16Bytes (v : UInt16) : Bytes := (u16Bytes v).reverse

/-- The query: `DNS_FLAG_RD`, one question, and its name, `DNS_TYPE_A` and `DNS_CLASS_IN`.
Nothing if the name cannot be encoded. -/
def dnsQuery (txnId : UInt16) (hostname : CStr) : Option Bytes :=
  let r := encodeQname (dnsMaxPkt - sizeofDnsHeader - 4) hostname
  r.2.map fun qnameLen =>
    be16Bytes txnId ++ be16Bytes 0x0100 ++ be16Bytes 1 ++ List.replicate 6 0 ++
      (View.store (fun _ => 0) r.1).slice 0 qnameLen ++ be16Bytes 1 ++ be16Bytes 1

/-- A query fits its packet, and its question is about the hostname. -/
theorem dnsQuery_question {txnId : UInt16} {hostname : CStr} {pkt : Bytes}
    (h : dnsQuery txnId hostname = some pkt) : pkt.length ≤ dnsMaxPkt ∧
      decodeName (pkt.drop sizeofDnsHeader) = some (labels hostname.bytes, [0, 1, 0, 1]) := by
  obtain ⟨n, hn, rfl⟩ := Option.map_eq_some_iff.mp h
  have hname := encodeLoop_encodes (dnsMaxPkt - sizeofDnsHeader - 4) 0 hostname.bytes
  obtain ⟨hfits, hlen, hlt⟩ := (hname.accepts n).mp hn
  have hwire : (View.store (fun _ => 0)
      (encodeQname (dnsMaxPkt - sizeofDnsHeader - 4) hostname).1).slice 0 n =
        wireName (labels hostname.bytes) := by
    rw [encodeQname, hname.writes n hn, hlen, Nat.zero_add, View.slice_store]
  rw [hwire]
  constructor
  · have hroom : ((dnsMaxPkt : Int) - sizeofDnsHeader - 4) = 496 := rfl
    rw [hroom] at hlt
    simp only [be16Bytes, List.length_append, List.length_reverse, u16Bytes_length,
      List.length_replicate, dnsMaxPkt]
    omega
  · rw [List.append_assoc, List.append_assoc]
    exact decodeName_wireName hfits [0, 1, 0, 1]

theorem dnsQuery_ne_none {txnId : UInt16} {hostname : CStr} {n : Nat}
    (h : NameFits (dnsMaxPkt - sizeofDnsHeader - 4) 0 hostname.bytes n) :
    dnsQuery txnId hostname ≠ none := by
  have hn := ((encodeLoop_encodes _ 0 hostname.bytes).accepts n).mpr h
  unfold dnsQuery encodeQname
  simp only
  rw [hn]
  exact Option.some_ne_none _

/-- What a probe meets: the low words of the process id and the time, whether it gets its
socket and the query out, when, and the first datagram with the time behind it. -/
structure DnsInput where
  pid : UInt32
  time : UInt32
  socket : Bool
  sent : Bool
  sendTime : Timespec
  reply : Option Bytes
  recvTime : Timespec

def DnsInput.txnId (x : DnsInput) : UInt16 := (x.pid ^^^ x.time).toUInt16

/-- What lands in `resp`. -/
def dnsResp (datagram : Bytes) : Bytes := datagram.take dnsMaxPkt

/-- `net_dns_probe`, with the latency the caller finds. -/
def netDnsProbe (dnsServer hostname : CStr) (x : DnsInput) : Bool × ℚ :=
  if inetPton dnsServer = none then (false, 0)
  else if dnsQuery x.txnId hostname = none then (false, 0)
  else if ¬ (x.socket ∧ x.sent) then (false, 0)
  else match x.reply with
    | none => (false, 0)
    | some datagram =>
      if (dnsResp datagram).length < sizeofDnsHeader then (false, 0)
      else if be16 (dnsResp datagram).view 0 ≠ x.txnId then (false, 0)
      else (true, timespecDiffMs x.sendTime x.recvTime)

/-! ## Health -/

/-- `APP_DEFAULT_DNS_TARGET` -/
def defaultDnsTarget : CStr := CStr.lit "8.8.8.8"

/-- `APP_DEFAULT_DNS_HOST` -/
def defaultDnsHost : CStr := CStr.lit "google.com"

def dnsTarget (cfg : Config) : CStr := configGetStr cfg (CStr.lit "dns_target") defaultDnsTarget

def dnsTestHostname (cfg : Config) : CStr :=
  configGetStr cfg (CStr.lit "dns_test_hostname") defaultDnsHost

/-- The slow tick with the probe's answer. -/
def probeDns (c : Collector) (i : SlowInput) (x : DnsInput) : SlowInput :=
  { i with dns := netDnsProbe (dnsTarget c.cfg) (dnsTestHostname c.cfg) x }

/-- The probe's query goes out. -/
def QuerySent (cfg : Config) (x : DnsInput) : Prop :=
  inetPton (dnsTarget cfg) ≠ none ∧ dnsQuery x.txnId (dnsTestHostname cfg) ≠ none ∧
    x.socket ∧ x.sent

/-- A packet with the transaction's id. -/
def IsAnswer (txnId : UInt16) (resp : Bytes) : Prop :=
  sizeofDnsHeader ≤ resp.length ∧ be16 resp.view 0 = txnId

/-- A response without an error that has answer records: QR, RCODE and ANCOUNT. -/
def Success (resp : Bytes) : Prop :=
  resp.view 2 &&& 0x80 ≠ 0 ∧ resp.view 3 &&& 0x0F = 0 ∧ be16 resp.view 6 ≠ 0

theorem netDnsProbe_iff (cfg : Config) (x : DnsInput) :
    (netDnsProbe (dnsTarget cfg) (dnsTestHostname cfg) x).1 ↔
      QuerySent cfg x ∧ ∃ d ∈ x.reply, IsAnswer x.txnId (dnsResp d) := by
  unfold netDnsProbe
  by_cases hserver : inetPton (dnsTarget cfg) = none
  · simp [hserver, QuerySent]
  · by_cases hquery : dnsQuery x.txnId (dnsTestHostname cfg) = none
    · simp [hquery, QuerySent]
    · by_cases hsent : x.socket ∧ x.sent
      · cases x.reply with
        | none => simp [hserver, hquery, hsent]
        | some d =>
          by_cases hlen : (dnsResp d).length < sizeofDnsHeader
          · simp [hserver, hquery, hsent, IsAnswer, hlen]
          · by_cases hid : be16 (dnsResp d).view 0 = x.txnId
            · simp [hserver, hquery, hsent, IsAnswer, hlen, hid, QuerySent, not_lt.mp hlen]
            · simp [hserver, hquery, hsent, IsAnswer, hlen, hid]
      · simp [hserver, hquery, hsent, QuerySent]

/-- A slow tick sets the flag for every answer. -/
theorem slowTimerCb_resolves_iff (c : Collector) (i : SlowInput) (x : DnsInput) :
    (slowTimerCb c (probeDns c i x)).state.connectivity.dnsResolves ↔
      QuerySent c.cfg x ∧ ∃ d ∈ x.reply, IsAnswer x.txnId (dnsResp d) := by
  have hflag : (slowTimerCb c (probeDns c i x)).state.connectivity.dnsResolves =
      (netDnsProbe (dnsTarget c.cfg) (dnsTestHostname c.cfg) x).1 := by
    obtain ⟨tick, wan, hslow⟩ := slowTimerCb_frame c (probeDns c i x)
    rw [hslow]
    rfl
  rw [hflag, netDnsProbe_iff]

/-- **The name counts as resolved only for a success** exactly when the answer that is taken is
no failure. -/
theorem resolves_iff (c : Collector) (i : SlowInput) (x : DnsInput) :
    ((slowTimerCb c (probeDns c i x)).state.connectivity.dnsResolves →
        ∃ d ∈ x.reply, IsAnswer x.txnId (dnsResp d) ∧ Success (dnsResp d)) ↔
      ¬ (QuerySent c.cfg x ∧
        ∃ d ∈ x.reply, IsAnswer x.txnId (dnsResp d) ∧ ¬ Success (dnsResp d)) := by
  have hfailure : ∀ d, (IsAnswer x.txnId (dnsResp d) ∧
      ¬ (IsAnswer x.txnId (dnsResp d) ∧ Success (dnsResp d))) ↔
        IsAnswer x.txnId (dnsResp d) ∧ ¬ Success (dnsResp d) := fun d =>
    and_congr_right fun hanswer => not_congr (and_iff_right hanswer)
  rw [slowTimerCb_resolves_iff, taken_right_iff]
  simp only [hfailure]

/-- Nothing configured, and the default server fails: flags `8182`, no answers. -/
theorem servfail_resolves : ¬ ∀ (c : Collector) (i : SlowInput) (x : DnsInput),
    (slowTimerCb c (probeDns c i x)).state.connectivity.dnsResolves →
      ∃ d ∈ x.reply, IsAnswer x.txnId (dnsResp d) ∧ Success (dnsResp d) := by
  intro h
  have hname : NameFits 496 0 defaultDnsHost.bytes 12 := ⟨by decide, by decide, by decide⟩
  have hsent : QuerySent Config.empty ⟨0x1234, 0, true, true, ⟨0, 0⟩,
      some [0x12, 0x34, 0x81, 0x82, 0, 1, 0, 0, 0, 0, 0, 0], ⟨0, 0⟩⟩ :=
    ⟨by decide, dnsQuery_ne_none hname, rfl, rfl⟩
  obtain ⟨d, hd, -, -, hrcode, -⟩ := h (netCollectorInit Config.empty ⟨none, none, ⟨0, 0⟩⟩)
    ⟨none, (false, 0), default, id⟩ _
    ((slowTimerCb_resolves_iff _ _ _).mpr ⟨hsent, _, rfl, by decide, by decide⟩)
  obtain rfl := Option.some.inj (Option.mem_def.mp hd)
  revert hrcode
  decide

end NetMon.Net
