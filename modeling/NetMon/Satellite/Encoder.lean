import NetMon.Lib.CJson
import NetMon.Lib.CNum
import NetMon.Satellite.Frame

/-!
# The encoder

`encoder_json_to_frame` and `encoder_heartbeat_frame` of `sat_encoder.c`: a status
document becomes a snapshot frame. `time(NULL)` is the argument `now`.
-/

namespace NetMon.Satellite

open NetMon.Lib

/-! ## Reading members -/

/-- `j = cJSON_GetObjectItem(obj, name); if (j) … j->valuedouble` -/
def numberAt (obj : Option CJson) (name : String) : Option ℚ :=
  (CJson.getObjectItem obj (CStr.lit name)).map CJson.valuedouble

/-- `j = cJSON_GetObjectItem(obj, name); j && cJSON_IsTrue(j)` -/
def flagAt (obj : Option CJson) (name : String) : Bool :=
  (CJson.getObjectItem obj (CStr.lit name)).elim false CJson.isTrue

/-- `if (flag) flags |= bit` -/
def orFlag (flags : UInt8) (flag : Bool) (bit : UInt8) : UInt8 :=
  if flag then flags ||| bit else flags

/-- A number scaled to tenths. -/
def tenths (v : ℚ) : UInt16 := toUInt16 (v * 10)

/-! ## The snapshot -/

/-- `mem_used_pct`, with the 32-bit product of the source. -/
def memUsedPct (info : Option CJson) : UInt8 :=
  let memTotal : UInt32 := (numberAt info "mem_total_kb").elim 1 toUInt32
  let memAvail : UInt32 := (numberAt info "mem_available_kb").elim 0 toUInt32
  if memTotal > 0 then (100 - (memAvail * 100 / memTotal)).toUInt8 else 0

/-- One entry of the severity maximum. -/
def severityStep (maxSev : UInt8) (entry : CJson) : UInt8 :=
  if flagAt (some entry) "active" then
    match numberAt (some entry) "severity" with
    | some sev => if toUInt8 sev > maxSev then toUInt8 sev else maxSev
    | none => maxSev
  else maxSev

/-- The greatest severity among the active entries. -/
def maxSeverity (alertsObj : Option CJson) : UInt8 :=
  ((CJson.children (CJson.getObjectItem alertsObj (CStr.lit "entries"))).map Prod.snd).foldl
    severityStep SatSeverity.none.code

def connFlags (conn wan : Option CJson) : UInt8 :=
  let flags := orFlag 0 (flagAt conn "gateway_reachable") satFlagGatewayUp
  let flags := orFlag flags (flagAt conn "dns_reachable") satFlagDnsUp
  let flags := orFlag flags (flagAt conn "dns_resolves") satFlagDnsResolves
  orFlag flags (flagAt wan "wan_reachable") satFlagWanUp

/-- How many interfaces the frame carries. -/
def encodedIfaces (root : Option CJson) : Nat :=
  min (CJson.getArraySize (CJson.getObjectItem root (CStr.lit "interfaces"))) satMaxInterfaces

/-- The fixed part of the payload. A section that is missing leaves its fields zero. -/
def encodeSnapshot (root : Option CJson) (now : UInt32) : SatSnapshot :=
  let info := CJson.getObjectItem root (CStr.lit "info")
  let conn := CJson.getObjectItem root (CStr.lit "connectivity")
  let alertsObj := CJson.getObjectItem root (CStr.lit "alerts")
  let wan := CJson.getObjectItem root (CStr.lit "wan")
  { timestamp := now
    uptimeSec := (numberAt info "uptime_sec").elim 0 toUInt32
    memUsedPct := if info.isSome then memUsedPct info else 0
    numIfaces := UInt8.ofNat (encodedIfaces root)
    connFlags := connFlags conn wan
    activeAlerts := (numberAt alertsObj "active_count").elim 0 toUInt8
    maxSeverity := if alertsObj.isSome then maxSeverity alertsObj else 0
    wanLossPct := (numberAt wan "wan_packet_loss_pct").elim 0 toUInt8
    gwLatency := (numberAt conn "gateway_latency_ms").elim 0 tenths
    dnsLatency := (numberAt conn "dns_latency_ms").elim 0 tenths
    wanLatency := (numberAt wan "wan_latency_ms").elim 0 tenths
    wanJitter := (numberAt wan "wan_jitter_ms").elim 0 tenths }

/-! ## The interfaces -/

/-- `strncpy` of at most seven bytes into a cleared `char[8]`. -/
def encodeName (s : CStr) : Vector UInt8 8 :=
  Vector.ofFn fun i : Fin 8 => if i.val < satIfaceNameLen - 1 then s.bytes.getD i 0 else 0

def ifaceFlags (iface : CJson) : UInt8 :=
  let flags := orFlag 0 (flagAt (some iface) "up") satIflagUp
  let flags := orFlag flags (flagAt (some iface) "running") satIflagRunning
  orFlag flags (flagAt (some iface) "wireless") satIflagWireless

def encodeIface (iface : CJson) : SatIfaceData :=
  let name := (CJson.getObjectItem (some iface) (CStr.lit "name")).bind CJson.valuestring
  let rates := CJson.getObjectItem (some iface) (CStr.lit "rates")
  let wifi := (CJson.getObjectItem (some iface) (CStr.lit "wifi")).filter fun w => !w.isNull
  { name := name.elim (Vector.replicate 8 0) encodeName
    flags := ifaceFlags iface
    errorRate := 0
    rxRate := (numberAt rates "rx_bps").elim 0 toUInt32
    txRate := (numberAt rates "tx_bps").elim 0 toUInt32
    linkSpeed := (numberAt (some iface) "speed_mbps").elim 0 toUInt16
    signalDbm := (numberAt wifi "signal_dbm").elim 0 toInt8 }

/-- The interface records, in document order, as many as fit. -/
def encodeIfaces (root : Option CJson) : List SatIfaceData :=
  ((CJson.children (CJson.getObjectItem root (CStr.lit "interfaces"))).take
    (encodedIfaces root)).map fun item => encodeIface item.2

/-! ## Frames -/

/-- The payload's bytes. -/
def encodePayload (root : Option CJson) (now : UInt32) : Bytes :=
  (encodeSnapshot root now).bytes ++ (encodeIfaces root).flatMap SatIfaceData.bytes

def encoderJsonToFrame (root : Option CJson) (now : UInt32) (bufSize : Nat) (seq : UInt16) :
    Option Bytes × UInt16 :=
  let payloadLen := UInt16.ofNat (sizeofSnapshot + encodedIfaces root * sizeofIface)
  buildFrame satMsgSnapshot (encodePayload root now).view payloadLen bufSize seq

def encoderHeartbeatFrame (now : UInt32) (bufSize : Nat) (seq : UInt16) : Option Bytes × UInt16 :=
  buildFrame satMsgHeartbeat (u32Bytes now).view 4 bufSize seq

/-! ## The snapshot as a message -/

theorem encodeIfaces_length (root : Option CJson) :
    (encodeIfaces root).length = encodedIfaces root := by
  rw [encodeIfaces, List.length_map, List.length_take]
  exact Nat.min_eq_left (Nat.min_le_left _ _)

theorem encodePayload_length (root : Option CJson) (now : UInt32) :
    (encodePayload root now).length = sizeofSnapshot + encodedIfaces root * sizeofIface := by
  have hflat : ∀ l : List SatIfaceData,
      (l.flatMap SatIfaceData.bytes).length = l.length * sizeofIface := by
    intro l
    induction l with
    | nil => rfl
    | cons d l ih =>
      rw [List.flatMap_cons, List.length_append, ih, SatIfaceData.bytes_length, List.length_cons]
      unfold sizeofIface
      omega
  rw [encodePayload, List.length_append, SatSnapshot.bytes_length, hflat, encodeIfaces_length]

/-- The message a status document becomes. -/
def snapshotMessage (root : Option CJson) (now : UInt32) (seq : UInt16) : Message where
  msgType := satMsgSnapshot
  payload := encodePayload root now
  sequence := seq
  fits := by
    have h8 : encodedIfaces root ≤ 8 := Nat.min_le_right _ _
    rw [encodePayload_length]
    unfold sizeofSnapshot sizeofIface maxPayload satMaxFrameSize sizeofHeader
    omega

/-- Encoding into a full-size buffer never fails and sends that message. -/
theorem encoderJsonToFrame_eq (root : Option CJson) (now : UInt32) (seq : UInt16) :
    encoderJsonToFrame root now satMaxFrameSize seq =
      (some (snapshotMessage root now seq).frame, seq + 1) := by
  have hbuild : encoderJsonToFrame root now satMaxFrameSize seq =
      (snapshotMessage root now seq).build := by
    unfold encoderJsonToFrame Message.build Message.payloadLen snapshotMessage
    rw [encodePayload_length]
  rw [hbuild, ← (snapshotMessage root now seq).build_fst, Message.build_eq]
  rfl

/-! ## The heartbeat as a message -/

def heartbeatMessage (now : UInt32) (seq : UInt16) : Message where
  msgType := satMsgHeartbeat
  payload := u32Bytes now
  sequence := seq
  fits := by
    rw [u32Bytes_length]
    decide

theorem encoderHeartbeatFrame_eq (now : UInt32) (seq : UInt16) :
    encoderHeartbeatFrame now satMaxFrameSize seq =
      (some (heartbeatMessage now seq).frame, seq + 1) := by
  have hbuild : encoderHeartbeatFrame now satMaxFrameSize seq =
      (heartbeatMessage now seq).build := rfl
  rw [hbuild, ← (heartbeatMessage now seq).build_fst, Message.build_eq]
  rfl

end NetMon.Satellite
