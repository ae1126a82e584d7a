import NetMon.Api.Json
import NetMon.Satellite.Encoder
import NetMon.Satellite.Isolation

/-!
# A status document on its way to the satellite

What the encoder reads out of the document `api_json_status` makes, and what the
satellite's model holds after the frame: `feed_encoded`.
-/

namespace NetMon.Satellite

open NetMon.Lib NetMon.Core NetMon.Net NetMon.Api Receiver

/-! ## What the encoder reads -/

theorem encodeSnapshot_status (m : Monitor) (now : UInt32) :
    encodeSnapshot (some (apiJsonStatus m)) now = {
      timestamp := now
      uptimeSec := toUInt32 (m.state.uptimeSec.toNat : ℚ)
      memUsedPct := memUsedPct (some (apiJsonInfo m.hostname m.state))
      numIfaces := UInt8.ofNat (encodedIfaces (some (apiJsonStatus m)))
      connFlags := connFlags (some (apiJsonConnectivity m.state)) (some (apiJsonWan m.wan))
      activeAlerts := toUInt8 (alertsActiveCount m.alerts : ℚ)
      maxSeverity := maxSeverity (some (apiJsonAlerts m.alerts))
      wanLossPct := toUInt8 (m.wan.wanPacketLossPct : ℚ)
      gwLatency := tenths m.state.connectivity.gatewayLatencyMs
      dnsLatency := tenths m.state.connectivity.dnsLatencyMs
      wanLatency := tenths m.wan.wanLatencyMs
      wanJitter := tenths m.wan.wanJitterMs } := rfl

theorem connFlags_status (s : NetState) (wan : WanDiscovery) :
    connFlags (some (apiJsonConnectivity s)) (some (apiJsonWan wan)) =
      orFlag (orFlag (orFlag (orFlag 0 s.connectivity.gatewayReachable satFlagGatewayUp)
        s.connectivity.dnsReachable satFlagDnsUp) s.connectivity.dnsResolves satFlagDnsResolves)
        wan.wanReachable satFlagWanUp := rfl

theorem encodeIface_jsonIface (st : NetIfaceState) : encodeIface (jsonIface st) = {
    name := encodeName st.info.name.str
    flags := orFlag (orFlag (orFlag 0 st.info.isUp satIflagUp) st.info.isRunning satIflagRunning)
      st.info.isWireless satIflagWireless
    errorRate := 0
    rxRate := toUInt32 st.rates.rxBytesPerSec
    txRate := toUInt32 st.rates.txBytesPerSec
    linkSpeed := toUInt16 (st.info.speedMbps.toNat : ℚ)
    signalDbm := if st.info.isWireless then toInt8 (st.wifi.signalDbm : ℚ) else 0 } := by
  unfold jsonIface
  cases st.info.isWireless <;> rfl

theorem children_interfaces (m : Monitor) :
    CJson.children (CJson.getObjectItem (some (apiJsonStatus m)) (CStr.lit "interfaces")) =
      m.state.rows.map fun st => (none, jsonIface st) := by
  show (m.state.rows.map jsonIface).map _ = _
  rw [List.map_map]
  rfl

theorem encodedIfaces_status (m : Monitor) :
    encodedIfaces (some (apiJsonStatus m)) = min m.state.rows.length satMaxInterfaces := by
  rw [encodedIfaces, CJson.getArraySize, children_interfaces, List.length_map]

theorem encodeIfaces_status (m : Monitor) : encodeIfaces (some (apiJsonStatus m)) =
    (m.state.rows.take satMaxInterfaces).map fun st => encodeIface (jsonIface st) := by
  rw [encodeIfaces, children_interfaces, encodedIfaces_status, ← List.map_take, List.map_map]
  congr 1
  rw [List.take_eq_take_iff]
  omega

theorem maxSeverity_status (alerts : Alerts) : maxSeverity (some (apiJsonAlerts alerts)) =
    (alerts.log.slots.map jsonAlert).foldl severityStep 0 := by
  have hchildren : (CJson.children (CJson.getObjectItem (some (apiJsonAlerts alerts))
      (CStr.lit "entries"))).map Prod.snd = alerts.log.slots.map jsonAlert := by
    show ((alerts.log.slots.map jsonAlert).map _).map Prod.snd = _
    rw [List.map_map]
    exact List.map_id _
  rw [maxSeverity, hchildren]
  rfl

/-! ## What the satellite holds afterwards -/

/-- A receiver between frames that is fed an encoded document takes it over: the model is
marked alive at some clock reading and updated to what the encoder wrote. -/
theorem feed_encoded {root : Option CJson} {now : UInt32} {seq : UInt16} {r : Receiver}
    (hr : r.Ready) {s : List Stamped}
    (hs : (encoderJsonToFrame root now satMaxFrameSize seq).1 = some (s.map Prod.snd)) :
    ∃ t, (feed r s).data = (satDataMarkAlive r.data t seq).update (encodeSnapshot root now)
      (encodeIfaces root) := by
  rw [encoderJsonToFrame_eq] at hs
  have hs' : s.map Prod.snd = (snapshotMessage root now seq).frame := (Option.some.inj hs).symm
  obtain ⟨s, i, rfl⟩ := split_last hs' (snapshotMessage root now seq).frame_ne_nil
  refine ⟨i.1, ?_⟩
  have h8 : encodedIfaces root ≤ 8 := Nat.min_le_right _ _
  have hcount : (encodeSnapshot root now).numIfaces.toNat = (encodeIfaces root).length := by
    rw [encodeIfaces_length]
    show (UInt8.ofNat (encodedIfaces root)).toNat = _
    rw [UInt8.toNat_ofNat', Nat.mod_eq_of_lt (by omega)]
  have hlaid := satDataUpdateSnapshot_laidOut (satDataMarkAlive r.data i.1 seq) hcount
    (by rw [encodeIfaces_length]; exact h8)
  have hlen := encodePayload_length root now
  have hagree : View.Agree ((r.frameBuf.putAll 0 (snapshotMessage root now seq).frame).view.shift 8)
      (encodePayload root now).view 0 (encodePayload root now).length :=
    ((agree_snapshot (snapshotMessage root now seq) r.frameBuf).mono (Nat.le_refl 0)
      (Nat.le_add_right _ 2)).trans (snapshotMessage root now seq).payload_agree
  have hrun := (run_message (snapshotMessage root now seq) hr s i hs').1
  rw [show feed r (s ++ [i]) = _ from hrun]
  simp only [snapshotMessage, if_true]
  rw [← hlaid]
  refine (satDataUpdateSnapshot_congr _ (hagree.symm.mono (Nat.le_refl 0) ?_)).symm
  have hnine : (encodePayload root now).view 9 = (encodeSnapshot root now).numIfaces :=
    Bytes.view_append_left _ (by rw [SatSnapshot.bytes_length]; decide)
  have hclamp : clampIfaces (encodeSnapshot root now).numIfaces = encodedIfaces root := by
    rw [clampIfaces, hcount, encodeIfaces_length]
    exact Nat.min_eq_left h8
  rw [hnine, snapshotReach, hclamp, hlen]
  unfold sizeofSnapshot sizeofIface
  split <;> omega

end NetMon.Satellite
