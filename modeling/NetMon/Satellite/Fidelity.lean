import Mathlib.Algebra.Order.Field.Rat
import Mathlib.Tactic.Linarith
import Mathlib.Tactic.NormNum
import NetMon.Satellite.Severity

/-!
# The snapshot end to end

From the monitor's state through the status document, the snapshot frame and the
receiver to the satellite's model. `snapshot_fidelity`: within the ranges of the wire
format the satellite holds what the monitor does, for the first eight interfaces, names
cut at seven bytes, rates at the byte and latencies at the tenth of a millisecond.
-/

namespace NetMon.Satellite

open NetMon.Lib NetMon.Core NetMon.Net NetMon.Api Receiver

/-! ## The ranges of the wire format -/

/-- A latency or jitter in tenths fits 16 bits. -/
def LatencyFits (q : ℚ) : Prop := 0 ≤ q ∧ q ≤ 13107 / 2

/-- A rate fits 32 bits. -/
def RateFits (q : ℚ) : Prop := 0 ≤ q ∧ q < 2 ^ 32

/-- What a table row must keep to be carried. -/
structure RowFits (row : NetIfaceState) : Prop where
  rxRate : RateFits row.rates.rxBytesPerSec
  txRate : RateFits row.rates.txBytesPerSec
  speed : row.info.speedMbps.toNat < 2 ^ 16
  signal : row.info.isWireless = true → -128 ≤ row.wifi.signalDbm ∧ row.wifi.signalDbm ≤ 127

structure MonitorFits (m : Monitor) : Prop where
  rows : ∀ row ∈ m.state.rows, RowFits row
  gateway : LatencyFits m.state.connectivity.gatewayLatencyMs
  dns : LatencyFits m.state.connectivity.dnsLatencyMs
  wan : LatencyFits m.wan.wanLatencyMs
  jitter : LatencyFits m.wan.wanJitterMs
  loss : 0 ≤ m.wan.wanPacketLossPct ∧ m.wan.wanPacketLossPct ≤ 100
  active : alertsActiveCount m.alerts < 256

/-! ## What the satellite should hold -/

/-- A satellite row shows a table row. -/
structure RowShown (row : NetIfaceState) (sat : SatIface) : Prop where
  name : CStr.ofBytes sat.name.toList = row.info.name.str.trunc 7
  up : sat.up = row.info.isUp
  running : sat.running = row.info.isRunning
  wireless : sat.wireless = row.info.isWireless
  rxRate : (sat.rxRate.toNat : Int) = ⌊row.rates.rxBytesPerSec⌋
  txRate : (sat.txRate.toNat : Int) = ⌊row.rates.txBytesPerSec⌋
  linkSpeed : sat.linkSpeed.toNat = row.info.speedMbps.toNat
  signal : row.info.isWireless = true → sat.signalDbm.toInt = row.wifi.signalDbm

/-- A latency, cut at the tenth. -/
def atTenths (q : ℚ) : ℚ := ⌊10 * q⌋ / 10

/-- The satellite's model shows the monitor. -/
structure Shown (m : Monitor) (d : SatData) : Prop where
  numIfaces : d.numIfaces.toNat = min m.state.numIfaces.toNat 8
  rows : ∀ i : Fin 8, i.val < m.state.numIfaces.toNat →
    RowShown (m.state.ifaces i.val) d.ifaces[i]
  gwUp : d.gwUp = m.state.connectivity.gatewayReachable
  dnsUp : d.dnsUp = m.state.connectivity.dnsReachable
  dnsResolves : d.dnsResolves = m.state.connectivity.dnsResolves
  wanUp : d.wanUp = m.wan.wanReachable
  gwLatency : d.gwLatencyMs = atTenths m.state.connectivity.gatewayLatencyMs
  dnsLatency : d.dnsLatencyMs = atTenths m.state.connectivity.dnsLatencyMs
  wanLatency : d.wanLatencyMs = atTenths m.wan.wanLatencyMs
  wanJitter : d.wanJitterMs = atTenths m.wan.wanJitterMs
  wanLoss : (d.wanLossPct.toNat : Int) = m.wan.wanPacketLossPct
  active : d.activeAlerts.toNat = alertsActiveCount m.alerts
  uptime : d.uptimeSec = m.state.uptimeSec

/-! ## Field by field -/

theorem tenths_shown {q : ℚ} (h : LatencyFits q) : ((tenths q).toNat : ℚ) / 10 = atTenths q := by
  have hfloor : ⌊q * 10⌋ < 2 ^ 16 := by
    rw [Int.floor_lt]
    have := h.2
    push_cast
    linarith
  have hnat := toUInt16_toNat (q := q * 10) (by linarith [h.1]) hfloor
  have hcast : ((tenths q).toNat : ℚ) = (⌊q * 10⌋ : ℚ) := by exact_mod_cast hnat
  rw [hcast, atTenths, mul_comm]

theorem rate_shown {q : ℚ} (h : RateFits q) : ((toUInt32 q).toNat : Int) = ⌊q⌋ :=
  toUInt32_toNat h.1 (Int.floor_lt.mpr (by exact_mod_cast h.2))

/-- The connection flags are told apart again. -/
theorem connFlags_shown (gw dns resolves wan : Bool) :
    let flags := orFlag (orFlag (orFlag (orFlag 0 gw satFlagGatewayUp) dns satFlagDnsUp)
      resolves satFlagDnsResolves) wan satFlagWanUp
    decide (flags &&& satFlagGatewayUp ≠ 0) = gw ∧ decide (flags &&& satFlagDnsUp ≠ 0) = dns ∧
      decide (flags &&& satFlagDnsResolves ≠ 0) = resolves ∧
      decide (flags &&& satFlagWanUp ≠ 0) = wan := by
  revert gw dns resolves wan
  decide

theorem ifaceFlags_shown (up running wireless : Bool) :
    let flags := orFlag (orFlag (orFlag 0 up satIflagUp) running satIflagRunning)
      wireless satIflagWireless
    decide (flags &&& satIflagUp ≠ 0) = up ∧ decide (flags &&& satIflagRunning ≠ 0) = running ∧
      decide (flags &&& satIflagWireless ≠ 0) = wireless := by
  revert up running wireless
  decide

/-- The name array with the display's terminator: at most seven bytes, then zeros. -/
theorem encodeName_push (s : CStr) : ((encodeName s).push 0).toList =
    s.bytes.take 7 ++ List.replicate (9 - (s.bytes.take 7).length) 0 := by
  have hle : (s.bytes.take 7).length ≤ 7 := List.length_take_le _ _
  apply List.ext_getElem
  · rw [Vector.length_toList, List.length_append, List.length_replicate]
    omega
  · intro i h1 h2
    rw [Vector.getElem_toList, Vector.getElem_push]
    have hi : i < 9 := by simpa using h1
    by_cases hs : i < (s.bytes.take 7).length
    · have h7 : i < 7 ∧ i < s.bytes.length := by simpa using hs
      rw [List.getElem_append_left hs, dif_pos (by omega), List.getElem_take, encodeName,
        Vector.getElem_ofFn]
      show (if i < 7 then s.bytes.getD i 0 else 0) = _
      rw [if_pos h7.1]
      exact List.getD_eq_getElem _ _ h7.2
    · rw [List.getElem_append_right (by omega), List.getElem_replicate]
      split
      · rw [encodeName, Vector.getElem_ofFn]
        show (if i < 7 then s.bytes.getD i 0 else 0) = _
        split
        · apply List.getD_eq_default _ _
          rw [List.length_take] at hs
          omega
        · rfl
      · rfl

/-- A name arrives cut at seven bytes. -/
theorem name_shown (s : CStr) :
    CStr.ofBytes ((encodeName s).push 0).toList = s.trunc 7 := by
  have hle : (s.bytes.take 7).length ≤ 7 := List.length_take_le _ _
  have hne : ∀ b ∈ s.bytes.take 7, (b != 0) = true := fun b hb => by
    rw [bne_iff_ne]
    rintro rfl
    exact s.nonul (List.mem_of_mem_take hb)
  ext1
  show ((encodeName s).push 0).toList.takeWhile (· != 0) = s.bytes.take 7
  rw [encodeName_push,
    show 9 - (s.bytes.take 7).length = (8 - (s.bytes.take 7).length) + 1 by omega,
    List.replicate_succ, List.takeWhile_append_of_pos hne]
  simp

/-- A row within range is shown by what the encoder writes for it. -/
theorem row_shown {row : NetIfaceState} (h : RowFits row) :
    RowShown row (SatIface.ofData (encodeIface (jsonIface row))) := by
  rw [encodeIface_jsonIface]
  obtain ⟨hup, hrunning, hwireless⟩ :=
    ifaceFlags_shown row.info.isUp row.info.isRunning row.info.isWireless
  have hspeed := toUInt16_toNat (q := (row.info.speedMbps.toNat : ℚ)) (Nat.cast_nonneg _)
    (by rw [Int.floor_natCast]; exact_mod_cast h.speed)
  rw [Int.floor_natCast] at hspeed
  refine ⟨name_shown row.info.name.str, hup, hrunning, hwireless, rate_shown h.rxRate,
    rate_shown h.txRate, by exact_mod_cast hspeed, fun hw => ?_⟩
  obtain ⟨h0, h1⟩ := h.signal hw
  rw [hw, if_pos rfl]
  exact toInt8_toInt h0 h1

/-- What the encoder writes for a monitor within range shows that monitor. -/
theorem update_shown {m : Monitor} (h : MonitorFits m) (d : SatData) (now : UInt32) :
    Shown m (d.update (encodeSnapshot (some (apiJsonStatus m)) now)
      (encodeIfaces (some (apiJsonStatus m)))) := by
  obtain ⟨hgw, hdns, hresolves, hwan⟩ := connFlags_shown m.state.connectivity.gatewayReachable
    m.state.connectivity.dnsReachable m.state.connectivity.dnsResolves m.wan.wanReachable
  rw [encodeSnapshot_status, connFlags_status]
  have hcount : encodedIfaces (some (apiJsonStatus m)) = min m.state.numIfaces.toNat 8 := by
    rw [encodedIfaces_status, NetState.rows_length]
    rfl
  have hloss := toUInt8_toNat (q := (m.wan.wanPacketLossPct : ℚ)) (by exact_mod_cast h.loss.1)
    (by rw [Int.floor_intCast]; have := h.loss.2; omega)
  have hactive := toUInt8_toNat (q := (alertsActiveCount m.alerts : ℚ)) (Nat.cast_nonneg _)
    (by rw [Int.floor_natCast]; exact_mod_cast h.active)
  have huptime := toUInt32_toNat (q := (m.state.uptimeSec.toNat : ℚ)) (Nat.cast_nonneg _)
    (by rw [Int.floor_natCast]; exact_mod_cast m.state.uptimeSec.toNat_lt)
  rw [Int.floor_intCast] at hloss
  rw [Int.floor_natCast] at hactive huptime
  constructor
  · show (UInt8.ofNat (clampIfaces (UInt8.ofNat (encodedIfaces _)))).toNat = _
    rw [clampIfaces, hcount, UInt8.toNat_ofNat', UInt8.toNat_ofNat']
    unfold satMaxInterfaces
    omega
  · intro i hi
    have hget : (encodeIfaces (some (apiJsonStatus m)))[i.val]? =
        some (encodeIface (jsonIface (m.state.ifaces i.val))) := by
      have hrow : (m.state.rows.take satMaxInterfaces)[i.val]? = some (m.state.ifaces i.val) :=
        (List.getElem?_take_of_lt i.isLt).trans (NetState.rows_getElem? _ hi)
      rw [encodeIfaces_status, List.getElem?_map, hrow]
      rfl
    rw [update_ifaces _ _ _ i hget]
    exact row_shown (h.rows _ (List.mem_of_getElem? (NetState.rows_getElem? _ hi)))
  · exact hgw
  · exact hdns
  · exact hresolves
  · exact hwan
  · exact tenths_shown h.gateway
  · exact tenths_shown h.dns
  · exact tenths_shown h.wan
  · exact tenths_shown h.jitter
  · exact hloss
  · exact_mod_cast hactive
  · exact UInt32.toNat_inj.mp (by exact_mod_cast huptime)

/-- **End to end.** The status of a monitor within the wire format's ranges is always
encoded, and whenever the frame reaches a receiver between frames the satellite shows the
monitor. -/
theorem snapshot_fidelity (m : Monitor) (h : MonitorFits m) (now : UInt32) (seq : UInt16) :
    ∃ frame, (encoderJsonToFrame (some (apiJsonStatus m)) now satMaxFrameSize seq).1 = some frame ∧
      ∀ r : Receiver, r.Ready → ∀ s : List Stamped, s.map Prod.snd = frame →
        Shown m (feed r s).data := by
  refine ⟨_, by rw [encoderJsonToFrame_eq], fun r hr s hs => ?_⟩
  have henc : (encoderJsonToFrame (some (apiJsonStatus m)) now satMaxFrameSize seq).1 =
      some (s.map Prod.snd) := by rw [encoderJsonToFrame_eq, hs]
  obtain ⟨t, hdata⟩ := feed_encoded hr henc
  rw [hdata]
  exact update_shown h _ now

/-- A monitor with one wireless interface. -/
def wirelessMonitor : Monitor :=
  monitorAfter { NetState.zero with
    numIfaces := 1
    ifaces := fun _ => { (default : NetIfaceState) with
      info := { (default : NetIfaceInfo) with
        name := CharArray.copy 16 (CStr.lit "wlan0-guest"), isUp := true, isWireless := true,
        speedMbps := 300 }
      rates := { (default : NetRates) with rxBytesPerSec := 2501 / 2 }
      wifi := { (default : NetWifiInfo) with signalDbm := -60 } }
    connectivity := ⟨true, 5 / 4, true, true, 12⟩ } []

theorem wirelessMonitor_carried : ∃ frame,
    (encoderJsonToFrame (some (apiJsonStatus wirelessMonitor)) 0 satMaxFrameSize 0).1 = some frame ∧
      ∀ r : Receiver, r.Ready → ∀ s : List Stamped, s.map Prod.snd = frame →
        Shown wirelessMonitor (feed r s).data := by
  have hrow : ∀ row ∈ wirelessMonitor.state.rows, row = wirelessMonitor.state.ifaces 0 := by
    decide +kernel
  refine snapshot_fidelity wirelessMonitor ⟨fun row hr => ?_, ?_, ?_, ?_, ?_, ?_, ?_⟩ 0 0
  · rw [hrow row hr]
    refine ⟨?_, ?_, ?_, fun _ => ?_⟩ <;> first | (constructor <;> decide +kernel) | decide +kernel
  all_goals first | (constructor <;> decide +kernel) | decide +kernel

end NetMon.Satellite
