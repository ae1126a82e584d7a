import NetMon.Api.Json
import NetMon.Net.Collector
import NetMon.Satellite.Fetch

/-!
# The size of the status reply

The status document holds whole tables while the feeder's buffer is fixed. The widths below
are those of its parts, in the fields of the monitor's state alone; the reply fits exactly
when they add up to what the buffer leaves (`status_received_iff`).
-/

namespace NetMon.Satellite

open NetMon.Lib NetMon.Lib.CJson NetMon.Core NetMon.Net NetMon.Api

/-! ## Widths -/

def word32Width (v : UInt32) : Nat := numberWidth v.toNat

def word64Width (v : UInt64) : Nat := numberWidth v.toNat

def infoWidth (hostname : CStr) (s : NetState) : Nat :=
  96 + (stringWidth hostname + word32Width s.uptimeSec + word32Width s.memTotalKb +
    word32Width s.memFreeKb + word32Width s.memAvailableKb)

def statsWidth (s : NetStats) : Nat :=
  107 + (word64Width s.rxBytes + word64Width s.txBytes + word64Width s.rxPackets +
    word64Width s.txPackets + word64Width s.rxErrors + word64Width s.txErrors +
    word64Width s.rxDropped + word64Width s.txDropped)

def ratesWidth (r : NetRates) : Nat :=
  41 + (numberWidth r.rxBytesPerSec + numberWidth r.txBytesPerSec +
    numberWidth r.rxPacketsPerSec + numberWidth r.txPacketsPerSec)

def wifiWidth (w : NetWifiInfo) : Nat :=
  68 + (stringWidth w.ssid.str + numberWidth w.signalDbm + numberWidth w.linkQuality +
    numberWidth w.noiseDbm + numberWidth w.bitrateMbps)

def ifaceWidth (st : NetIfaceState) : Nat :=
  160 + (stringWidth st.info.name.str + boolWidth st.info.isUp + boolWidth st.info.isRunning +
    boolWidth st.info.isWireless + word32Width st.info.speedMbps +
    stringWidth (formatIp st.info.ipAddr) + stringWidth (formatIp st.info.netmask) +
    stringWidth (formatMac st.info.mac) + statsWidth st.stats + ratesWidth st.rates +
    numberWidth st.peakRxBps + numberWidth st.peakTxBps +
    word64Width st.rxBytesToday + word64Width st.txBytesToday +
    if st.info.isWireless then 8 + wifiWidth st.wifi else 0)

def connectivityWidth (c : NetConnectivity) : Nat :=
  95 + (boolWidth c.gatewayReachable + numberWidth c.gatewayLatencyMs +
    boolWidth c.dnsReachable + boolWidth c.dnsResolves + numberWidth c.dnsLatencyMs)

def alertWidth (a : AlertEntry) : Nat :=
  68 + (numberWidth a.type.code + numberWidth a.severity.code + word32Width a.timestamp +
    stringWidth a.iface.str + stringWidth a.message.str + boolWidth a.active)

def alertsWidth (alerts : Alerts) : Nat :=
  28 + (numberWidth (alertsActiveCount alerts) + arrayWidth (alerts.log.slots.map alertWidth))

def infraDeviceWidth (dev : InfraDevice) : Nat :=
  82 + (stringWidth dev.name.str + stringWidth dev.ipStr.str + numberWidth dev.type.code +
    boolWidth dev.enabled + boolWidth dev.reachable + numberWidth dev.latencyMs +
    numberWidth dev.consecutiveFails)

def hopWidth (h : DiscoveryHop) : Nat :=
  34 + (stringWidth h.ipStr.str + numberWidth h.latencyMs + boolWidth h.reachable)

def wanWidth (wan : WanDiscovery) : Nat :=
  96 + (boolWidth wan.wanReachable + numberWidth wan.wanLatencyMs + numberWidth wan.wanJitterMs +
    numberWidth wan.wanPacketLossPct + numberWidth wan.hops.length +
    arrayWidth (wan.hops.map hopWidth))

/-- The whole document. -/
def statusWidth (m : Monitor) : Nat :=
  65 + (infoWidth m.hostname m.state + arrayWidth (m.state.rows.map ifaceWidth) +
    connectivityWidth m.state.connectivity + alertsWidth m.alerts +
    arrayWidth (m.state.infraRows.map infraDeviceWidth) + wanWidth m.wan)

/-! ## The documents have these widths -/

theorem apiJsonInfo_width (hostname : CStr) (s : NetState) :
    (apiJsonInfo hostname s).width = infoWidth hostname s := by
  have hversion : stringWidth (CStr.lit "3.0.0") = 7 := rfl
  rw [apiJsonInfo, width_object, infoWidth, show 96 = 89 + 7 from rfl, Nat.add_assoc]
  simp only [List.map_cons, List.map_nil, List.sum_cons, List.sum_nil, width, hversion]
  apply congrArg₂ (· + ·) rfl
  simp only [word32, word32Width, width]
  omega

theorem jsonStats_width (s : NetStats) : (jsonStats s).width = statsWidth s := by
  apply width_object_eq rfl
  simp only [List.map_cons, List.map_nil, List.sum_cons, List.sum_nil, word64, width]
  simp only [word64Width]
  omega

theorem jsonRates_width (r : NetRates) : (jsonRates r).width = ratesWidth r := by
  apply width_object_eq rfl
  simp only [List.map_cons, List.map_nil, List.sum_cons, List.sum_nil, width]
  omega

theorem jsonWifi_width (w : NetWifiInfo) : (jsonWifi w).width = wifiWidth w := by
  apply width_object_eq rfl
  simp only [List.map_cons, List.map_nil, List.sum_cons, List.sum_nil, width]
  omega

theorem jsonIface_width (st : NetIfaceState) : (jsonIface st).width = ifaceWidth st := by
  rw [jsonIface, width_object, ifaceWidth]
  cases st.info.isWireless with
  | false =>
    simp only [Bool.false_eq_true, if_false, List.append_nil, List.map_cons, List.map_nil,
      List.sum_cons, List.sum_nil, jsonStats_width, jsonRates_width, width]
    apply congrArg₂ (· + ·) rfl
    simp only [word32, word64, word32Width, word64Width, width]
    omega
  | true =>
    have hkeys : ∀ n, 160 + (n + (8 + wifiWidth st.wifi)) = 168 + (n + wifiWidth st.wifi) := by
      omega
    simp only [if_true, hkeys, List.cons_append, List.nil_append, List.map_cons, List.map_nil,
      List.sum_cons, List.sum_nil, jsonStats_width, jsonRates_width, jsonWifi_width, width]
    apply congrArg₂ (· + ·) rfl
    simp only [word32, word64, word32Width, word64Width, width]
    omega

theorem apiJsonConnectivity_width (s : NetState) :
    (apiJsonConnectivity s).width = connectivityWidth s.connectivity := by
  apply width_object_eq rfl
  simp only [List.map_cons, List.map_nil, List.sum_cons, List.sum_nil, width]
  omega

theorem jsonAlert_width (a : AlertEntry) : (jsonAlert a).width = alertWidth a := by
  apply width_object_eq rfl
  simp only [List.map_cons, List.map_nil, List.sum_cons, List.sum_nil, word32, width]
  simp only [word32Width]
  omega

theorem apiJsonAlerts_width (alerts : Alerts) :
    (apiJsonAlerts alerts).width = alertsWidth alerts := by
  have hentries := width_array jsonAlert_width alerts.log.slots
  apply width_object_eq rfl
  simp only [List.map_cons, List.map_nil, List.sum_cons, List.sum_nil, hentries]
  simp only [width]
  omega

theorem jsonInfraDevice_width (dev : InfraDevice) :
    (jsonInfraDevice dev).width = infraDeviceWidth dev := by
  apply width_object_eq rfl
  simp only [List.map_cons, List.map_nil, List.sum_cons, List.sum_nil, width]
  omega

theorem jsonHop_width (h : DiscoveryHop) : (jsonHop h).width = hopWidth h := by
  apply width_object_eq rfl
  simp only [List.map_cons, List.map_nil, List.sum_cons, List.sum_nil, width]
  omega

theorem apiJsonWan_width (wan : WanDiscovery) : (apiJsonWan wan).width = wanWidth wan := by
  have hhops := width_array jsonHop_width wan.hops
  apply width_object_eq rfl
  simp only [List.map_cons, List.map_nil, List.sum_cons, List.sum_nil, hhops]
  simp only [width]
  omega

theorem apiJsonStatus_width (m : Monitor) : (apiJsonStatus m).width = statusWidth m := by
  have hifaces : (apiJsonInterfaces m.state).width = arrayWidth (m.state.rows.map ifaceWidth) :=
    width_array jsonIface_width _
  have hinfra : (apiJsonInfra m.state).width =
      arrayWidth (m.state.infraRows.map infraDeviceWidth) := width_array jsonInfraDevice_width _
  apply width_object_eq rfl
  simp only [List.map_cons, List.map_nil, List.sum_cons, List.sum_nil, apiJsonInfo_width, hifaces,
    apiJsonConnectivity_width, apiJsonAlerts_width, hinfra, apiJsonWan_width]
  omega

/-! ## The reply -/

theorem jsonIface_nested (st : NetIfaceState) : NestedAtMost 2 (jsonIface st) := by
  have hstats : NestedAtMost 1 (jsonStats st.stats) := nestedAtMost_object (by simp [word64])
  have hrates : NestedAtMost 1 (jsonRates st.rates) := nestedAtMost_object (by simp)
  have hwifi : NestedAtMost 1 (jsonWifi st.wifi) := nestedAtMost_object (by simp)
  apply nestedAtMost_object
  rw [List.forall_mem_append]
  refine ⟨by simp [word32, word64, hstats, hrates], ?_⟩
  split
  · simpa using hwifi
  · simp

/-- The document has four levels. -/
theorem apiJsonStatus_nested (m : Monitor) : NestedAtMost 4 (apiJsonStatus m) := by
  have hinfo : NestedAtMost 1 (apiJsonInfo m.hostname m.state) :=
    nestedAtMost_object (by simp [word32])
  have hifaces : NestedAtMost 3 (apiJsonInterfaces m.state) :=
    nestedAtMost_array (List.forall_mem_map.mpr fun st _ => jsonIface_nested st)
  have hconn : NestedAtMost 1 (apiJsonConnectivity m.state) := nestedAtMost_object (by simp)
  have halert : ∀ a, NestedAtMost 1 (jsonAlert a) := fun a =>
    nestedAtMost_object (by simp [word32])
  have halerts : NestedAtMost 3 (apiJsonAlerts m.alerts) := by
    have hentries : NestedAtMost 2 (array (m.alerts.log.slots.map jsonAlert)) :=
      nestedAtMost_array (List.forall_mem_map.mpr fun a _ => halert a)
    exact nestedAtMost_object (by simp [hentries])
  have hdevice : ∀ dev, NestedAtMost 1 (jsonInfraDevice dev) := fun dev =>
    nestedAtMost_object (by simp)
  have hinfra : NestedAtMost 2 (apiJsonInfra m.state) :=
    nestedAtMost_array (List.forall_mem_map.mpr fun dev _ => hdevice dev)
  have hhop : ∀ h, NestedAtMost 1 (jsonHop h) := fun h => nestedAtMost_object (by simp)
  have hwan : NestedAtMost 3 (apiJsonWan m.wan) := by
    have hhops : NestedAtMost 2 (array (m.wan.hops.map jsonHop)) :=
      nestedAtMost_array (List.forall_mem_map.mpr fun h _ => hhop h)
    exact nestedAtMost_object (by simp [hhops])
  apply nestedAtMost_object
  simp only [List.forall_mem_cons, List.not_mem_nil, false_imp_iff, implies_true, and_true]
  exact ⟨hinfo.mono (by decide), hifaces, hconn.mono (by decide), halerts,
    hinfra.mono (by decide), hwan⟩

theorem status_prints (m : Monitor) : ∃ t, (apiJsonStatus m).printUnformatted = some t :=
  (apiJsonStatus_nested m).prints (by decide)

theorem status_length (m : Monitor) :
    (sendJson (apiJsonStatus m)).length = headerWidth + statusWidth m := by
  obtain ⟨t, ht⟩ := status_prints m
  rw [sendJson_length ht, apiJsonStatus_width]

/-- **The status reply.** Whatever the monitor's state, the reply is shorter than the feeder's
buffer and the document arrives whole and is accepted, exactly when the widths of its parts
add up to 8079 at most. -/
theorem status_received_iff (m : Monitor) :
    ((sendJson (apiJsonStatus m)).length ≤ httpBufSize - 1 ∧ Received (apiJsonStatus m)) ↔
      statusWidth m ≤ 8079 := by
  obtain ⟨t, ht⟩ := status_prints m
  rw [received_iff ht, and_self, status_length]
  show 112 + statusWidth m ≤ 8192 - 1 ↔ _
  omega

/-- What the status handler reads of a running collector. -/
def monitorOf (hostname : CStr) (c : Collector) : Monitor :=
  ⟨c.state, c.alerts, c.wanDiscovery, hostname⟩

/-- A start with two interfaces, and 96 medium ticks without an answer from the gateway or
the DNS server. -/
def longOutage : Monitor :=
  monitorOf (CStr.lit "neutrino") (collector.exec
    (netCollectorInit Config.empty ⟨some [ifReqNamed "eth0", ifReqNamed "eth1"], none, ⟨0, 0⟩⟩)
    (List.replicate 96 (.medium ⟨(false, 0), default, (false, 0), 1700000000⟩)))

/-- After the outage the log is full, and no fetch gets the whole document any more. -/
theorem outage_cut_off : longOutage.alerts.log.count = 64 ∧
    (sendJson (apiJsonStatus longOutage)).length = 8294 ∧
    ¬ Received (apiJsonStatus longOutage) := by
  have hwidth : statusWidth longOutage = 8182 := by decide +kernel
  obtain ⟨t, ht⟩ := status_prints longOutage
  refine ⟨by decide +kernel, by rw [status_length, hwidth]; rfl, fun h => ?_⟩
  have hle := (received_iff ht).mp h
  rw [status_length, hwidth] at hle
  exact absurd hle (by decide)

end NetMon.Satellite
