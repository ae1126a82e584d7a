import NetMon.Core.Alerts
import NetMon.Lib.CJson

/-!
# The monitor's documents

`api_json.c`: the JSON documents of the REST API, made from the monitor's state. A table
is the list of its rows, an integer or floating-point field an exact rational.
-/

namespace NetMon.Api

open NetMon.Lib NetMon.Core NetMon.Net

/-! ## Addresses -/

/-- The bytes of a word in memory order. -/
def byteOf (v : UInt32) (i : Nat) : Nat := v.toNat / 256 ^ i % 256

/-- `format_ip` -/
def formatIp (ip : UInt32) : CStr :=
  CStr.lit s!"{byteOf ip 0}.{byteOf ip 1}.{byteOf ip 2}.{byteOf ip 3}"

def hexDigit (n : Nat) : Char := "0123456789ABCDEF".toList.getD n '0'

/-- `format_mac` -/
def formatMac (mac : Vector UInt8 6) : CStr :=
  CStr.lit (":".intercalate
    (mac.toList.map fun b => String.ofList [hexDigit (b.toNat / 16), hexDigit (b.toNat % 16)]))

/-! ## Documents -/

def word32 (v : UInt32) : CJson := .number (v.toNat : ℚ)

def word64 (v : UInt64) : CJson := .number (v.toNat : ℚ)

def jsonStats (s : NetStats) : CJson :=
  .object [
    (CStr.lit "rx_bytes", word64 s.rxBytes),
    (CStr.lit "tx_bytes", word64 s.txBytes),
    (CStr.lit "rx_packets", word64 s.rxPackets),
    (CStr.lit "tx_packets", word64 s.txPackets),
    (CStr.lit "rx_errors", word64 s.rxErrors),
    (CStr.lit "tx_errors", word64 s.txErrors),
    (CStr.lit "rx_dropped", word64 s.rxDropped),
    (CStr.lit "tx_dropped", word64 s.txDropped)]

def jsonRates (r : NetRates) : CJson :=
  .object [
    (CStr.lit "rx_bps", .number r.rxBytesPerSec),
    (CStr.lit "tx_bps", .number r.txBytesPerSec),
    (CStr.lit "rx_pps", .number r.rxPacketsPerSec),
    (CStr.lit "tx_pps", .number r.txPacketsPerSec)]

def jsonWifi (w : NetWifiInfo) : CJson :=
  .object [
    (CStr.lit "ssid", .string w.ssid.str),
    (CStr.lit "signal_dbm", .number w.signalDbm),
    (CStr.lit "link_quality", .number w.linkQuality),
    (CStr.lit "noise_dbm", .number w.noiseDbm),
    (CStr.lit "bitrate_mbps", .number w.bitrateMbps)]

def jsonIface (st : NetIfaceState) : CJson :=
  .object ([
    (CStr.lit "name", .string st.info.name.str),
    (CStr.lit "up", .bool st.info.isUp),
    (CStr.lit "running", .bool st.info.isRunning),
    (CStr.lit "wireless", .bool st.info.isWireless),
    (CStr.lit "speed_mbps", word32 st.info.speedMbps),
    (CStr.lit "ip", .string (formatIp st.info.ipAddr)),
    (CStr.lit "netmask", .string (formatIp st.info.netmask)),
    (CStr.lit "mac", .string (formatMac st.info.mac)),
    (CStr.lit "stats", jsonStats st.stats),
    (CStr.lit "rates", jsonRates st.rates),
    (CStr.lit "peak_rx_bps", .number st.peakRxBps),
    (CStr.lit "peak_tx_bps", .number st.peakTxBps),
    (CStr.lit "rx_bytes_today", word64 st.rxBytesToday),
    (CStr.lit "tx_bytes_today", word64 st.txBytesToday)] ++
    if st.info.isWireless then [(CStr.lit "wifi", jsonWifi st.wifi)] else [])

def apiJsonInterfaces (state : NetState) : CJson := .array (state.rows.map jsonIface)

def apiJsonConnectivity (state : NetState) : CJson :=
  let c := state.connectivity
  .object [
    (CStr.lit "gateway_reachable", .bool c.gatewayReachable),
    (CStr.lit "gateway_latency_ms", .number c.gatewayLatencyMs),
    (CStr.lit "dns_reachable", .bool c.dnsReachable),
    (CStr.lit "dns_resolves", .bool c.dnsResolves),
    (CStr.lit "dns_latency_ms", .number c.dnsLatencyMs)]

def jsonAlert (a : AlertEntry) : CJson :=
  .object [
    (CStr.lit "type", .number (a.type.code : ℚ)),
    (CStr.lit "severity", .number (a.severity.code : ℚ)),
    (CStr.lit "timestamp", word32 a.timestamp),
    (CStr.lit "interface", .string a.iface.str),
    (CStr.lit "message", .string a.message.str),
    (CStr.lit "active", .bool a.active)]

def apiJsonAlerts (alerts : Alerts) : CJson :=
  .object [
    (CStr.lit "active_count", .number (alertsActiveCount alerts : ℚ)),
    (CStr.lit "entries", .array (alerts.log.slots.map jsonAlert))]

def jsonInfraDevice (dev : InfraDevice) : CJson :=
  .object [
    (CStr.lit "name", .string dev.name.str),
    (CStr.lit "ip", .string dev.ipStr.str),
    (CStr.lit "type", .number (dev.type.code : ℚ)),
    (CStr.lit "enabled", .bool dev.enabled),
    (CStr.lit "reachable", .bool dev.reachable),
    (CStr.lit "latency_ms", .number dev.latencyMs),
    (CStr.lit "consecutive_fails", .number dev.consecutiveFails)]

def apiJsonInfra (state : NetState) : CJson := .array (state.infraRows.map jsonInfraDevice)

def jsonHop (h : DiscoveryHop) : CJson :=
  .object [
    (CStr.lit "ip", .string h.ipStr.str),
    (CStr.lit "latency_ms", .number h.latencyMs),
    (CStr.lit "reachable", .bool h.reachable)]

def apiJsonWan (wan : WanDiscovery) : CJson :=
  .object [
    (CStr.lit "wan_reachable", .bool wan.wanReachable),
    (CStr.lit "wan_latency_ms", .number wan.wanLatencyMs),
    (CStr.lit "wan_jitter_ms", .number wan.wanJitterMs),
    (CStr.lit "wan_packet_loss_pct", .number wan.wanPacketLossPct),
    (CStr.lit "num_hops", .number (wan.hops.length : ℚ)),
    (CStr.lit "hops", .array (wan.hops.map jsonHop))]

/-- `hostname` is what `gethostname` answers. -/
def apiJsonInfo (hostname : CStr) (state : NetState) : CJson :=
  .object [
    (CStr.lit "hostname", .string hostname),
    (CStr.lit "version", .string (CStr.lit "3.0.0")),
    (CStr.lit "uptime_sec", word32 state.uptimeSec),
    (CStr.lit "mem_total_kb", word32 state.memTotalKb),
    (CStr.lit "mem_free_kb", word32 state.memFreeKb),
    (CStr.lit "mem_available_kb", word32 state.memAvailableKb)]

/-- What the status document is made from. -/
structure Monitor where
  state : NetState
  alerts : Alerts
  wan : WanDiscovery
  hostname : CStr

def apiJsonStatus (m : Monitor) : CJson :=
  .object [
    (CStr.lit "info", apiJsonInfo m.hostname m.state),
    (CStr.lit "interfaces", apiJsonInterfaces m.state),
    (CStr.lit "connectivity", apiJsonConnectivity m.state),
    (CStr.lit "alerts", apiJsonAlerts m.alerts),
    (CStr.lit "infra", apiJsonInfra m.state),
    (CStr.lit "wan", apiJsonWan m.wan)]

end NetMon.Api
