import NetMon.Lib.ReadBack
import NetMon.Satellite.Fidelity

/-!
# The status document as it is parsed

The encoder does not get the document that was made but the one that was printed and parsed. Flags
and texts come back as they are, and so do all integers it looks at; latencies and rates come
back as their text reads (`encodeSnapshot_reread`, `encodeIfaces_reread`).
-/

namespace NetMon.Satellite

open NetMon.Lib NetMon.Lib.CJson NetMon.Core NetMon.Net NetMon.Api

/-! ## Accessors -/

theorem readBack_zero : readBack 0 = 0 := by
  have := readBack_nat (n := 0) (by norm_num)
  exact_mod_cast this

theorem getObjectItem_reread (o : Option CJson) (name : CStr) :
    getObjectItem (o.map reread) name = (getObjectItem o name).map reread := by
  cases o with
  | none => rfl
  | some item =>
    cases item with
    | object members =>
      have hobject : reread (object members) = object (members.map fun m => (m.1, reread m.2)) := by
        rw [reread]
      rw [Option.map_some, hobject, getObjectItem, getObjectItem, List.find?_map, Option.map_map,
        Option.map_map]
      rfl
    | null => rw [Option.map_some, reread]; rfl
    | bool => rw [Option.map_some, reread]; rfl
    | number => rw [Option.map_some, reread]; rfl
    | string => rw [Option.map_some, reread]; rfl
    | array => rw [Option.map_some, reread]; rfl

theorem children_reread (o : Option CJson) :
    children (o.map reread) = (children o).map fun c => (c.1, reread c.2) := by
  cases o with
  | none => rfl
  | some item =>
    cases item with
    | object members =>
      rw [Option.map_some, reread]
      simp only [children, List.map_map, Function.comp_def]
    | array items =>
      rw [Option.map_some, reread]
      simp only [children, List.map_map, Function.comp_def]
    | null => rw [Option.map_some, reread]; rfl
    | bool => rw [Option.map_some, reread]; rfl
    | number => rw [Option.map_some, reread]; rfl
    | string => rw [Option.map_some, reread]; rfl

theorem valuedouble_reread (item : CJson) :
    (reread item).valuedouble = readBack item.valuedouble := by
  cases item with
  | number v => rw [reread]; rfl
  | _ => rw [reread]; exact readBack_zero.symm

theorem numberAt_reread (o : Option CJson) (name : String) :
    numberAt (o.map reread) name = (numberAt o name).map readBack := by
  rw [numberAt, numberAt, getObjectItem_reread, Option.map_map, Option.map_map]
  congr 1
  funext item
  exact valuedouble_reread item

theorem flagAt_reread (o : Option CJson) (name : String) :
    flagAt (o.map reread) name = flagAt o name := by
  have hflag : ∀ item : CJson, (reread item).isTrue = item.isTrue := fun item => by
    cases item <;> rw [reread]
    all_goals rfl
  rw [flagAt, flagAt, getObjectItem_reread]
  cases getObjectItem o (CStr.lit name) with
  | none => rfl
  | some item => exact hflag item

theorem valuestring_reread (item : CJson) : (reread item).valuestring = item.valuestring := by
  cases item <;> rw [reread]
  all_goals rfl

theorem isNull_reread (item : CJson) : (reread item).isNull = item.isNull := by
  cases item <;> rw [reread]
  all_goals rfl

/-- A number that comes back as it is. -/
theorem numberAt_reread_of {o : Option CJson} {name : String}
    (h : ∀ v ∈ numberAt o name, readBack v = v) :
    numberAt (o.map reread) name = numberAt o name := by
  rw [numberAt_reread]
  cases hv : numberAt o name with
  | none => rfl
  | some v => rw [Option.map_some, h v hv]

theorem readBack_word32 (v : UInt32) : readBack (v.toNat : ℚ) = v.toNat :=
  readBack_nat (v.toNat_lt.trans (by norm_num))

/-! ## The monitor as it is read -/

/-- A row whose rates have been printed and parsed. -/
def rowAsRead (st : NetIfaceState) : NetIfaceState :=
  { st with rates := { st.rates with
      rxBytesPerSec := readBack st.rates.rxBytesPerSec
      txBytesPerSec := readBack st.rates.txBytesPerSec } }

/-- A monitor whose latencies and rates have been printed and parsed. -/
def asRead (m : Monitor) : Monitor :=
  { m with
    state := { m.state with
      ifaces := fun i => rowAsRead (m.state.ifaces i)
      connectivity := { m.state.connectivity with
        gatewayLatencyMs := readBack m.state.connectivity.gatewayLatencyMs
        dnsLatencyMs := readBack m.state.connectivity.dnsLatencyMs } }
    wan := { m.wan with
      wanLatencyMs := readBack m.wan.wanLatencyMs
      wanJitterMs := readBack m.wan.wanJitterMs } }

theorem memUsedPct_reread (hostname : CStr) (s : NetState) :
    memUsedPct ((some (apiJsonInfo hostname s)).map reread) =
      memUsedPct (some (apiJsonInfo hostname s)) := by
  have htotal : numberAt ((some (apiJsonInfo hostname s)).map reread) "mem_total_kb" =
      numberAt (some (apiJsonInfo hostname s)) "mem_total_kb" :=
    numberAt_reread_of fun v hv => by cases hv; exact readBack_word32 s.memTotalKb
  have havail : numberAt ((some (apiJsonInfo hostname s)).map reread) "mem_available_kb" =
      numberAt (some (apiJsonInfo hostname s)) "mem_available_kb" :=
    numberAt_reread_of fun v hv => by cases hv; exact readBack_word32 s.memAvailableKb
  rw [memUsedPct, memUsedPct, htotal, havail]

theorem connFlags_reread (conn wan : Option CJson) :
    connFlags (conn.map reread) (wan.map reread) = connFlags conn wan := by
  simp only [connFlags, flagAt_reread]

theorem maxSeverity_reread (alerts : Alerts) :
    maxSeverity ((some (apiJsonAlerts alerts)).map reread) =
      maxSeverity (some (apiJsonAlerts alerts)) := by
  have hstep : ∀ (s : UInt8) (a : AlertEntry),
      severityStep s (reread (jsonAlert a)) = severityStep s (jsonAlert a) := by
    intro s a
    have hflag : flagAt (some (reread (jsonAlert a))) "active" =
        flagAt (some (jsonAlert a)) "active" := flagAt_reread (some (jsonAlert a)) "active"
    have hcode : ∀ v ∈ numberAt (some (jsonAlert a)) "severity", readBack v = v := by
      intro v hv
      cases hv
      exact readBack_nat (n := a.severity.code) (by cases a.severity <;> decide)
    have hseverity : numberAt (some (reread (jsonAlert a))) "severity" =
        numberAt (some (jsonAlert a)) "severity" := numberAt_reread_of hcode
    rw [severityStep, severityStep, hflag, hseverity]
  have hentries : ((children ((getObjectItem (some (apiJsonAlerts alerts))
      (CStr.lit "entries")).map reread)).map Prod.snd) =
      (alerts.log.slots.map jsonAlert).map reread := by
    rw [children_reread]
    show ((((alerts.log.slots.map jsonAlert).map fun x => (none, x)).map fun c =>
      (c.1, reread c.2)).map Prod.snd : List CJson) = _
    simp only [List.map_map, Function.comp_def]
  rw [maxSeverity, getObjectItem_reread, hentries, maxSeverity_status, List.map_map,
    show SatSeverity.none.code = 0 from rfl]
  generalize (0 : UInt8) = s
  induction alerts.log.slots generalizing s with
  | nil => rfl
  | cons a as ih =>
    rw [List.map_cons, List.map_cons, List.foldl_cons, List.foldl_cons, Function.comp_apply, hstep]
    exact ih _

theorem encodedIfaces_reread (o : Option CJson) :
    encodedIfaces (o.map reread) = encodedIfaces o := by
  rw [encodedIfaces, encodedIfaces, getObjectItem_reread, getArraySize, getArraySize,
    children_reread, List.length_map]

/-- The snapshot of the parsed document is that of the monitor as it is read. -/
theorem encodeSnapshot_reread {m : Monitor} (hactive : alertsActiveCount m.alerts < 256)
    (hloss : m.wan.wanPacketLossPct.natAbs < 10 ^ 15) (now : UInt32) :
    encodeSnapshot (some (reread (apiJsonStatus m))) now =
      encodeSnapshot (some (apiJsonStatus (asRead m))) now := by
  have hroot : some (reread (apiJsonStatus m)) = (some (apiJsonStatus m)).map reread := rfl
  have hinfo : getObjectItem (some (apiJsonStatus m)) (CStr.lit "info") =
      some (apiJsonInfo m.hostname m.state) := rfl
  have hconn : getObjectItem (some (apiJsonStatus m)) (CStr.lit "connectivity") =
      some (apiJsonConnectivity m.state) := rfl
  have halerts : getObjectItem (some (apiJsonStatus m)) (CStr.lit "alerts") =
      some (apiJsonAlerts m.alerts) := rfl
  have hwan : getObjectItem (some (apiJsonStatus m)) (CStr.lit "wan") =
      some (apiJsonWan m.wan) := rfl
  have huptime : numberAt ((some (apiJsonInfo m.hostname m.state)).map reread) "uptime_sec" =
      some (m.state.uptimeSec.toNat : ℚ) :=
    numberAt_reread_of fun v hv => by cases hv; exact readBack_word32 m.state.uptimeSec
  have hcount : numberAt ((some (apiJsonAlerts m.alerts)).map reread) "active_count" =
      some (alertsActiveCount m.alerts : ℚ) :=
    numberAt_reread_of fun v hv => by cases hv; exact readBack_nat (hactive.trans (by norm_num))
  have hpct : numberAt ((some (apiJsonWan m.wan)).map reread) "wan_packet_loss_pct" =
      some (m.wan.wanPacketLossPct : ℚ) :=
    numberAt_reread_of fun v hv => by cases hv; exact readBack_int hloss
  have hifaces : encodedIfaces (some (apiJsonStatus (asRead m))) =
      encodedIfaces (some (apiJsonStatus m)) := by
    rw [encodedIfaces_status, encodedIfaces_status, NetState.rows_length, NetState.rows_length]
    rfl
  rw [encodeSnapshot_status, hifaces, hroot, encodeSnapshot]
  simp only [getObjectItem_reread, hinfo, hconn, halerts, hwan, huptime, hcount, hpct,
    memUsedPct_reread, connFlags_reread, maxSeverity_reread, encodedIfaces_reread,
    numberAt_reread _ "gateway_latency_ms", numberAt_reread _ "dns_latency_ms",
    numberAt_reread _ "wan_latency_ms", numberAt_reread _ "wan_jitter_ms"]
  rfl

theorem encodeIface_reread {st : NetIfaceState}
    (hsignal : st.info.isWireless = true → st.wifi.signalDbm.natAbs < 10 ^ 15) :
    encodeIface (reread (jsonIface st)) = encodeIface (jsonIface (rowAsRead st)) := by
  have hsome : some (reread (jsonIface st)) = (some (jsonIface st)).map reread := rfl
  have hname : getObjectItem (some (jsonIface st)) (CStr.lit "name") =
      some (.string st.info.name.str) := rfl
  have hrates : getObjectItem (some (jsonIface st)) (CStr.lit "rates") =
      some (jsonRates st.rates) := rfl
  have hwifi : getObjectItem (some (jsonIface st)) (CStr.lit "wifi") =
      if st.info.isWireless then some (jsonWifi st.wifi) else none := by
    unfold jsonIface
    cases st.info.isWireless <;> rfl
  have hspeed : numberAt ((some (jsonIface st)).map reread) "speed_mbps" =
      some (st.info.speedMbps.toNat : ℚ) :=
    numberAt_reread_of fun v hv => by cases hv; exact readBack_word32 st.info.speedMbps
  have hfilter : ∀ o : Option CJson, (o.map reread).filter (fun w => !w.isNull) =
      (o.filter fun w => !w.isNull).map reread := by
    intro o
    cases o with
    | none => rfl
    | some w =>
      rw [Option.map_some, Option.filter_some, Option.filter_some, isNull_reread]
      split <;> rfl
  have hflags : ifaceFlags (reread (jsonIface st)) = ifaceFlags (jsonIface st) := by
    simp only [ifaceFlags, hsome, flagAt_reread]
  have hnameR : (getObjectItem ((some (jsonIface st)).map reread) (CStr.lit "name")).bind
      valuestring = some st.info.name.str := by
    rw [getObjectItem_reread, hname]
    exact valuestring_reread _
  have hratesR : getObjectItem ((some (jsonIface st)).map reread) (CStr.lit "rates") =
      (some (jsonRates st.rates)).map reread := by rw [getObjectItem_reread, hrates]
  have hrx : numberAt ((some (jsonRates st.rates)).map reread) "rx_bps" =
      some (readBack st.rates.rxBytesPerSec) := numberAt_reread _ _
  have htx : numberAt ((some (jsonRates st.rates)).map reread) "tx_bps" =
      some (readBack st.rates.txBytesPerSec) := numberAt_reread _ _
  have hdbm : numberAt ((getObjectItem ((some (jsonIface st)).map reread)
      (CStr.lit "wifi")).filter fun w => !w.isNull) "signal_dbm" =
      if st.info.isWireless then some (st.wifi.signalDbm : ℚ) else none := by
    rw [getObjectItem_reread, hwifi, hfilter]
    cases hw : st.info.isWireless with
    | false => rfl
    | true =>
      exact numberAt_reread_of (o := some (jsonWifi st.wifi)) fun v hv => by
        cases hv
        exact readBack_int (hsignal hw)
  rw [encodeIface_jsonIface, encodeIface, hflags, hsome]
  simp only [hnameR, hratesR, hrx, htx, hdbm, hspeed]
  unfold rowAsRead jsonIface
  cases st.info.isWireless <;> rfl

theorem encodeIfaces_reread {m : Monitor} (hsignal : ∀ row ∈ m.state.rows,
    row.info.isWireless = true → row.wifi.signalDbm.natAbs < 10 ^ 15) :
    encodeIfaces (some (reread (apiJsonStatus m))) =
      encodeIfaces (some (apiJsonStatus (asRead m))) := by
  have hroot : some (reread (apiJsonStatus m)) = (some (apiJsonStatus m)).map reread := rfl
  have hrows : (asRead m).state.rows = m.state.rows.map rowAsRead := by
    rw [NetState.rows, NetState.rows, List.map_map]
    rfl
  have htake : m.state.rows.take (min m.state.rows.length satMaxInterfaces) =
      m.state.rows.take satMaxInterfaces := by
    rw [List.take_eq_take_iff]
    omega
  rw [encodeIfaces_status, hrows, hroot, encodeIfaces, encodedIfaces_reread, encodedIfaces_status,
    getObjectItem_reread, children_reread, children_interfaces, List.map_map, ← List.map_take,
    ← List.map_take, htake, List.map_map, List.map_map]
  exact List.map_congr_left fun row hrow =>
    encodeIface_reread (hsignal row (List.mem_of_mem_take hrow))

end NetMon.Satellite
