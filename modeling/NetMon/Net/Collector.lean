import Mathlib.Data.Rat.Defs
import NetMon.Core.Alerts
import NetMon.Net.Kernel

/-!
# The collector

`net_collector.c`: `net_collector_init` and the three timer callbacks over the statics of
that file. What the kernel, the network and the clock answer is the input of a tick.

The rate loop of a fast tick and the merge loop of a slow tick are machines of their own
(`rateLoop`, `mergeLoop`), so that the samples one computes and the table slots the other
touches can be spoken about.
-/

namespace NetMon.Net

open NetMon.Lib NetMon.Core

/-- `struct timespec` -/
structure Timespec where
  sec : Int
  nsec : Int
  deriving DecidableEq, Inhabited

/-- The seconds from `then_` to `now`. -/
def elapsed (now then_ : Timespec) : ℚ :=
  (now.sec - then_.sec : Int) + (now.nsec - then_.nsec : Int) / 1000000000

/-- `net_history_sample_t` -/
structure NetHistorySample where
  rxBps : ℚ
  txBps : ℚ
  deriving DecidableEq, Inhabited

/-- The statics of `net_collector.c`, with the alert engine it drives. -/
structure Collector where
  cfg : Config
  state : NetState
  shortHistory : Nat → Ring NetHistorySample 60
  longHistory : Nat → Ring NetHistorySample 1440
  prevStats : Nat → NetStats
  prevValid : Bool
  prevTime : Timespec
  minuteRxAcc : Nat → ℚ
  minuteTxAcc : Nat → ℚ
  minuteSampleCount : Nat
  infraPingIdx : Int
  wanDiscovery : WanDiscovery
  wanDiscoveryTick : Nat
  promiscuousEnabled : Bool
  alerts : Alerts

/-! ## The fast tick -/

/-- What a fast tick reads. -/
structure FastInput where
  procNetDev : Option Bytes
  now : Timespec
  uptime : Option UInt32
  meminfo : Option Bytes

/-- The rows `parse_proc_net_dev` returns at the tick. -/
def FastInput.reading (f : FastInput) : List NetStats :=
  parseProcNetDev f.procNetDev appMaxInterfaces

/-- A rate the loop computes: the table row, the baseline and the current counters. -/
structure RateSample where
  row : Nat
  base : NetStats
  cur : NetStats
  deriving DecidableEq

/-- The search in `g_prev_stats`, which is bounded by `num_ifaces`. -/
def findPrev (c : Collector) (name : IfaceName) : Option Nat :=
  (List.range c.state.numIfaces.toNat).find? fun j => (c.prevStats j).name = name

/-- An unsigned 64-bit difference as a rate. -/
def rateOf (cur base : UInt64) (dt : ℚ) : ℚ := ((cur - base).toNat : ℚ) / dt

def ratesOf (base cur : NetStats) (dt : ℚ) : NetRates where
  rxBytesPerSec := rateOf cur.rxBytes base.rxBytes dt
  txBytesPerSec := rateOf cur.txBytes base.txBytes dt
  rxPacketsPerSec := rateOf cur.rxPackets base.rxPackets dt
  txPacketsPerSec := rateOf cur.txPackets base.txPackets dt
  rxErrorsPerSec := rateOf cur.rxErrors base.rxErrors dt
  txErrorsPerSec := rateOf cur.txErrors base.txErrors dt

/-- Rates, peaks and daily totals of a row. -/
def sampleIface (base cur : NetStats) (dt : ℚ) (st : NetIfaceState) : NetIfaceState :=
  let rates := ratesOf base cur dt
  { st with
    rates := rates
    peakRxBps := max st.peakRxBps rates.rxBytesPerSec
    peakTxBps := max st.peakTxBps rates.txBytesPerSec
    rxBytesToday := st.rxBytesToday + (cur.rxBytes - base.rxBytes)
    txBytesToday := st.txBytesToday + (cur.txBytes - base.txBytes) }

/-- The sample a row's rates make. -/
def historySample (rates : NetRates) : NetHistorySample :=
  ⟨rates.rxBytesPerSec, rates.txBytesPerSec⟩

def applySample (dt : ℚ) (c : Collector) (s : RateSample) : Collector :=
  let rates := ratesOf s.base s.cur dt
  { c with
    state := c.state.setIface s.row (sampleIface s.base s.cur dt)
    shortHistory :=
      Function.update c.shortHistory s.row ((c.shortHistory s.row).push (historySample rates))
    minuteRxAcc :=
      Function.update c.minuteRxAcc s.row (c.minuteRxAcc s.row + rates.rxBytesPerSec)
    minuteTxAcc :=
      Function.update c.minuteTxAcc s.row (c.minuteTxAcc s.row + rates.txBytesPerSec) }

/-- What the loop body computes for a current row, if it finds the row in both tables. -/
def sampleFor (c : Collector) (cur : NetStats) : Option RateSample := do
  let row ← c.state.findIface cur.name
  let prev ← findPrev c cur.name
  return ⟨row, c.prevStats prev, cur⟩

/-- The rate loop over the current rows; it emits the samples it computes. -/
def rateLoop (dt : ℚ) : Machine Collector NetStats RateSample where
  step c cur := (sampleFor c cur).elim c (applySample dt c)
  out c cur := (sampleFor c cur).toList

def computeRates (f : FastInput) (c : Collector) : Collector :=
  let dt := elapsed f.now c.prevTime
  if c.prevValid ∧ 0 < dt then (rateLoop dt).exec c f.reading else c

/-- The samples the tick computes. -/
def ratesAt (c : Collector) (f : FastInput) : List RateSample :=
  let dt := elapsed f.now c.prevTime
  if c.prevValid ∧ 0 < dt then (rateLoop dt).trace c f.reading else []

/-- One row's minute average goes to its long history. -/
def flushMinute (c : Collector) (i : Nat) : Collector :=
  { c with
    longHistory := Function.update c.longHistory i
      ((c.longHistory i).push ⟨c.minuteRxAcc i / 60, c.minuteTxAcc i / 60⟩)
    minuteRxAcc := Function.update c.minuteRxAcc i 0
    minuteTxAcc := Function.update c.minuteTxAcc i 0 }

def updateLongHistory (c : Collector) : Collector :=
  let c := { c with minuteSampleCount := c.minuteSampleCount + 1 }
  if c.minuteSampleCount ≥ 60 then
    { (List.range c.state.numIfaces.toNat).foldl flushMinute c with minuteSampleCount := 0 }
  else c

/-- Raw counters go to the first table row of their name. -/
def storeStats (s : NetState) (cur : NetStats) : NetState :=
  match s.findIface cur.name with
  | some k => s.setIface k fun st => { st with stats := cur }
  | none => s

/-- `memcpy(prev, cur, sizeof(net_stats_t) * count)` -/
def overwrite (prev : Nat → NetStats) (cur : List NetStats) : Nat → NetStats :=
  fun j => cur.getD j (prev j)

def updateSysinfo (f : FastInput) (c : Collector) : Collector :=
  let s := { c.state with uptimeSec := f.uptime.getD c.state.uptimeSec }
  { c with state := readMeminfo s f.meminfo }

/-- `fast_timer_cb` -/
def fastTimerCb (c : Collector) (f : FastInput) : Collector :=
  let c := updateLongHistory (computeRates f (updateSysinfo f c))
  { c with
    state := f.reading.foldl storeStats c.state
    prevStats := overwrite c.prevStats f.reading
    prevTime := f.now
    prevValid := true }

/-! ## The medium tick -/

/-- What a medium tick learns: the gateway's and an infrastructure device's answer to a
ping, what `net_wifi_read` fills in for a name, and the time. -/
structure MediumInput where
  gateway : Bool × ℚ
  wifi : IfaceName → NetWifiInfo
  infra : Bool × ℚ
  now : UInt32

def readWifi (wifi : IfaceName → NetWifiInfo) (s : NetState) (i : Nat) : NetState :=
  if (s.ifaces i).info.isWireless then
    s.setIface i fun st => { st with wifi := wifi st.info.name }
  else s

/-- The search for the next enabled device; the index moves on past every device seen. -/
def pingInfra (answer : Bool × ℚ) : Nat → Collector → Collector
  | 0, c => c
  | attempts + 1, c =>
    let idx := c.infraPingIdx.tmod c.state.numInfra
    let c := { c with infraPingIdx := (c.infraPingIdx + 1).tmod c.state.numInfra }
    let dev := c.state.infra idx
    if dev.enabled then
      let dev := { dev with
        reachable := answer.1
        latencyMs := answer.2
        consecutiveFails := if answer.1 then 0 else dev.consecutiveFails + 1 }
      { c with state := { c.state with infra := Function.update c.state.infra idx dev } }
    else pingInfra answer attempts c

def probeGateway (answer : Bool × ℚ) (s : NetState) : NetState :=
  { s with connectivity :=
      { s.connectivity with gatewayReachable := answer.1, gatewayLatencyMs := answer.2 } }

/-- The state after the gateway's ping and the WiFi readings. -/
def probeNetwork (m : MediumInput) (s : NetState) : NetState :=
  let s := probeGateway m.gateway s
  (List.range s.numIfaces.toNat).foldl (readWifi m.wifi) s

/-- `medium_timer_cb` -/
def mediumTimerCb (c : Collector) (m : MediumInput) : Collector :=
  let c := { c with state := probeNetwork m c.state }
  let c := pingInfra m.infra c.state.numInfra.toNat c
  { c with alerts := (alertsCheck c.alerts c.state m.now).st }

/-! ## The slow tick -/

/-- What a slow tick learns: the kernel's interface list, the DNS probe's answer, and the
WAN trace and quality test. -/
structure SlowInput where
  ifconf : Option (List IfReq)
  dns : Bool × ℚ
  trace : WanDiscovery
  quality : WanDiscovery → WanDiscovery

/-- The slots a lookup by name compares. -/
def scanned (s : NetState) (name : IfaceName) : List Int :=
  match s.findIface name with
  | some k => (List.range (k + 1)).map Nat.cast
  | none => (List.range s.numIfaces.toNat).map Nat.cast

/-- Update or add: a listed interface refreshes its row or goes behind the last one. -/
def mergeIface (s : NetState) (info : NetIfaceInfo) : NetState :=
  match s.findIface info.name with
  | some j => s.setIface j fun st => { st with info := info }
  | none =>
    if s.numIfaces < appMaxInterfaces then
      { s.setIface s.numIfaces fun _ => { (default : NetIfaceState) with info := info } with
        numIfaces := s.numIfaces + 1 }
    else s

/-- The merge over the listed interfaces; it emits the slots it touches. -/
def mergeLoop : Machine NetState NetIfaceInfo Int where
  step := mergeIface
  out s info := scanned s info.name ++
    if s.findIface info.name = none ∧ s.numIfaces < appMaxInterfaces then [s.numIfaces] else []

/-- The interfaces a slow tick goes through: none after a failed enumeration. -/
def SlowInput.listed (i : SlowInput) : List NetIfaceInfo :=
  (netEnumerateInterfaces i.ifconf appMaxInterfaces).getD []

def updateWan (c : Collector) (i : SlowInput) : Collector :=
  let c := { c with wanDiscoveryTick := c.wanDiscoveryTick + 1 }
  if c.wanDiscoveryTick ≥ 2 then
    let nextHop := (i.trace.hops[1]?.map (·.reachable)).getD false
    { c with
      wanDiscoveryTick := 0
      wanDiscovery := if nextHop then i.quality i.trace else i.trace }
  else c

/-- `slow_timer_cb` -/
def slowTimerCb (c : Collector) (i : SlowInput) : Collector :=
  let s := mergeLoop.exec c.state i.listed
  let conn := { s.connectivity with
    dnsReachable := i.dns.1
    dnsResolves := i.dns.1
    dnsLatencyMs := i.dns.2 }
  updateWan { c with state := { s with connectivity := conn } } i

/-! ## Start -/

def infraKey (i : Nat) (field : String) : CStr := CStr.lit s!"infra_{i}_{field}"

def loadInfraDevice (cfg : Config) (i : Nat) : InfraDevice :=
  let ip : CharArray 16 := CharArray.copy 16 (configGetStr cfg (infraKey i "ip") CStr.empty)
  { name := CharArray.copy 32 (configGetStr cfg (infraKey i "name") (CStr.lit "Device"))
    ipStr := ip
    type := infraParseType (configGetStr cfg (infraKey i "type") (CStr.lit "other"))
    enabled := ip.bytes ≠ []
    reachable := false
    latencyMs := 0
    consecutiveFails := 0 }

/-- `APP_MAX_INFRA_DEVICES` -/
def appMaxInfraDevices : Int := 8

def loadInfraConfig (cfg : Config) (s : NetState) : NetState :=
  let count := min (configGetInt cfg (CStr.lit "infra_count") 0) appMaxInfraDevices
  { s with
    numInfra := count
    infra := fun i => if 0 ≤ i ∧ i < count then loadInfraDevice cfg i.toNat else s.infra i }

/-- What the start reads. -/
structure BootInput where
  ifconf : Option (List IfReq)
  procNetDev : Option Bytes
  now : Timespec

/-- The return value of the enumeration at the start. -/
def BootInput.count (b : BootInput) : Int :=
  match netEnumerateInterfaces b.ifconf appMaxInterfaces with
  | some list => list.length
  | none => -1

/-- The table after the first enumeration: its return value is stored as it is. -/
def initIfaces (b : BootInput) (s : NetState) : NetState :=
  let list := (netEnumerateInterfaces b.ifconf appMaxInterfaces).getD []
  { s with
    numIfaces := b.count
    ifaces := fun i =>
      match if 0 ≤ i then list[i.toNat]? else none with
      | some info => { s.ifaces i with info := info }
      | none => s.ifaces i }

/-- `APP_HISTORY_SHORT_LEN` and `APP_HISTORY_LONG_LEN` are not zero. -/
theorem shortHistory_pos : 0 < 60 := by decide

theorem longHistory_pos : 0 < 1440 := by decide

def netCollectorInit (cfg : Config) (b : BootInput) : Collector :=
  let s := initIfaces b (loadInfraConfig cfg NetState.zero)
  let initial := parseProcNetDev b.procNetDev appMaxInterfaces
  { cfg := cfg
    state := initial.foldl storeStats s
    shortHistory := fun _ => Ring.fresh default shortHistory_pos
    longHistory := fun _ => Ring.fresh default longHistory_pos
    prevStats := overwrite (fun _ => default) initial
    prevValid := false
    prevTime := b.now
    minuteRxAcc := fun _ => 0
    minuteTxAcc := fun _ => 0
    minuteSampleCount := 0
    infraPingIdx := 0
    wanDiscovery := default
    wanDiscoveryTick := 0
    promiscuousEnabled := configGetInt cfg (CStr.lit "promiscuous_mode") 1 ≠ 0
    alerts := alertsInit cfg }

/-- The table slots `net_collector_init` touches: the ones it fills, the ones the
promiscuous mode is set for, and the lookups of the first counters. -/
def initAccesses (cfg : Config) (b : BootInput) : List Int :=
  let list := (netEnumerateInterfaces b.ifconf appMaxInterfaces).getD []
  let s := initIfaces b (loadInfraConfig cfg NetState.zero)
  let promiscuous := (List.range s.numIfaces.toNat).map Nat.cast
  (List.range list.length).map Nat.cast ++
    (if configGetInt cfg (CStr.lit "promiscuous_mode") 1 ≠ 0 then promiscuous else []) ++
    (parseProcNetDev b.procNetDev appMaxInterfaces).flatMap fun st => scanned s st.name

/-! ## The collector over time -/

inductive Tick where
  | fast (f : FastInput)
  | medium (m : MediumInput)
  | slow (i : SlowInput)

def Tick.isMedium : Tick → Bool
  | .medium _ => true
  | _ => false

/-- The collector under its timers; it emits the table slots the slow callback touches. -/
def collector : Machine Collector Tick Int where
  step c t :=
    match t with
    | .fast f => fastTimerCb c f
    | .medium m => mediumTimerCb c m
    | .slow i => slowTimerCb c i
  out c t :=
    match t with
    | .slow i => mergeLoop.trace c.state i.listed
    | _ => []

/-! ## What the callbacks leave alone -/

theorem sampleFor_row {c : Collector} {cur : NetStats} {s : RateSample}
    (h : sampleFor c cur = some s) : c.state.findIface cur.name = some s.row ∧ s.cur = cur ∧
      ∃ j, findPrev c cur.name = some j ∧ s.base = c.prevStats j := by
  simp only [sampleFor, Option.bind_eq_bind, Option.bind_eq_some_iff, Option.pure_def,
    Option.some.injEq] at h
  obtain ⟨row, hrow, j, hj, rfl⟩ := h
  exact ⟨hrow, rfl, j, hj, rfl⟩

theorem applySample_sameTable (dt : ℚ) (c : Collector) (s : RateSample) :
    SameTable c.state (applySample dt c s).state := SameTable.setIface fun _ => rfl

/-- A sample depends on the two tables it is looked up in alone. -/
theorem sampleFor_congr {c c' : Collector} (ht : SameTable c.state c'.state)
    (hp : c'.prevStats = c.prevStats) : sampleFor c' = sampleFor c := by
  funext cur
  have hprev : findPrev c' cur.name = findPrev c cur.name := by
    unfold findPrev
    rw [ht.numIfaces, hp]
  unfold sampleFor
  rw [ht.findIface, hprev, hp]

/-- The loop computes each row's sample from the tables it starts with. -/
theorem rateLoop_runs (dt : ℚ) (c : Collector) (rows : List NetStats) :
    (rateLoop dt).Runs c rows ((rows.filterMap (sampleFor c)).foldl (applySample dt) c)
      (rows.filterMap (sampleFor c)) := by
  induction rows generalizing c with
  | nil => exact Machine.Runs.refl c
  | cons r rs ih =>
    have hstep : (rateLoop dt).step c r = (sampleFor c r).elim c (applySample dt c) := rfl
    have hout : (rateLoop dt).out c r = (sampleFor c r).toList := rfl
    cases hs : sampleFor c r with
    | none =>
      rw [hs] at hstep hout
      rw [List.filterMap_cons_none hs]
      exact (Machine.Runs.single hstep hout).silent (ih c)
    | some s =>
      rw [hs] at hstep hout
      have hsame : sampleFor (applySample dt c s) = sampleFor c :=
        sampleFor_congr (applySample_sameTable dt c s) rfl
      have hrest := ih (applySample dt c s)
      rw [hsame] at hrest
      rw [List.filterMap_cons_some hs]
      exact (Machine.Runs.single hstep hout).trans hrest

theorem ratesAt_eq (c : Collector) (f : FastInput) : ratesAt c f =
    if c.prevValid ∧ 0 < elapsed f.now c.prevTime then f.reading.filterMap (sampleFor c)
    else [] := by
  unfold ratesAt
  simp only
  rw [(rateLoop_runs _ c f.reading).2]

theorem mem_ratesAt {c : Collector} {f : FastInput} {s : RateSample} : s ∈ ratesAt c f ↔
    (c.prevValid ∧ 0 < elapsed f.now c.prevTime) ∧ ∃ cur ∈ f.reading, sampleFor c cur = some s := by
  rw [ratesAt_eq]
  by_cases h : c.prevValid ∧ 0 < elapsed f.now c.prevTime
  · rw [if_pos h, List.mem_filterMap, and_iff_right h]
  · simp [h]

theorem computeRates_eq (f : FastInput) (c : Collector) :
    computeRates f c = (ratesAt c f).foldl (applySample (elapsed f.now c.prevTime)) c := by
  rw [ratesAt_eq]
  unfold computeRates
  simp only
  split
  · exact (rateLoop_runs _ c f.reading).1
  · rfl

theorem foldl_applySample_sameTable (dt : ℚ) (ss : List RateSample) (c : Collector) :
    SameTable c.state (ss.foldl (applySample dt) c).state := by
  induction ss generalizing c with
  | nil => exact SameTable.refl _
  | cons s ss ih => exact (applySample_sameTable dt c s).trans (ih _)

theorem foldl_flushMinute_frame (is : List Nat) (c : Collector) : ∃ long rx tx,
    is.foldl flushMinute c = { c with
      longHistory := long
      minuteRxAcc := rx
      minuteTxAcc := tx } := by
  induction is generalizing c with
  | nil => exact ⟨c.longHistory, c.minuteRxAcc, c.minuteTxAcc, rfl⟩
  | cons i is ih =>
    obtain ⟨long, rx, tx, h⟩ := ih (flushMinute c i)
    exact ⟨long, rx, tx, h⟩

theorem updateLongHistory_frame (c : Collector) : ∃ long rx tx n, updateLongHistory c =
    { c with
      longHistory := long
      minuteRxAcc := rx
      minuteTxAcc := tx
      minuteSampleCount := n } := by
  unfold updateLongHistory
  simp only
  split
  · obtain ⟨long, rx, tx, h⟩ := foldl_flushMinute_frame (List.range c.state.numIfaces.toNat)
      { c with minuteSampleCount := c.minuteSampleCount + 1 }
    exact ⟨long, rx, tx, 0, by rw [h]⟩
  · exact ⟨_, _, _, _, rfl⟩

theorem storeStats_sameTable (s : NetState) (cur : NetStats) : SameTable s (storeStats s cur) := by
  unfold storeStats
  split
  · exact SameTable.setIface fun _ => rfl
  · exact SameTable.refl s

theorem updateSysinfo_frame (f : FastInput) (c : Collector) : ∃ up total free available,
    updateSysinfo f c = { c with state :=
      { c.state with
        uptimeSec := up
        memTotalKb := total
        memFreeKb := free
        memAvailableKb := available } } := by
  obtain ⟨total, free, available, h⟩ :=
    readMeminfo_frame { c.state with uptimeSec := f.uptime.getD c.state.uptimeSec } f.meminfo
  refine ⟨f.uptime.getD c.state.uptimeSec, total, free, available, ?_⟩
  unfold updateSysinfo
  simp only
  rw [h]

theorem updateSysinfo_ifaces (f : FastInput) (c : Collector) :
    (updateSysinfo f c).state.numIfaces = c.state.numIfaces ∧
      (updateSysinfo f c).state.ifaces = c.state.ifaces := by
  obtain ⟨up, total, free, available, h⟩ := updateSysinfo_frame f c
  rw [h]
  exact ⟨rfl, rfl⟩

theorem fastTimerCb_sameTable (c : Collector) (f : FastInput) :
    SameTable c.state (fastTimerCb c f).state := by
  have h0 := updateSysinfo_ifaces f c
  have h1 : SameTable c.state (updateSysinfo f c).state := ⟨h0.1, fun k => by rw [h0.2]⟩
  have h2 : SameTable (updateSysinfo f c).state
      (updateLongHistory (computeRates f (updateSysinfo f c))).state := by
    obtain ⟨long, rx, tx, n, hframe⟩ := updateLongHistory_frame (computeRates f (updateSysinfo f c))
    rw [hframe, computeRates_eq]
    exact foldl_applySample_sameTable _ _ _
  exact (h1.trans h2).trans (SameTable.foldl storeStats_sameTable f.reading _)

theorem pingInfra_frame (answer : Bool × ℚ) (n : Nat) (c : Collector) :
    ∃ idx infra, pingInfra answer n c =
      { c with infraPingIdx := idx, state := { c.state with infra := infra } } := by
  induction n generalizing c with
  | zero => exact ⟨c.infraPingIdx, c.state.infra, rfl⟩
  | succ n ih =>
    unfold pingInfra
    simp only
    split
    · exact ⟨_, _, rfl⟩
    · exact ih _

theorem readWifi_sameTable (wifi : IfaceName → NetWifiInfo) (s : NetState) (i : Nat) :
    SameTable s (readWifi wifi s i) := by
  unfold readWifi
  split
  · exact SameTable.setIface fun _ => rfl
  · exact SameTable.refl s

theorem probeNetwork_sameTable (m : MediumInput) (s : NetState) :
    SameTable s (probeNetwork m s) := by
  have hgateway : SameTable s (probeGateway m.gateway s) := ⟨rfl, fun _ => rfl⟩
  exact hgateway.trans (SameTable.foldl (readWifi_sameTable m.wifi) _ _)

/-- A slow tick merges the listed interfaces, and sets the DNS result and what is known of the
way out. -/
theorem slowTimerCb_frame (c : Collector) (i : SlowInput) : ∃ tick wan,
    slowTimerCb c i = { c with
      state := { mergeLoop.exec c.state i.listed with
        connectivity := { (mergeLoop.exec c.state i.listed).connectivity with
          dnsReachable := i.dns.1
          dnsResolves := i.dns.1
          dnsLatencyMs := i.dns.2 } }
      wanDiscoveryTick := tick
      wanDiscovery := wan } := by
  unfold slowTimerCb updateWan
  simp only
  split
  · exact ⟨_, _, rfl⟩
  · exact ⟨_, _, rfl⟩

theorem mediumTimerCb_frame (c : Collector) (m : MediumInput) : ∃ idx infra alerts,
    mediumTimerCb c m = { c with
      infraPingIdx := idx
      state := { probeNetwork m c.state with infra := infra }
      alerts := alerts } := by
  obtain ⟨idx, infra, hping⟩ := pingInfra_frame m.infra (probeNetwork m c.state).numInfra.toNat
    { c with state := probeNetwork m c.state }
  unfold mediumTimerCb
  simp only
  rw [hping]
  exact ⟨_, _, _, rfl⟩

theorem mediumTimerCb_sameTable (c : Collector) (m : MediumInput) :
    SameTable c.state (mediumTimerCb c m).state := by
  obtain ⟨idx, infra, alerts, hmedium⟩ := mediumTimerCb_frame c m
  rw [hmedium]
  exact (probeNetwork_sameTable m c.state).trans ⟨rfl, fun _ => rfl⟩

end NetMon.Net
