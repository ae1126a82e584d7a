import Mathlib.Data.Rat.Defs
import NetMon.Satellite.Protocol

/-!
# The satellite's data model

`sat_data.c`: what the display reads. A snapshot is read through a pointer into the
receiver's frame buffer, so the model takes the memory behind that pointer.
Latencies are exact tenths (the source's `float` division by `10.0f`).

`snapshotReach n` is how far behind the pointer an update with the interface count
`n` reads; `satDataUpdateSnapshot_congr` says nothing beyond it matters.
-/

namespace NetMon.Satellite

open NetMon.Lib

/-- `CONNECTION_TIMEOUT_MS`. -/
def connectionTimeoutMs : UInt32 := 5000

/-- `SAT_DATA_HISTORY_LEN`: 60 seconds of rate history. -/
def satDataHistoryLen : Nat := 60

/-- `sat_iface_t`. -/
structure SatIface where
  name : Vector UInt8 9
  up : Bool
  running : Bool
  wireless : Bool
  rxRate : UInt32
  txRate : UInt32
  linkSpeed : UInt16
  signalDbm : Int8
  errorRate : UInt8
  deriving DecidableEq, Repr

/-- `sat_data_t`. -/
structure SatData where
  timestamp : UInt32
  uptimeSec : UInt32
  memUsedPct : UInt8
  numIfaces : UInt8
  ifaces : Vector SatIface 8
  gwUp : Bool
  dnsUp : Bool
  dnsResolves : Bool
  wanUp : Bool
  gwLatencyMs : ℚ
  dnsLatencyMs : ℚ
  wanLatencyMs : ℚ
  wanJitterMs : ℚ
  wanLossPct : UInt8
  activeAlerts : UInt8
  maxSeverity : UInt8
  totalRxRate : UInt32
  totalTxRate : UInt32
  maxLinkBps : UInt32
  rxHistory : Vector UInt32 60
  txHistory : Vector UInt32 60
  historyHead : Nat
  historyCount : Nat
  connected : Bool
  lastRxTime : UInt32
  lastSeq : UInt16
  rxFrames : UInt32
  rxErrors : UInt32
  deriving DecidableEq

/-- The zero-initialised static `s_data`. -/
def SatIface.zero : SatIface :=
  ⟨Vector.replicate 9 0, false, false, false, 0, 0, 0, 0, 0⟩

def SatData.zero : SatData where
  timestamp := 0
  uptimeSec := 0
  memUsedPct := 0
  numIfaces := 0
  ifaces := Vector.replicate 8 SatIface.zero
  gwUp := false
  dnsUp := false
  dnsResolves := false
  wanUp := false
  gwLatencyMs := 0
  dnsLatencyMs := 0
  wanLatencyMs := 0
  wanJitterMs := 0
  wanLossPct := 0
  activeAlerts := 0
  maxSeverity := 0
  totalRxRate := 0
  totalTxRate := 0
  maxLinkBps := 0
  rxHistory := Vector.replicate 60 0
  txHistory := Vector.replicate 60 0
  historyHead := 0
  historyCount := 0
  connected := false
  lastRxTime := 0
  lastSeq := 0
  rxFrames := 0
  rxErrors := 0

/-! ## Snapshot update -/

/-- `n`, clamped to `SAT_MAX_INTERFACES`. -/
def clampIfaces (n : UInt8) : Nat := min n.toNat satMaxInterfaces

/-- One interface of the snapshot as the display keeps it. -/
def SatIface.ofData (d : SatIfaceData) : SatIface where
  name := d.name.push 0
  up := d.flags &&& satIflagUp ≠ 0
  running := d.flags &&& satIflagRunning ≠ 0
  wireless := d.flags &&& satIflagWireless ≠ 0
  rxRate := d.rxRate
  txRate := d.txRate
  linkSpeed := d.linkSpeed
  signalDbm := d.signalDbm
  errorRate := d.errorRate

/-- The loop's running maximum of the link speeds, in bits per second (32-bit product). -/
def maxLink (srcs : List SatIfaceData) : UInt32 :=
  srcs.foldl (fun m src =>
    let linkBps := src.linkSpeed.toUInt32 * 1000000
    if linkBps > m then linkBps else m) 0

/-- Push to the history ring buffer. -/
def SatData.pushHistory (d : SatData) (rx tx : UInt32) : SatData :=
  { d with
    rxHistory := d.rxHistory.setIfInBounds d.historyHead rx
    txHistory := d.txHistory.setIfInBounds d.historyHead tx
    historyHead := (d.historyHead + 1) % satDataHistoryLen
    historyCount := if d.historyCount < satDataHistoryLen then d.historyCount + 1
      else d.historyCount }

/-- `sat_data_update_snapshot`, from the fixed part and the first `n` interfaces it reads. -/
def SatData.update (d : SatData) (snap : SatSnapshot) (srcs : List SatIfaceData) : SatData :=
  let totalRx := srcs.foldl (fun t src => t + src.rxRate) 0
  let totalTx := srcs.foldl (fun t src => t + src.txRate) 0
  { d with
    timestamp := snap.timestamp
    uptimeSec := snap.uptimeSec
    memUsedPct := snap.memUsedPct
    gwUp := snap.connFlags &&& satFlagGatewayUp ≠ 0
    dnsUp := snap.connFlags &&& satFlagDnsUp ≠ 0
    dnsResolves := snap.connFlags &&& satFlagDnsResolves ≠ 0
    wanUp := snap.connFlags &&& satFlagWanUp ≠ 0
    gwLatencyMs := (snap.gwLatency.toNat : ℚ) / 10
    dnsLatencyMs := (snap.dnsLatency.toNat : ℚ) / 10
    wanLatencyMs := (snap.wanLatency.toNat : ℚ) / 10
    wanJitterMs := (snap.wanJitter.toNat : ℚ) / 10
    wanLossPct := snap.wanLossPct
    activeAlerts := snap.activeAlerts
    maxSeverity := snap.maxSeverity
    numIfaces := UInt8.ofNat (clampIfaces snap.numIfaces)
    ifaces := Vector.ofFn fun i : Fin 8 => (srcs[i.val]?.map SatIface.ofData).getD d.ifaces[i]
    totalRxRate := totalRx
    totalTxRate := totalTx
    maxLinkBps := if maxLink srcs > 0 then maxLink srcs else 100000000
    : SatData }.pushHistory totalRx totalTx

/-- The interfaces the update loop visits. -/
def snapshotIfaces (m : View) (n : Nat) : List SatIfaceData :=
  (List.range n).map (SatSnapshot.readIface m)

/-- `sat_data_update_snapshot(snap)`, `snap` pointing at `m`. -/
def satDataUpdateSnapshot (d : SatData) (m : View) : SatData :=
  let snap := SatSnapshot.read m
  d.update snap (snapshotIfaces m (clampIfaces snap.numIfaces))

theorem clampIfaces_le (n : UInt8) : clampIfaces n ≤ 8 := Nat.min_le_right _ _

/-- The interfaces of an update are those it was given. -/
theorem update_ifaces (d : SatData) (snap : SatSnapshot) (srcs : List SatIfaceData) (i : Fin 8)
    {src : SatIfaceData} (h : srcs[i.val]? = some src) :
    (d.update snap srcs).ifaces[i] = SatIface.ofData src := by
  show (Vector.ofFn _)[i.val] = _
  rw [Vector.getElem_ofFn]
  show ((srcs[i.val]?).map SatIface.ofData).getD _ = _
  rw [h]
  rfl

/-- Every announced interface, up to the eighth, is stored. -/
theorem satDataUpdateSnapshot_ifaces (d : SatData) (m : View) (i : Fin 8)
    (hi : i.val < clampIfaces (m 9)) :
    (satDataUpdateSnapshot d m).ifaces[i] = SatIface.ofData (SatSnapshot.readIface m i.val) := by
  apply update_ifaces d (SatSnapshot.read m) _ i
  show (snapshotIfaces m (clampIfaces (m 9)))[i.val]? = _
  rw [snapshotIfaces, List.getElem?_map, List.getElem?_range hi]
  rfl

/-- The bytes behind the pointer an update reads when the snapshot announces `n` interfaces:
the fixed part and the interfaces, the last one's reserved byte left out. -/
def snapshotReach (n : UInt8) : Nat :=
  if clampIfaces n = 0 then sizeofSnapshot else sizeofSnapshot + sizeofIface * clampIfaces n - 1

theorem sizeofSnapshot_le_reach (n : UInt8) : sizeofSnapshot ≤ snapshotReach n := by
  unfold snapshotReach sizeofSnapshot sizeofIface
  split <;> omega

/-- Every visited interface lies inside the reach. -/
theorem iface_in_reach {n : UInt8} {i : Nat} (hi : i < clampIfaces n) :
    sizeofSnapshot + sizeofIface * i + 21 ≤ snapshotReach n := by
  unfold snapshotReach sizeofSnapshot sizeofIface
  rw [if_neg (by omega)]
  omega

/-- An update depends only on the bytes within its reach. -/
theorem satDataUpdateSnapshot_congr (d : SatData) {m m' : View}
    (h : View.Agree m m' 0 (snapshotReach (m 9))) :
    satDataUpdateSnapshot d m = satDataUpdateSnapshot d m' := by
  have hread : SatSnapshot.read m = SatSnapshot.read m' :=
    SatSnapshot.read_congr (h.mono (by omega) (sizeofSnapshot_le_reach _))
  have hifaces : snapshotIfaces m (clampIfaces (m 9)) = snapshotIfaces m' (clampIfaces (m 9)) := by
    apply List.map_congr_left
    intro i hi
    rw [List.mem_range] at hi
    have := iface_in_reach hi
    exact SatIfaceData.read_congr (View.Agree.shift _ (h.mono (by omega) (by omega)))
  show d.update (SatSnapshot.read m) (snapshotIfaces m (clampIfaces (m 9))) = _
  rw [hifaces, satDataUpdateSnapshot, ← hread]
  rfl

/-! ## A laid-out snapshot -/

theorem readIface_laidOut (snap : SatSnapshot) (ifs : List SatIfaceData) {i : Nat}
    (hi : i < ifs.length) :
    SatSnapshot.readIface (Bytes.view (snap.bytes ++ ifs.flatMap SatIfaceData.bytes)) i =
      ifs[i] := by
  have hrec := Bytes.view_flatMap (k := sizeofIface) SatIfaceData.bytes_length ifs hi
  rw [← SatIfaceData.read_bytes ifs[i]]
  apply SatIfaceData.read_congr
  intro j _ hj
  rw [← hrec j (by omega) (by unfold sizeofIface; omega), View.shift, View.shift,
    Nat.add_assoc, ← snap.bytes_length, Bytes.view_append_right]

/-- A snapshot laid out with its interfaces is visited whole. -/
theorem snapshotIfaces_laidOut {snap : SatSnapshot} {ifs : List SatIfaceData}
    (hn : snap.numIfaces.toNat = ifs.length) (h8 : ifs.length ≤ satMaxInterfaces) :
    snapshotIfaces (Bytes.view (snap.bytes ++ ifs.flatMap SatIfaceData.bytes))
      (clampIfaces snap.numIfaces) = ifs := by
  have hclamp : clampIfaces snap.numIfaces = ifs.length := by
    rw [clampIfaces, hn]
    exact Nat.min_eq_left h8
  rw [hclamp]
  apply List.ext_getElem
  · rw [snapshotIfaces, List.length_map, List.length_range]
  · intro i h1 h2
    rw [← readIface_laidOut snap ifs h2]
    simp only [snapshotIfaces, List.getElem_map, List.getElem_range]

theorem read_laidOut (snap : SatSnapshot) (ifs : List SatIfaceData) :
    SatSnapshot.read (Bytes.view (snap.bytes ++ ifs.flatMap SatIfaceData.bytes)) = snap := by
  rw [SatSnapshot.read_congr (Bytes.agree_append _ _), SatSnapshot.read_bytes]

theorem read_numIfaces (m : View) : (SatSnapshot.read m).numIfaces = m 9 := rfl

/-- It updates the model to what it says. -/
theorem satDataUpdateSnapshot_laidOut (d : SatData) {snap : SatSnapshot} {ifs : List SatIfaceData}
    (hn : snap.numIfaces.toNat = ifs.length) (h8 : ifs.length ≤ satMaxInterfaces) :
    satDataUpdateSnapshot d (Bytes.view (snap.bytes ++ ifs.flatMap SatIfaceData.bytes)) =
      d.update snap ifs := by
  unfold satDataUpdateSnapshot
  simp only [read_laidOut, snapshotIfaces_laidOut hn h8]

/-! ## Connection state -/

/-- `sat_data_mark_alive`. -/
def satDataMarkAlive (d : SatData) (nowMs : UInt32) (seq : UInt16) : SatData :=
  { d with
    connected := true
    lastRxTime := nowMs
    lastSeq := seq
    rxFrames := d.rxFrames + 1 }

/-- `sat_data_check_connection` (32-bit difference). -/
def satDataCheckConnection (d : SatData) (nowMs : UInt32) : SatData :=
  if d.connected ∧ nowMs - d.lastRxTime > connectionTimeoutMs then { d with connected := false }
  else d

end NetMon.Satellite
