import NetMon.Lib.Bytes

/-!
# The satellite protocol

Constants, packed structures and the CRC of `sat_protocol.h`. A frame is
`[header 8][payload N][crc16 2]`, every word little-endian. Each structure has its
layout (`bytes`) and its reader (`read`, what a cast of the pointer gives); reading
a laid-out structure gives it back, and `read` depends on the structure's own
bytes only.
-/

namespace NetMon.Satellite

open NetMon.Lib

/-- `SAT_PROTO_MAGIC`: `4D 4E` ("MN") on the wire. -/
def satProtoMagic : UInt16 := 0x4E4D
def satProtoVersion : UInt8 := 1
def satMaxInterfaces : Nat := 8
def satIfaceNameLen : Nat := 8
def satMaxFrameSize : Nat := 256

/-! ## Message types, flags and severities -/

def satMsgSnapshot : UInt8 := 0x01
def satMsgHeartbeat : UInt8 := 0x02
def satMsgAlert : UInt8 := 0x03
def satMsgAck : UInt8 := 0x80
def satMsgNack : UInt8 := 0x81

def satFlagGatewayUp : UInt8 := 1
def satFlagDnsUp : UInt8 := 2
def satFlagDnsResolves : UInt8 := 4
def satFlagWanUp : UInt8 := 8

def satIflagUp : UInt8 := 1
def satIflagRunning : UInt8 := 2
def satIflagWireless : UInt8 := 4

/-- `sat_severity_t`. -/
inductive SatSeverity where
  | none
  | info
  | warning
  | critical
  deriving DecidableEq, Repr

/-- The enumerator's value. -/
def SatSeverity.code : SatSeverity → UInt8
  | .none => 0
  | .info => 1
  | .warning => 2
  | .critical => 3

/-! ## Header -/

/-- `sat_header_t`. -/
structure SatHeader where
  magic : UInt16
  version : UInt8
  msgType : UInt8
  payloadLen : UInt16
  sequence : UInt16
  deriving DecidableEq, Repr

/-- `sizeof(sat_header_t)`. -/
def sizeofHeader : Nat := 8

def SatHeader.bytes (h : SatHeader) : Bytes :=
  u16Bytes h.magic ++ [h.version, h.msgType] ++ u16Bytes h.payloadLen ++ u16Bytes h.sequence

def SatHeader.read (m : View) : SatHeader where
  magic := m.le16 0
  version := m 2
  msgType := m 3
  payloadLen := m.le16 4
  sequence := m.le16 6

@[simp] theorem SatHeader.bytes_length (h : SatHeader) : h.bytes.length = sizeofHeader := rfl

theorem SatHeader.read_bytes (h : SatHeader) : SatHeader.read h.bytes.view = h := by
  obtain ⟨magic, version, msgType, payloadLen, sequence⟩ := h
  simp only [SatHeader.read, SatHeader.mk.injEq]
  exact ⟨u16Bytes_le16 magic, rfl, rfl, u16Bytes_le16 payloadLen, u16Bytes_le16 sequence⟩

theorem SatHeader.read_congr {m m' : View} (h : View.Agree m m' 0 sizeofHeader) :
    SatHeader.read m = SatHeader.read m' := by
  unfold sizeofHeader at h
  unfold SatHeader.read
  rw [View.le16_congr (h.mono (by omega) (by omega)), h 2 (by omega) (by omega),
    h 3 (by omega) (by omega), View.le16_congr (p := 4) (h.mono (by omega) (by omega)),
    View.le16_congr (p := 6) (h.mono (by omega) (by omega))]

/-! ## Per-interface data -/

/-- `sat_iface_data_t` (`_reserved` is always zero and never read). -/
structure SatIfaceData where
  name : Vector UInt8 8
  flags : UInt8
  errorRate : UInt8
  rxRate : UInt32
  txRate : UInt32
  linkSpeed : UInt16
  signalDbm : Int8
  deriving DecidableEq, Repr

/-- `sizeof(sat_iface_data_t)`; the header comment's "20 bytes" is out of date. -/
def sizeofIface : Nat := 22

def SatIfaceData.bytes (d : SatIfaceData) : Bytes :=
  d.name.toList ++ ([d.flags, d.errorRate] ++ u32Bytes d.rxRate ++ u32Bytes d.txRate ++
    u16Bytes d.linkSpeed ++ [d.signalDbm.toUInt8, 0])

def SatIfaceData.read (m : View) : SatIfaceData where
  name := Vector.ofFn fun i => m i
  flags := m 8
  errorRate := m 9
  rxRate := m.le32 10
  txRate := m.le32 14
  linkSpeed := m.le16 18
  signalDbm := (m 20).toInt8

@[simp] theorem SatIfaceData.bytes_length (d : SatIfaceData) : d.bytes.length = sizeofIface := by
  simp [SatIfaceData.bytes, sizeofIface]

theorem SatIfaceData.read_bytes (d : SatIfaceData) : SatIfaceData.read d.bytes.view = d := by
  obtain ⟨name, flags, errorRate, rxRate, txRate, linkSpeed, signalDbm⟩ := d
  have hlen : name.toList.length = 8 := Vector.length_toList
  -- past the name, the layout is a literal list of bytes
  have hrest : ∀ rest : Bytes, ∀ i, Bytes.view (name.toList ++ rest) (8 + i) = rest.view i := by
    intro rest i
    have := Bytes.view_append_right name.toList rest i
    rwa [hlen] at this
  simp only [SatIfaceData.read, SatIfaceData.bytes, SatIfaceData.mk.injEq]
  refine ⟨?_, hrest _ 0, hrest _ 1, ?_, ?_, ?_, ?_⟩
  · apply Vector.ext
    intro i hi
    rw [Vector.getElem_ofFn, Bytes.view_append_left _ (by omega)]
    simp [Bytes.view, hi]
  · simp only [View.le32, hrest _ 2, hrest _ 3, hrest _ 4, hrest _ 5, Nat.reduceAdd]
    exact u32Bytes_le32 rxRate
  · simp only [View.le32, hrest _ 6, hrest _ 7, hrest _ 8, hrest _ 9, Nat.reduceAdd]
    exact u32Bytes_le32 txRate
  · simp only [View.le16, hrest _ 10, hrest _ 11, Nat.reduceAdd]
    exact u16Bytes_le16 linkSpeed
  · rw [hrest _ 12]
    exact Int8.toInt8_toUInt8 signalDbm

/-- The reader stops before `_reserved`. -/
theorem SatIfaceData.read_congr {m m' : View} (h : View.Agree m m' 0 21) :
    SatIfaceData.read m = SatIfaceData.read m' := by
  have hn : (Vector.ofFn fun i : Fin 8 => m i) = Vector.ofFn fun i : Fin 8 => m' i := by
    congr 1
    funext i
    exact h i (by omega) (by omega)
  unfold SatIfaceData.read
  rw [hn, h 8 (by omega) (by omega), h 9 (by omega) (by omega),
    View.le32_congr (p := 10) (h.mono (by omega) (by omega)),
    View.le32_congr (p := 14) (h.mono (by omega) (by omega)),
    View.le16_congr (p := 18) (h.mono (by omega) (by omega)), h 20 (by omega) (by omega)]

/-! ## Snapshot -/

/-- The fixed part of `sat_snapshot_t`. -/
structure SatSnapshot where
  timestamp : UInt32
  uptimeSec : UInt32
  memUsedPct : UInt8
  numIfaces : UInt8
  connFlags : UInt8
  activeAlerts : UInt8
  maxSeverity : UInt8
  wanLossPct : UInt8
  gwLatency : UInt16
  dnsLatency : UInt16
  wanLatency : UInt16
  wanJitter : UInt16
  deriving DecidableEq, Repr

/-- `sizeof(sat_snapshot_t)`, the flexible array member not counted. -/
def sizeofSnapshot : Nat := 22

def SatSnapshot.bytes (s : SatSnapshot) : Bytes :=
  u32Bytes s.timestamp ++ u32Bytes s.uptimeSec ++ [s.memUsedPct, s.numIfaces, s.connFlags,
    s.activeAlerts, s.maxSeverity, s.wanLossPct] ++ u16Bytes s.gwLatency ++
    u16Bytes s.dnsLatency ++ u16Bytes s.wanLatency ++ u16Bytes s.wanJitter

def SatSnapshot.read (m : View) : SatSnapshot where
  timestamp := m.le32 0
  uptimeSec := m.le32 4
  memUsedPct := m 8
  numIfaces := m 9
  connFlags := m 10
  activeAlerts := m 11
  maxSeverity := m 12
  wanLossPct := m 13
  gwLatency := m.le16 14
  dnsLatency := m.le16 16
  wanLatency := m.le16 18
  wanJitter := m.le16 20

/-- `snap->ifaces[i]`. -/
def SatSnapshot.readIface (m : View) (i : Nat) : SatIfaceData :=
  SatIfaceData.read (m.shift (sizeofSnapshot + sizeofIface * i))

@[simp] theorem SatSnapshot.bytes_length (s : SatSnapshot) : s.bytes.length = sizeofSnapshot := rfl

theorem SatSnapshot.read_bytes (s : SatSnapshot) : SatSnapshot.read s.bytes.view = s := by
  obtain ⟨timestamp, uptimeSec, _, _, _, _, _, _, gwLatency, dnsLatency, wanLatency, wanJitter⟩ := s
  simp only [SatSnapshot.read, SatSnapshot.mk.injEq]
  exact ⟨u32Bytes_le32 timestamp, u32Bytes_le32 uptimeSec, rfl, rfl, rfl, rfl, rfl, rfl,
    u16Bytes_le16 gwLatency, u16Bytes_le16 dnsLatency, u16Bytes_le16 wanLatency,
    u16Bytes_le16 wanJitter⟩

theorem SatSnapshot.read_congr {m m' : View} (h : View.Agree m m' 0 sizeofSnapshot) :
    SatSnapshot.read m = SatSnapshot.read m' := by
  unfold sizeofSnapshot at h
  unfold SatSnapshot.read
  rw [View.le32_congr (h.mono (by omega) (by omega)),
    View.le32_congr (p := 4) (h.mono (by omega) (by omega)),
    h 8 (by omega) (by omega), h 9 (by omega) (by omega), h 10 (by omega) (by omega),
    h 11 (by omega) (by omega), h 12 (by omega) (by omega), h 13 (by omega) (by omega),
    View.le16_congr (p := 14) (h.mono (by omega) (by omega)),
    View.le16_congr (p := 16) (h.mono (by omega) (by omega)),
    View.le16_congr (p := 18) (h.mono (by omega) (by omega)),
    View.le16_congr (p := 20) (h.mono (by omega) (by omega))]

/-! ## CRC -/

/-- One shift of the CRC register. -/
def crcShift (crc : UInt16) : UInt16 :=
  if crc &&& 0x8000 ≠ 0 then (crc <<< 1) ^^^ 0x1021 else crc <<< 1

/-- One data byte: into the high half, then eight shifts. -/
def crcByte (crc : UInt16) (b : UInt8) : UInt16 :=
  Nat.repeat crcShift 8 (crc ^^^ (b.toUInt16 <<< 8))

/-- CRC-16/CCITT (polynomial 0x1021, init 0xFFFF) of the `len` bytes at `data`. -/
def satCrc16 (data : View) (len : UInt16) : UInt16 :=
  (data.slice 0 len.toNat).foldl crcByte 0xFFFF

theorem satCrc16_congr {m m' : View} {len : UInt16} (h : View.Agree m m' 0 len.toNat) :
    satCrc16 m len = satCrc16 m' len := by
  unfold satCrc16
  rw [View.slice_congr (by rwa [Nat.zero_add])]

-- The check value of CRC-16/CCITT-FALSE, the CRC of "123456789".
example : satCrc16 (Bytes.view [49, 50, 51, 52, 53, 54, 55, 56, 57]) 9 = 0x29B1 := by
  decide +kernel

end NetMon.Satellite
