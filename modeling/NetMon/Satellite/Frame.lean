import NetMon.Satellite.Protocol

/-!
# Building frames

`build_frame` of the host's encoder, and the frames it makes. A `Message` is what a
caller asks for, with a payload the largest frame holds; `Message.frame` is the
frame `build_frame` writes for it. `WellFramed` is what the receiver needs to stay
in step with a byte string: magic, version and a length that fits.
-/

namespace NetMon.Satellite

open NetMon.Lib

/-- The largest payload: `SAT_MAX_FRAME_SIZE - sizeof(sat_header_t) - 2`. -/
def maxPayload : Nat := satMaxFrameSize - sizeofHeader - 2

/-- `build_frame`: the bytes written (`none` for `-1`, the buffer being too small) and the
next sequence number. -/
def buildFrame (msgType : UInt8) (payload : View) (payloadLen : UInt16) (bufSize : Nat)
    (seq : UInt16) : Option Bytes × UInt16 :=
  let total := sizeofHeader + payloadLen.toNat + 2
  if total > bufSize then (none, seq)
  else
    let hdr : SatHeader := ⟨satProtoMagic, satProtoVersion, msgType, payloadLen, seq⟩
    let body := hdr.bytes ++ payload.slice 0 payloadLen.toNat
    let crc := satCrc16 body.view (UInt16.ofNat (sizeofHeader + payloadLen.toNat))
    (some (body ++ [(crc &&& 0xFF).toUInt8, ((crc >>> 8) &&& 0xFF).toUInt8]), seq + 1)

/-- The two CRC bytes are the word's little-endian layout. -/
theorem crc_bytes (crc : UInt16) :
    [(crc &&& 0xFF).toUInt8, ((crc >>> 8) &&& 0xFF).toUInt8] = u16Bytes crc := by
  have h := crc.toNat_lt
  have hlo : (crc &&& 0xFF).toUInt8 = UInt8.ofNat (crc.toNat % 256) := by
    apply UInt8.toNat_inj.mp
    rw [UInt16.toNat_toUInt8, UInt16.toNat_and, UInt8.toNat_ofNat',
      show (0xFF : UInt16).toNat = 2 ^ 8 - 1 from rfl, Nat.and_two_pow_sub_one_eq_mod]
  have hhi : ((crc >>> 8) &&& 0xFF).toUInt8 = UInt8.ofNat (crc.toNat / 256) := by
    apply UInt8.toNat_inj.mp
    rw [UInt16.toNat_toUInt8, UInt16.toNat_and, UInt16.toNat_shiftRight, UInt8.toNat_ofNat',
      show (0xFF : UInt16).toNat = 2 ^ 8 - 1 from rfl, Nat.and_two_pow_sub_one_eq_mod,
      show (8 : UInt16).toNat % 16 = 8 from rfl, Nat.shiftRight_eq_div_pow]
    omega
  rw [hlo, hhi]
  rfl

/-! ## Messages -/

/-- A frame to send: any type and sequence number, a payload that fits. -/
structure Message where
  msgType : UInt8
  payload : Bytes
  sequence : UInt16
  fits : payload.length ≤ maxPayload

namespace Message

variable (m : Message)

theorem fits' : m.payload.length ≤ 246 := m.fits

def payloadLen : UInt16 := UInt16.ofNat m.payload.length

theorem payloadLen_toNat : m.payloadLen.toNat = m.payload.length := by
  have := m.fits'
  rw [payloadLen, UInt16.toNat_ofNat', Nat.mod_eq_of_lt (by omega)]

def header : SatHeader := ⟨satProtoMagic, satProtoVersion, m.msgType, m.payloadLen, m.sequence⟩

/-- What `build_frame` returns for the message, in a buffer of `SAT_MAX_FRAME_SIZE` bytes. -/
def build : Option Bytes × UInt16 :=
  buildFrame m.msgType m.payload.view m.payloadLen satMaxFrameSize m.sequence

/-- Header and payload: what the CRC covers. -/
def body : Bytes := m.header.bytes ++ m.payload

/-- The CRC of the message. -/
def crc : UInt16 := satCrc16 m.body.view (UInt16.ofNat (sizeofHeader + m.payload.length))

theorem body_length : m.body.length = 8 + m.payload.length := by
  rw [body, List.length_append, SatHeader.bytes_length, sizeofHeader]

theorem build_eq : m.build = (some (m.body ++ u16Bytes m.crc), m.sequence + 1) := by
  have hfit := m.fits'
  have hslice : m.payload.view.slice 0 m.payload.length = m.payload := by
    rw [View.slice_view _ (by omega), List.drop_zero, List.take_length]
  unfold build buildFrame
  rw [payloadLen_toNat, hslice, if_neg (by unfold satMaxFrameSize sizeofHeader; omega)]
  simp only [crc_bytes]
  rfl

/-- The frame `build_frame` makes of the message. -/
def frame : Bytes := m.build.1.get (by rw [m.build_eq]; rfl)

theorem frame_eq : m.frame = m.body ++ u16Bytes m.crc := by
  simp only [frame, m.build_eq, Option.get_some]

theorem build_fst : m.build.1 = some m.frame := by rw [frame, Option.some_get]

theorem frame_length : m.frame.length = 10 + m.payload.length := by
  rw [frame_eq, List.length_append, body_length, u16Bytes_length]
  omega

theorem frame_ne_nil : m.frame ≠ [] := List.ne_nil_of_length_pos (by rw [frame_length]; omega)

/-- The frame starts with the header. -/
theorem frame_agree_header : View.Agree m.frame.view m.header.bytes.view 0 8 := by
  rw [frame_eq, body, List.append_assoc]
  exact Bytes.agree_append _ _

theorem read_frame : SatHeader.read m.frame.view = m.header := by
  rw [SatHeader.read_congr m.frame_agree_header, SatHeader.read_bytes]

theorem frame_agree_body : View.Agree m.frame.view m.body.view 0 m.body.length := by
  rw [frame_eq]
  exact Bytes.agree_append _ _

/-- The payload sits behind the header. -/
theorem slice_payload : m.frame.view.slice 8 m.payload.length = m.payload := by
  rw [View.slice_view _ (by rw [frame_length]; omega), frame_eq, body, List.append_assoc]
  show ((m.header.bytes ++ (m.payload ++ u16Bytes m.crc)).drop m.header.bytes.length).take _ = _
  rw [List.drop_left, List.take_left]

theorem payload_agree : View.Agree (m.frame.view.shift 8) m.payload.view 0 m.payload.length := by
  rw [frame_eq, body, List.append_assoc]
  intro i _ hi
  rw [View.shift, show 8 + i = m.header.bytes.length + i from rfl, Bytes.view_append_right,
    Bytes.view_append_left _ hi]

/-- The stored CRC sits behind the payload. -/
theorem frame_crc : m.frame.view.le16 (8 + m.payload.length) = m.crc := by
  have h : ∀ i, m.frame.view (8 + m.payload.length + i) = (u16Bytes m.crc).view i := by
    intro i
    rw [frame_eq, ← body_length]
    exact Bytes.view_append_right _ _ _
  rw [View.le16, h 1, show 8 + m.payload.length = 8 + m.payload.length + 0 from rfl, h 0]
  exact u16Bytes_le16 m.crc

/-- Built frames carry the CRC the receiver computes. -/
theorem crc_frame :
    satCrc16 m.frame.view (UInt16.ofNat (8 + m.payload.length)) = m.crc := by
  have hfit := m.fits'
  refine satCrc16_congr (m.frame_agree_body.mono (by omega) ?_)
  rw [body_length, UInt16.toNat_ofNat']
  exact Nat.mod_le _ _

end Message

/-! ## Byte strings the receiver takes as one frame -/

/-- The byte string is one frame as far as framing goes: magic, version, and the length the
header announces, which fits. Type, sequence, payload and CRC are free. -/
structure WellFramed (f : Bytes) : Prop where
  magic : (SatHeader.read f.view).magic = satProtoMagic
  version : (SatHeader.read f.view).version = satProtoVersion
  fits : (SatHeader.read f.view).payloadLen.toNat ≤ maxPayload
  length : f.length = 10 + (SatHeader.read f.view).payloadLen.toNat

theorem Message.wellFramed (m : Message) : WellFramed m.frame where
  magic := by rw [m.read_frame]; rfl
  version := by rw [m.read_frame]; rfl
  fits := by rw [m.read_frame]; show m.payloadLen.toNat ≤ _; rw [m.payloadLen_toNat]; exact m.fits
  length := by
    rw [m.read_frame, m.frame_length]
    show _ = 10 + m.payloadLen.toNat
    rw [m.payloadLen_toNat]

/-- `g` is `f` with type, sequence, payload and CRC bytes changed so that the stored CRC no
longer matches. -/
structure Corrupted (f g : Bytes) : Prop where
  length : g.length = f.length
  magic : g.view 0 = f.view 0 ∧ g.view 1 = f.view 1
  version : g.view 2 = f.view 2
  payloadLen : g.view 4 = f.view 4 ∧ g.view 5 = f.view 5
  crc : g.view.le16 (g.length - 2) ≠ satCrc16 g.view (UInt16.ofNat (g.length - 2))

theorem Corrupted.wellFramed {f g : Bytes} (hf : WellFramed f) (h : Corrupted f g) :
    WellFramed g := by
  have hm : (SatHeader.read g.view).magic = (SatHeader.read f.view).magic := by
    show View.le16 _ 0 = View.le16 _ 0
    unfold View.le16
    rw [h.magic.1, h.magic.2]
  have hl : (SatHeader.read g.view).payloadLen = (SatHeader.read f.view).payloadLen := by
    show View.le16 _ 4 = View.le16 _ 4
    unfold View.le16
    rw [h.payloadLen.1, h.payloadLen.2]
  exact ⟨hm.trans hf.magic, h.version.trans hf.version, by rw [hl]; exact hf.fits,
    by rw [hl, h.length]; exact hf.length⟩

end NetMon.Satellite
