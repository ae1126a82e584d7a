import NetMon.Lib.Machine
import NetMon.Satellite.Data
import NetMon.Satellite.Frame

/-!
# The frame receiver

`feed_byte` and `process_frame` of `sat_receiver.c`, byte by byte over the statics
`s_frame_buf`, `s_frame_pos`, `s_state`, `s_header` and the data model. Each byte
comes with the `millis()` reading at its arrival; the events are the outcomes the
source logs, an accepted frame with its header and the payload bytes behind it.

`run_frame`: from (SYNC, pos 0), a well-framed byte string ends in exactly one
`processFrame` on the buffer holding it, and back in (SYNC, pos 0).
-/

namespace NetMon.Satellite

open NetMon.Lib

/-- `rx_state_t`. -/
inductive RxState where
  | sync
  | header
  | payload
  | crc
  deriving DecidableEq, Repr

structure Receiver where
  frameBuf : Buf 256
  framePos : Nat
  state : RxState
  header : SatHeader
  data : SatData
  deriving DecidableEq

/-- What the receiver reports. -/
inductive RxEvent where
  | badHeader (version : UInt8) (payloadLen : UInt16)
  | crcMismatch (crcRx crcCalc : UInt16)
  | accepted (header : SatHeader) (payload : Bytes)
  deriving DecidableEq, Repr

/-- A received byte and the clock reading it arrived at. -/
abbrev Stamped := UInt32 × UInt8

namespace Receiver

/-- The statics at boot, after `sat_receiver_init`. -/
def reset : Receiver where
  frameBuf := Vector.replicate 256 0
  framePos := 0
  state := .sync
  header := ⟨0, 0, 0, 0, 0⟩
  data := SatData.zero

/-- (SYNC, pos 0): between frames. -/
def Ready (r : Receiver) : Prop := r.state = .sync ∧ r.framePos = 0

instance (r : Receiver) : Decidable r.Ready := inferInstanceAs (Decidable (_ ∧ _))

/-! ## `process_frame` -/

/-- `expected_len`, a 16-bit sum. -/
def expectedLen (r : Receiver) : UInt16 := UInt16.ofNat (sizeofHeader + r.header.payloadLen.toNat)

def crcRx (r : Receiver) : UInt16 :=
  (r.frameBuf.view r.expectedLen.toNat).toUInt16 |||
    ((r.frameBuf.view (r.expectedLen.toNat + 1)).toUInt16 <<< 8)

def crcCalc (r : Receiver) : UInt16 := satCrc16 r.frameBuf.view r.expectedLen

def processFrame (now : UInt32) (r : Receiver) : Receiver × RxEvent :=
  if r.crcRx ≠ r.crcCalc then (r, .crcMismatch r.crcRx r.crcCalc)
  else
    let alive := satDataMarkAlive r.data now r.header.sequence
    let data :=
      if r.header.msgType = satMsgSnapshot then
        satDataUpdateSnapshot alive (r.frameBuf.view.shift sizeofHeader)
      else alive -- heartbeat and unknown types only log
    ({ r with data := data },
      .accepted r.header (r.frameBuf.view.slice sizeofHeader r.header.payloadLen.toNat))

/-! ## `feed_byte` -/

def feedByte (r : Receiver) (i : Stamped) : Receiver × List RxEvent :=
  let (now, b) := i
  match r.state with
  | .sync =>
    if r.framePos = 0 ∧ b = (satProtoMagic &&& 0xFF).toUInt8 then
      ({ r with frameBuf := r.frameBuf.put 0 b, framePos := 1 }, [])
    else if r.framePos = 1 ∧ b = (satProtoMagic >>> 8).toUInt8 then
      ({ r with frameBuf := r.frameBuf.put 1 b, framePos := 2, state := .header }, [])
    else ({ r with framePos := 0 }, [])
  | .header =>
    let r := { r with frameBuf := r.frameBuf.put r.framePos b, framePos := r.framePos + 1 }
    if r.framePos ≥ sizeofHeader then
      let h := SatHeader.read r.frameBuf.view
      if h.version ≠ satProtoVersion ∨ h.payloadLen.toNat > maxPayload then
        ({ r with header := h, state := .sync, framePos := 0 }, [.badHeader h.version h.payloadLen])
      else if h.payloadLen = 0 then ({ r with header := h, state := .crc }, [])
      else ({ r with header := h, state := .payload }, [])
    else (r, [])
  | .payload =>
    let r := { r with frameBuf := r.frameBuf.put r.framePos b, framePos := r.framePos + 1 }
    if r.framePos ≥ sizeofHeader + r.header.payloadLen.toNat then ({ r with state := .crc }, [])
    else (r, [])
  | .crc =>
    let r := { r with frameBuf := r.frameBuf.put r.framePos b, framePos := r.framePos + 1 }
    if r.framePos ≥ sizeofHeader + r.header.payloadLen.toNat + 2 then
      let (r, event) := processFrame now r
      ({ r with state := .sync, framePos := 0 }, [event])
    else (r, [])

/-- The receiver as a machine over stamped bytes. -/
def machine : Machine Receiver Stamped RxEvent where
  step r i := (r.feedByte i).1
  out r i := (r.feedByte i).2

/-- The receiver after a stream, and what it reported. -/
abbrev feed (r : Receiver) (s : List Stamped) : Receiver := machine.exec r s
abbrev events (r : Receiver) (s : List Stamped) : List RxEvent := machine.trace r s

/-! ## Collecting a frame -/

/-- The receiver with the bytes `xs` collected since the frame's start. -/
def stage (r : Receiver) (h : SatHeader) (st : RxState) (xs : Bytes) : Receiver :=
  { r with frameBuf := r.frameBuf.putAll 0 xs, framePos := xs.length, state := st, header := h }

/-- The position at which the state is left. -/
def limit (h : SatHeader) : RxState → Nat
  | .sync => 0
  | .header => 8
  | .payload => 8 + h.payloadLen.toNat
  | .crc => 10 + h.payloadLen.toNat

variable {r : Receiver} {h : SatHeader}

theorem put_stage (r : Receiver) (xs : Bytes) (b : UInt8) :
    (r.frameBuf.putAll 0 xs).put xs.length b = r.frameBuf.putAll 0 (xs ++ [b]) := by
  rw [Buf.putAll_append, Nat.zero_add]
  rfl

/-- One byte, as a run. -/
theorem runs_byte {r r' : Receiver} {i : Stamped} {es : List RxEvent}
    (hb : feedByte r i = (r', es)) : machine.Runs r [i] r' es :=
  .single (congrArg Prod.fst hb) (congrArg Prod.snd hb)

/-- A byte short of the limit is just stored. -/
theorem feed_collect (st : RxState) (xs : Bytes) (i : Stamped) (hlt : xs.length + 1 < limit h st) :
    feedByte (stage r h st xs) i = (stage r h st (xs ++ [i.2]), []) := by
  obtain ⟨now, b⟩ := i
  cases st with
  | sync => simp [limit] at hlt
  | header | payload | crc =>
    simp only [limit] at hlt
    simp only [feedByte, stage, put_stage, List.length_append, List.length_singleton, sizeofHeader]
    rw [if_neg (by omega)]

theorem run_collect (st : RxState) (xs : Bytes) (s : List Stamped)
    (hlt : xs.length + s.length < limit h st) :
    machine.Runs (stage r h st xs) s (stage r h st (xs ++ s.map Prod.snd)) [] := by
  induction s generalizing xs with
  | nil => rw [List.map_nil, List.append_nil]; exact .refl _
  | cons i s ih =>
    simp only [List.length_cons] at hlt
    have hstep : feedByte (stage r h st xs) i = (stage r h st (xs ++ [i.2]), []) :=
      feed_collect st xs i (by omega)
    have hrest := ih (xs ++ [i.2]) (by simp; omega)
    rw [List.append_assoc] at hrest
    exact (runs_byte hstep).silent hrest

/-- The buffer of a stage holds the collected bytes. -/
theorem agree_stage (st : RxState) (xs : Bytes) (hxs : xs.length ≤ 256) :
    View.Agree (stage r h st xs).frameBuf.view xs.view 0 xs.length :=
  Buf.agree_putAll _ _ hxs

/-- The two magic bytes. -/
theorem run_magic (hr : r.Ready) {i j : Stamped} (hi : i.2 = 0x4D) (hj : j.2 = 0x4E) :
    machine.Runs r [i, j] (stage r r.header .header [i.2, j.2]) [] := by
  obtain ⟨buf, pos, st, hd, data⟩ := r
  obtain ⟨hs, hp⟩ := hr
  simp only at hs hp
  subst hs hp
  obtain ⟨_, b⟩ := i
  obtain ⟨_, c⟩ := j
  simp only at hi hj
  subst hi hj
  exact ⟨rfl, rfl⟩

/-- The header's last byte: the header is read and, being acceptable, fixes the next state. -/
theorem feed_header (h₀ : SatHeader) (xs : Bytes) (i : Stamped) (hlen : xs.length = 7)
    (hh : SatHeader.read (Bytes.view (xs ++ [i.2])) = h) (hv : h.version = satProtoVersion)
    (hfit : h.payloadLen.toNat ≤ maxPayload) :
    feedByte (stage r h₀ .header xs) i =
      (stage r h (if h.payloadLen = 0 then .crc else .payload) (xs ++ [i.2]), []) := by
  obtain ⟨now, b⟩ := i
  have hread : SatHeader.read (r.frameBuf.putAll 0 (xs ++ [b])).view = h := by
    rw [← hh]
    refine SatHeader.read_congr ((Buf.agree_putAll _ _ ?_).mono (by omega) ?_)
    · simp; omega
    · simp [sizeofHeader]; omega
  simp only [feedByte, stage, put_stage, List.length_append, List.length_singleton, hread]
  rw [if_pos (by unfold sizeofHeader; omega), if_neg (by rw [hv]; simp; omega)]
  split <;> rfl

/-- The payload's last byte. -/
theorem feed_payload (xs : Bytes) (i : Stamped) (hlen : xs.length + 1 = 8 + h.payloadLen.toNat) :
    feedByte (stage r h .payload xs) i = (stage r h .crc (xs ++ [i.2]), []) := by
  obtain ⟨now, b⟩ := i
  simp only [feedByte, stage, put_stage, List.length_append, List.length_singleton, sizeofHeader]
  rw [if_pos (by omega)]

/-- The whole payload, empty or not. -/
theorem run_payload (xs : Bytes) (s : List Stamped) (hxs : xs.length = 8)
    (hs : s.length = h.payloadLen.toNat) :
    machine.Runs (stage r h (if h.payloadLen = 0 then .crc else .payload) xs) s
      (stage r h .crc (xs ++ s.map Prod.snd)) [] := by
  by_cases h0 : h.payloadLen = 0
  · have : s = [] := List.length_eq_zero_iff.mp (by rw [hs, h0]; rfl)
    rw [this, if_pos h0, List.map_nil, List.append_nil]
    exact .refl _
  · have hpos : h.payloadLen.toNat ≠ 0 := fun e => h0 (UInt16.toNat_inj.mp e)
    obtain ⟨s, i, rfl⟩ := (List.eq_nil_or_concat s).resolve_left (by rintro rfl; simp at hs; omega)
    simp only [List.concat_eq_append, List.length_append, List.length_singleton] at hs ⊢
    have hinit := run_collect (r := r) (h := h) .payload xs s
      (by simp only [limit]; omega)
    have hlast := feed_payload (r := r) (h := h) (xs ++ s.map Prod.snd) i (by simp; omega)
    rw [if_neg h0, List.map_append, ← List.append_assoc]
    exact hinit.silent (runs_byte hlast)

/-- The second CRC byte: the frame is processed. -/
theorem feed_crc (xs : Bytes) (i : Stamped) (hlen : xs.length + 1 = 10 + h.payloadLen.toNat) :
    feedByte (stage r h .crc xs) i =
      ({ (processFrame i.1 (stage r h .crc (xs ++ [i.2]))).1 with state := .sync, framePos := 0 },
        [(processFrame i.1 (stage r h .crc (xs ++ [i.2]))).2]) := by
  obtain ⟨now, b⟩ := i
  simp only [feedByte, stage, put_stage, List.length_append, List.length_singleton, sizeofHeader]
  rw [if_pos (by omega)]

/-- A stream of ten bytes or more around a payload of `n`: magic, rest of the header with its
last byte apart, payload, CRC. -/
theorem split_frame {s : List Stamped} {i : Stamped} {n : Nat} (hlen : (s ++ [i]).length = 10 + n) :
    ∃ i0 i1 hs i7 ps c0, hs.length = 5 ∧ ps.length = n ∧
      s ++ [i] = [i0, i1] ++ (hs ++ ([i7] ++ (ps ++ ([c0] ++ [i])))) := by
  simp only [List.length_append, List.length_singleton] at hlen
  obtain ⟨a, c0, rfl⟩ := (List.eq_nil_or_concat s).resolve_left (by rintro rfl; simp at hlen; omega)
  simp only [List.concat_eq_append, List.length_append, List.length_singleton] at hlen
  refine ⟨a[0], a[1], (a.drop 2).take 5, a[7], a.drop 8, c0, ?_, ?_, ?_⟩
  · simp; omega
  · simp; omega
  · have h7 : a.drop 7 = a[7] :: a.drop 8 := List.drop_eq_getElem_cons (by omega)
    have h2 : (a.drop 2).take 5 ++ a.drop 7 = a.drop 2 := by
      rw [show a.drop 7 = (a.drop 2).drop 5 by rw [List.drop_drop], List.take_append_drop]
    have h0 : [a[0], a[1]] ++ a.drop 2 = a := by
      rw [List.cons_append, List.cons_append, List.nil_append, ← List.drop_eq_getElem_cons,
        ← List.drop_eq_getElem_cons, List.drop_zero]
    calc a.concat c0 ++ [i]
        = [a[0], a[1]] ++ ((a.drop 2).take 5 ++ a.drop 7) ++ [c0] ++ [i] := by
          rw [h2, h0, List.concat_eq_append]
      _ = _ := by simp only [h7, List.append_assoc, List.cons_append, List.nil_append]

/-- **One well-framed byte string**: one `processFrame`, on the buffer holding the string and
its header, at the clock reading of the last byte. -/
theorem run_frame (hr : r.Ready) (s : List Stamped) (i : Stamped) {f : Bytes}
    (hfs : (s ++ [i]).map Prod.snd = f) (hf : WellFramed f) :
    machine.Runs r (s ++ [i])
      { (processFrame i.1 (stage r (SatHeader.read f.view) .crc f)).1 with
        state := .sync, framePos := 0 }
      [(processFrame i.1 (stage r (SatHeader.read f.view) .crc f)).2] := by
  obtain ⟨hmagic, hversion, hfits, hlength⟩ := hf
  obtain ⟨h, hh⟩ : ∃ h, SatHeader.read f.view = h := ⟨_, rfl⟩
  rw [hh] at hmagic hversion hfits hlength ⊢
  -- the stream cut at the states' limits
  obtain ⟨i0, i1, hs, i7, ps, c0, hs5, hps, hsplit⟩ :=
    split_frame (s := s) (i := i) (n := h.payloadLen.toNat) (by rw [← hlength, ← hfs]; simp)
  have hf : f =
      [i0.2, i1.2] ++ hs.map Prod.snd ++ [i7.2] ++ ps.map Prod.snd ++ [c0.2] ++ [i.2] := by
    rw [← hfs, hsplit]
    simp
  have hb : i0.2 = 0x4D ∧ i1.2 = 0x4E := by
    have hm := congrArg UInt16.toNat hmagic
    rw [← hh, show (SatHeader.read f.view).magic = f.view.le16 0 from rfl, View.le16_toNat,
      hf] at hm
    have h0 := i0.2.toNat_lt
    have h1 := i1.2.toNat_lt
    have hm' : i0.2.toNat + 256 * i1.2.toNat = 0x4E4D := hm
    exact ⟨UInt8.toNat_inj.mp (show _ = 0x4D by omega), UInt8.toNat_inj.mp (show _ = 0x4E by omega)⟩
  have hhead : SatHeader.read (Bytes.view ([i0.2, i1.2] ++ hs.map Prod.snd ++ [i7.2])) = h := by
    have hcut : f = [i0.2, i1.2] ++ hs.map Prod.snd ++ [i7.2] ++
        (ps.map Prod.snd ++ ([c0.2] ++ [i.2])) := by rw [hf]; simp
    have hagree := Bytes.agree_append ([i0.2, i1.2] ++ hs.map Prod.snd ++ [i7.2])
      (ps.map Prod.snd ++ ([c0.2] ++ [i.2]))
    rw [← hcut] at hagree
    rw [← hh]
    exact SatHeader.read_congr (hagree.symm.mono (Nat.le_refl 0) (by simp [hs5, sizeofHeader]))
  have hmag := run_magic hr hb.1 hb.2
  have hhdr := run_collect (r := r) (h := r.header) .header [i0.2, i1.2] hs (by simp [limit, hs5])
  have hend := feed_header (r := r) r.header ([i0.2, i1.2] ++ hs.map Prod.snd) i7
    (by simp [hs5]) hhead hversion hfits
  have hpay := run_payload (r := r) (h := h) ([i0.2, i1.2] ++ hs.map Prod.snd ++ [i7.2]) ps
    (by simp [hs5]) hps
  have hcrc0 := feed_collect (r := r) (h := h) .crc
    ([i0.2, i1.2] ++ hs.map Prod.snd ++ [i7.2] ++ ps.map Prod.snd) c0
    (by simp [limit, hs5, hps]; omega)
  have hcrc1 := feed_crc (r := r) (h := h)
    ([i0.2, i1.2] ++ hs.map Prod.snd ++ [i7.2] ++ ps.map Prod.snd ++ [c0.2]) i
    (by simp [hs5, hps]; omega)
  rw [← hf] at hcrc1
  rw [hsplit]
  exact hmag.silent (hhdr.silent ((runs_byte hend).silent (hpay.silent
    ((runs_byte hcrc0).silent (runs_byte hcrc1)))))

/-! ## Processing a collected frame -/

/-- The two CRC bytes as the source combines them. -/
theorem or_shift_eq (a b : UInt8) :
    a.toUInt16 ||| (b.toUInt16 <<< 8) = UInt16.ofNat (a.toNat + 256 * b.toNat) := by
  have ha := a.toNat_lt
  have hb := b.toNat_lt
  apply UInt16.toNat_inj.mp
  rw [UInt16.toNat_or, UInt16.toNat_shiftLeft, UInt8.toNat_toUInt16, UInt8.toNat_toUInt16,
    UInt16.toNat_ofNat', show (8 : UInt16).toNat % 16 = 8 from rfl, Nat.shiftLeft_eq, Nat.or_comm,
    Nat.mod_eq_of_lt (a := b.toNat * 2 ^ 8) (by omega), ← Nat.shiftLeft_eq,
    ← Nat.shiftLeft_add_eq_or_of_lt (by omega), Nat.shiftLeft_eq]
  omega

theorem expectedLen_full {f : Bytes} (hfit : h.payloadLen.toNat ≤ 246) :
    (stage r h .crc f).expectedLen.toNat = 8 + h.payloadLen.toNat := by
  show (UInt16.ofNat (sizeofHeader + h.payloadLen.toNat)).toNat = _
  rw [UInt16.toNat_ofNat', sizeofHeader, Nat.mod_eq_of_lt (by omega)]

section Full

variable {f : Bytes} (hlen : f.length = 10 + h.payloadLen.toNat) (hfit : h.payloadLen.toNat ≤ 246)
include hlen hfit

theorem crcRx_full : (stage r h .crc f).crcRx = f.view.le16 (8 + h.payloadLen.toNat) := by
  have hag := agree_stage (r := r) (h := h) .crc f (by omega)
  rw [crcRx, or_shift_eq, expectedLen_full hfit, hag _ (by omega) (by omega),
    hag _ (by omega) (by omega)]
  rfl

theorem crcCalc_full :
    (stage r h .crc f).crcCalc = satCrc16 f.view (UInt16.ofNat (8 + h.payloadLen.toNat)) := by
  have hag := agree_stage (r := r) (h := h) .crc f (by omega)
  refine satCrc16_congr (hag.mono (by omega) ?_)
  rw [expectedLen_full hfit]
  omega

theorem payload_full :
    (stage r h .crc f).frameBuf.view.slice sizeofHeader h.payloadLen.toNat =
      f.view.slice 8 h.payloadLen.toNat :=
  View.slice_congr ((agree_stage (r := r) (h := h) .crc f (by omega)).mono (by omega)
    (by unfold sizeofHeader; omega))

/-- A full frame whose stored CRC is wrong: a warning and nothing else. -/
theorem processFrame_mismatch (now : UInt32)
    (hcrc : f.view.le16 (8 + h.payloadLen.toNat) ≠
      satCrc16 f.view (UInt16.ofNat (8 + h.payloadLen.toNat))) :
    processFrame now (stage r h .crc f) = (stage r h .crc f,
      .crcMismatch (stage r h .crc f).crcRx (stage r h .crc f).crcCalc) := by
  rw [processFrame, if_pos (by rwa [crcRx_full hlen hfit, crcCalc_full hlen hfit])]

/-- A full frame with a matching CRC is accepted. -/
theorem processFrame_match (now : UInt32)
    (hcrc : f.view.le16 (8 + h.payloadLen.toNat) =
      satCrc16 f.view (UInt16.ofNat (8 + h.payloadLen.toNat))) :
    processFrame now (stage r h .crc f) =
      ({ stage r h .crc f with
          data := if h.msgType = satMsgSnapshot then
              satDataUpdateSnapshot (satDataMarkAlive r.data now h.sequence)
                ((stage r h .crc f).frameBuf.view.shift sizeofHeader)
            else satDataMarkAlive r.data now h.sequence },
        .accepted h (f.view.slice 8 h.payloadLen.toNat)) := by
  rw [processFrame, if_neg (by rw [crcRx_full hlen hfit, crcCalc_full hlen hfit]; simp [hcrc]),
    ← payload_full (r := r) hlen hfit]
  rfl

end Full

/-- **A built frame**: accepted once with its header and payload, the data model updated from
the buffer that holds it. -/
theorem run_message (m : Message) (hr : r.Ready) (s : List Stamped) (i : Stamped)
    (hs : (s ++ [i]).map Prod.snd = m.frame) :
    machine.Runs r (s ++ [i])
      { stage r m.header .sync m.frame with
        framePos := 0
        data := if m.msgType = satMsgSnapshot then
            satDataUpdateSnapshot (satDataMarkAlive r.data i.1 m.sequence)
              ((r.frameBuf.putAll 0 m.frame).view.shift sizeofHeader)
          else satDataMarkAlive r.data i.1 m.sequence }
      [.accepted m.header m.payload] := by
  have hrun := run_frame hr s i hs m.wellFramed
  have hpl : m.header.payloadLen.toNat = m.payload.length := m.payloadLen_toNat
  rw [m.read_frame, processFrame_match (by rw [m.frame_length, hpl]) (by rw [hpl]; exact m.fits')
    i.1 (by rw [hpl, m.frame_crc, m.crc_frame]), hpl, m.slice_payload] at hrun
  exact hrun

/-- **A corrupted frame**: rejected, the data model unchanged. -/
theorem run_corrupted {f g : Bytes} (hf : WellFramed f) (hc : Corrupted f g) (hr : r.Ready)
    (s : List Stamped) (i : Stamped) (hs : (s ++ [i]).map Prod.snd = g) :
    ∃ crcRx crcCalc, machine.Runs r (s ++ [i])
      { stage r (SatHeader.read g.view) .sync g with framePos := 0 }
      [.crcMismatch crcRx crcCalc] := by
  have hwf := hc.wellFramed hf
  have hrun := run_frame hr s i hs hwf
  have hcrc := hc.crc
  rw [hwf.length, show 10 + (SatHeader.read g.view).payloadLen.toNat - 2 =
    8 + (SatHeader.read g.view).payloadLen.toNat by omega] at hcrc
  rw [processFrame_mismatch hwf.length hwf.fits i.1 hcrc] at hrun
  exact ⟨_, _, hrun⟩

/-! ## How long an accepted frame takes -/

/-- One byte moves the position up by at most one, and an accepted frame fits below it. -/
theorem feedByte_framePos (r : Receiver) (i : Stamped) :
    (feedByte r i).1.framePos ≤ r.framePos + 1 ∧
      ∀ hd p, RxEvent.accepted hd p ∈ (feedByte r i).2 → 10 + p.length ≤ r.framePos + 1 := by
  obtain ⟨now, b⟩ := i
  cases hst : r.state with
  | sync =>
    simp only [feedByte, hst]
    split
    · simp
    · split <;> simp_all
  | header =>
    simp only [feedByte, hst]
    split
    · split
      · simp
      · split <;> simp
    · simp
  | payload =>
    simp only [feedByte, hst]
    split <;> simp
  | crc =>
    simp only [feedByte, hst]
    split
    · rename_i hge
      refine ⟨Nat.zero_le _, fun hd p hp => ?_⟩
      simp only [List.mem_singleton, processFrame] at hp
      split at hp
      · cases hp
      · simp only [RxEvent.accepted.injEq] at hp
        rw [hp.2, View.slice_length]
        simp only [sizeofHeader] at hge ⊢
        omega
    · simp

/-- An accepted frame with payload `p` took at least `10 + p.length` bytes of the stream. -/
theorem accepted_length {r : Receiver} {s : List Stamped} {hd : SatHeader} {p : Bytes}
    (hacc : RxEvent.accepted hd p ∈ events r s) : 10 + p.length ≤ r.framePos + s.length := by
  induction s generalizing r with
  | nil => simp [events] at hacc
  | cons i s ih =>
    obtain ⟨hpos, hone⟩ := feedByte_framePos r i
    rw [events, Machine.trace_cons, List.mem_append] at hacc
    rw [List.length_cons]
    rcases hacc with hacc | hacc
    · have := hone hd p hacc
      omega
    · have := ih hacc
      simp only [machine] at this
      omega

end Receiver

end NetMon.Satellite
