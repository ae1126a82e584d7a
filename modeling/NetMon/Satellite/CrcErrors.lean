import Mathlib.Algebra.Ring.Parity
import NetMon.Lib.Crc
import NetMon.Satellite.Receiver

/-!
# What the CRC finds

The syndrome of a byte string is the CRC the receiver computes, exclusive or the one it
reads; a well-framed string is rejected exactly when it is not zero (`rejected_iff`).
Changing one byte changes the syndrome by an amount that depends on the change and its place
alone (`syndrome_xorAt`), a single bit by a power of the register (`spread_bit`).

The register works from the top bit down, but the CRC is stored low byte first. So the last
byte in front of the CRC and its first byte are no neighbours for the polynomial: a change
to these two of one particular kind is missed (`burst_rejected_iff`). For single bits the
order of the two bytes makes no difference (`flips_rejected`).
-/

namespace NetMon.Satellite

open NetMon.Lib

/-- The polynomial without its leading term. -/
def crcPoly : BitVec 16 := 0x1021#16

theorem crcPoly_low : crcPoly.getLsbD 0 = true := rfl

theorem crcPoly_parity : Crc.parity crcPoly = true := rfl

/-- The register's order is beyond the bits of the largest frame. -/
theorem crcPoly_order : ∀ d < 2047, Crc.power crcPoly (d + 1) ≠ 1#16 := by
  have hcheck : Crc.avoids crcPoly 1#16 2047 (Crc.shift crcPoly 1#16) = true := by decide +kernel
  exact Crc.iterate_ne_of_avoids hcheck

/-! ## The source's CRC -/

/-- A byte in the high half of the register. -/
def high (b : UInt8) : BitVec 16 := b.toBitVec.setWidth 16 <<< 8

/-- A byte in the low half. -/
def low (b : UInt8) : BitVec 16 := b.toBitVec.setWidth 16

theorem high_xor (a b : UInt8) : high (a ^^^ b) = high a ^^^ high b := by
  rw [high, UInt8.toBitVec_xor, BitVec.setWidth_xor, BitVec.shiftLeft_xor_distrib]
  rfl

theorem low_xor (a b : UInt8) : low (a ^^^ b) = low a ^^^ low b := by
  rw [low, UInt8.toBitVec_xor, BitVec.setWidth_xor]
  rfl

theorem top_bit (c : UInt16) : c &&& 0x8000 ≠ 0 ↔ c.toBitVec.msb = true := by
  have h : (c &&& 0x8000).toBitVec = c.toBitVec &&& BitVec.twoPow 16 15 := rfl
  rw [Ne, ← UInt16.toBitVec_inj, h, BitVec.and_twoPow, BitVec.msb_eq_getLsbD_last]
  cases c.toBitVec.getLsbD 15 <;> decide

theorem crcShift_toBitVec (c : UInt16) : (crcShift c).toBitVec = Crc.shift crcPoly c.toBitVec := by
  unfold crcShift Crc.shift
  by_cases h : c.toBitVec.msb = true
  · rw [if_pos ((top_bit c).mpr h), if_pos h]
    rfl
  · rw [if_neg (mt (top_bit c).mp h), if_neg h]
    rfl

theorem shifts_toBitVec (n : Nat) (c : UInt16) :
    (Nat.repeat crcShift n c).toBitVec = (Crc.shift crcPoly)^[n] c.toBitVec := by
  induction n with
  | zero => rfl
  | succ n ih =>
    rw [Function.iterate_succ_apply', ← ih, ← crcShift_toBitVec]
    rfl

theorem crcByte_toBitVec (c : UInt16) (b : UInt8) :
    (crcByte c b).toBitVec = Crc.enter crcPoly 8 c.toBitVec (high b) := by
  unfold crcByte
  rw [shifts_toBitVec, UInt16.toBitVec_xor]
  rfl

theorem foldl_crcByte_toBitVec (init : UInt16) (l : Bytes) :
    (l.foldl crcByte init).toBitVec = Crc.crc crcPoly 8 init.toBitVec (l.map high) := by
  induction l generalizing init with
  | nil => rfl
  | cons b l ih =>
    rw [List.foldl_cons, ih, crcByte_toBitVec]
    rfl

theorem low_getLsbD (b : UInt8) {i : Nat} (hi : 8 ≤ i) : (low b).getLsbD i = false := by
  rw [low, BitVec.getLsbD_setWidth, BitVec.getLsbD_of_ge _ i hi, Bool.and_false]

theorem high_getLsbD (b : UInt8) {i : Nat} (hi : i < 8) : (high b).getLsbD i = false := by
  rw [high, BitVec.getLsbD_shiftLeft, decide_eq_true hi]
  simp

/-- The word the receiver reads, in two halves. -/
theorem le16_toBitVec (m : View) (p : Nat) :
    (m.le16 p).toBitVec = low (m p) ^^^ high (m (p + 1)) := by
  have hor : m.le16 p = (m p).toUInt16 ||| ((m (p + 1)).toUInt16 <<< 8) :=
    (Receiver.or_shift_eq (m p) (m (p + 1))).symm
  have hbits : (m.le16 p).toBitVec = low (m p) ||| high (m (p + 1)) := by
    rw [hor]
    rfl
  rw [hbits]
  apply BitVec.eq_of_getLsbD_eq
  intro i _
  rw [BitVec.getLsbD_or, BitVec.getLsbD_xor]
  by_cases h8 : i < 8
  · rw [high_getLsbD _ h8, Bool.or_false, Bool.xor_false]
  · rw [low_getLsbD _ (not_lt.mp h8), Bool.false_or, Bool.false_xor]

/-! ## Syndromes -/

/-- One byte changed. -/
def xorAt (k : Nat) (d : UInt8) (g : Bytes) : Bytes := g.modify k (· ^^^ d)

@[simp] theorem xorAt_length (k : Nat) (d : UInt8) (g : Bytes) : (xorAt k d g).length = g.length :=
  List.length_modify ..

theorem xorAt_view (k : Nat) (d : UInt8) {g : Bytes} {i : Nat} (hi : i < g.length) :
    (xorAt k d g).view i = if k = i then g.view i ^^^ d else g.view i := by
  unfold xorAt Bytes.view
  rw [List.getD_eq_getElem?_getD, List.getD_eq_getElem?_getD, List.getElem?_modify,
    List.getElem?_eq_getElem hi]
  by_cases h : k = i <;> simp [h]

/-- The CRC computed over all but the last two bytes, exclusive or the one stored in them. -/
def syndrome (g : Bytes) : BitVec 16 :=
  (satCrc16 g.view (UInt16.ofNat (g.length - 2))).toBitVec ^^^
    (g.view.le16 (g.length - 2)).toBitVec

/-- What a change of byte `k` does to the syndrome, `n` bytes being in front of the CRC. -/
def spread (n k : Nat) (d : UInt8) : BitVec 16 :=
  if k < n then (Crc.shift crcPoly)^[8 * (n - k)] (high d) else if k = n then low d else high d

/-- The CRC of the first `n` bytes. -/
theorem satCrc16_toBitVec {g : Bytes} {n : Nat} (hn : n < 65536) (hle : n ≤ g.length) :
    (satCrc16 g.view (UInt16.ofNat n)).toBitVec =
      Crc.crc crcPoly 8 0xFFFF#16 ((g.take n).map high) := by
  have hlen : (UInt16.ofNat n).toNat = n := by rw [UInt16.toNat_ofNat', Nat.mod_eq_of_lt hn]
  unfold satCrc16
  rw [hlen, View.slice_view g (by omega), List.drop_zero, foldl_crcByte_toBitVec]
  rfl

theorem crc_xorAt {g : Bytes} {n k : Nat} (d : UInt8) (hle : n ≤ g.length) :
    Crc.crc crcPoly 8 0xFFFF#16 (((xorAt k d g).take n).map high) =
      Crc.crc crcPoly 8 0xFFFF#16 ((g.take n).map high) ^^^
        if k < n then (Crc.shift crcPoly)^[8 * (n - k)] (high d) else 0#16 := by
  have hmodify : ((xorAt k d g).take n).map high =
      ((g.take n).map high).modify k (· ^^^ high d) := by
    apply List.ext_getElem?
    intro i
    simp only [xorAt, List.getElem?_map, List.getElem?_take, List.getElem?_modify]
    by_cases hi : i < n
    · simp only [if_pos hi]
      cases g[i]? with
      | none => rfl
      | some b => by_cases hk : k = i <;> simp [hk, high_xor]
    · simp [if_neg hi]
  have hlen : ((g.take n).map high).length = n := by
    rw [List.length_map, List.length_take, Nat.min_eq_left hle]
  rw [hmodify]
  by_cases hk : k < n
  · rw [if_pos hk, Crc.crc_xorAt crcPoly 8 _ _ (by rw [hlen]; exact hk), hlen]
  · rw [if_neg hk, BitVec.xor_zero, List.modify_eq_self (by rw [hlen]; omega)]

theorem le16_xorAt {g : Bytes} {n k : Nat} (d : UInt8) (hlen : g.length = n + 2) (hk : k < n + 2) :
    ((xorAt k d g).view.le16 n).toBitVec = (g.view.le16 n).toBitVec ^^^
      if k < n then 0#16 else if k = n then low d else high d := by
  rw [le16_toBitVec, le16_toBitVec, xorAt_view k d (by omega), xorAt_view k d (by omega)]
  rcases Nat.lt_trichotomy k n with h | rfl | h
  · rw [if_neg (by omega), if_neg (by omega), if_pos h, BitVec.xor_zero]
  · rw [if_pos rfl, if_neg (by omega), if_neg (by omega), if_pos rfl, low_xor,
      Crc.xor_right_comm]
  · rw [if_neg (by omega), if_pos (by omega), if_neg (by omega), if_neg (by omega), high_xor,
      BitVec.xor_assoc]

theorem syndrome_xorAt {g : Bytes} {n k : Nat} (d : UInt8) (hlen : g.length = n + 2)
    (hn : n < 65536) (hk : k < n + 2) :
    syndrome (xorAt k d g) = syndrome g ^^^ spread n k d := by
  unfold syndrome
  rw [xorAt_length, hlen, Nat.add_sub_cancel,
    satCrc16_toBitVec hn (by rw [xorAt_length]; omega), satCrc16_toBitVec hn (by omega),
    crc_xorAt d (by omega), le16_xorAt d hlen hk]
  unfold spread
  by_cases h : k < n
  · rw [if_pos h, if_pos h, if_pos h, BitVec.xor_zero, Crc.xor_right_comm]
  · rw [if_neg h, if_neg h, if_neg h, BitVec.xor_zero, BitVec.xor_assoc]

/-! ## What the receiver makes of a frame -/

/-- Wherever the string arrives between frames, the receiver reports a wrong CRC and nothing
else. -/
def Rejected (g : Bytes) : Prop := ∀ (r : Receiver) (s : List Stamped), r.Ready →
  s.map Prod.snd = g → ∃ crcRx crcCalc, r.events s = [.crcMismatch crcRx crcCalc]

/-- The check compares the two CRCs of the syndrome. -/
theorem syndrome_eq_zero {g : Bytes} (hg : WellFramed g) : syndrome g = 0#16 ↔
    g.view.le16 (8 + (SatHeader.read g.view).payloadLen.toNat) =
      satCrc16 g.view (UInt16.ofNat (8 + (SatHeader.read g.view).payloadLen.toNat)) := by
  have hlen := hg.length
  unfold syndrome
  rw [BitVec.xor_eq_zero_iff, UInt16.toBitVec_inj, hlen,
    show 10 + (SatHeader.read g.view).payloadLen.toNat - 2 =
      8 + (SatHeader.read g.view).payloadLen.toNat by omega]
  exact eq_comm

theorem rejected_iff {g : Bytes} (hg : WellFramed g) : Rejected g ↔ syndrome g ≠ 0#16 := by
  have hne : g ≠ [] := List.ne_nil_of_length_pos (by rw [hg.length]; omega)
  rw [Ne, syndrome_eq_zero hg]
  constructor
  · intro h hcrc
    -- from reset the frame is accepted
    have hstamps : ((g.map fun b => ((0 : UInt32), b))).map Prod.snd = g := by
      rw [List.map_map]
      exact List.map_id g
    obtain ⟨s, i, hsi⟩ := (List.eq_nil_or_concat (g.map fun b => ((0 : UInt32), b))).resolve_left
      (by simpa using hne)
    rw [List.concat_eq_append] at hsi
    have hrun := Receiver.run_frame (r := Receiver.reset) (by decide) s i
      (by rw [← hsi, hstamps]) hg
    rw [Receiver.processFrame_match hg.length hg.fits i.1 hcrc] at hrun
    obtain ⟨crcRx, crcCalc, hevents⟩ := h Receiver.reset _ (by decide) hstamps
    rw [hsi, Receiver.events, hrun.2] at hevents
    cases hevents
  · intro hcrc r s hr hs
    obtain ⟨s, i, rfl⟩ := (List.eq_nil_or_concat s).resolve_left
      (by rintro rfl; exact hne hs.symm)
    rw [List.concat_eq_append] at hs ⊢
    have hrun := Receiver.run_frame hr s i hs hg
    rw [Receiver.processFrame_mismatch hg.length hg.fits i.1 hcrc] at hrun
    exact ⟨_, _, hrun.2⟩

/-- A frame as it was built has no syndrome. -/
theorem Message.syndrome_frame (m : Message) : syndrome m.frame = 0#16 := by
  rw [syndrome_eq_zero m.wellFramed, m.read_frame]
  show m.frame.view.le16 (8 + m.payloadLen.toNat) =
    satCrc16 m.frame.view (UInt16.ofNat (8 + m.payloadLen.toNat))
  rw [m.payloadLen_toNat, m.frame_crc, m.crc_frame]

/-- The bytes that framing reads: magic, version and length. -/
def framing : List Nat := [0, 1, 2, 4, 5]

theorem framing_le {i : Nat} (hi : i ∈ framing) : i ≤ 5 := by
  revert i
  decide

/-- A change elsewhere does not disturb the framing. -/
theorem WellFramed.xorAt {g : Bytes} (hg : WellFramed g) {k : Nat} (hk : k ∉ framing) (d : UInt8) :
    WellFramed (xorAt k d g) := by
  have hlen := hg.length
  have hsame : ∀ i ∈ framing, (Satellite.xorAt k d g).view i = g.view i := by
    intro i hi
    have hlt : i < g.length := by
      have := framing_le hi
      omega
    rw [xorAt_view k d hlt, if_neg (by rintro rfl; exact hk hi)]
  have hm : (SatHeader.read (Satellite.xorAt k d g).view).magic =
      (SatHeader.read g.view).magic := by
    show View.le16 _ 0 = View.le16 _ 0
    unfold View.le16
    rw [hsame 0 (by decide), hsame 1 (by decide)]
  have hl : (SatHeader.read (Satellite.xorAt k d g).view).payloadLen =
      (SatHeader.read g.view).payloadLen := by
    show View.le16 _ 4 = View.le16 _ 4
    unfold View.le16
    rw [hsame 4 (by decide), hsame 5 (by decide)]
  exact ⟨hm.trans hg.magic, (hsame 2 (by decide)).trans hg.version, by rw [hl]; exact hg.fits,
    by rw [hl, xorAt_length]; exact hg.length⟩

theorem Message.frame_length_body (m : Message) : m.frame.length = m.body.length + 2 := by
  rw [m.frame_length, m.body_length]
  omega

theorem Message.body_length_lt (m : Message) : m.body.length < 65536 := by
  have := m.fits'
  rw [m.body_length]
  omega

/-! ## Two neighbouring bytes -/

/-- The register after one byte has a clear low half for no byte but zero, and a clear high half
for one more. -/
theorem shifted_halves (d : UInt8) :
    (((Crc.shift crcPoly)^[8] (high d)).setWidth 8 = 0#8 → d = 0) ∧
      ((Crc.shift crcPoly)^[8] (high d) >>> 8 = 0#16 → d = 0 ∨ d = 0x89) :=
  forall_byte (P := fun d => (((Crc.shift crcPoly)^[8] (high d)).setWidth 8 = 0#8 → d = 0) ∧
    ((Crc.shift crcPoly)^[8] (high d) >>> 8 = 0#16 → d = 0 ∨ d = 0x89)) (by decide +kernel) d

theorem low_toNat (d : UInt8) : (low d).toNat = d.toNat := by
  rw [low, BitVec.toNat_setWidth, UInt8.toNat_toBitVec]
  exact Nat.mod_eq_of_lt (d.toNat_lt.trans (by decide))

theorem low_eq_zero {d : UInt8} : low d = 0#16 ↔ d = 0 := by
  refine ⟨fun h => ?_, by rintro rfl; rfl⟩
  have hnat := congrArg BitVec.toNat h
  rw [low_toNat] at hnat
  exact UInt8.toNat_inj.mp hnat

theorem high_eq_zero {d : UInt8} : high d = 0#16 ↔ d = 0 := by
  refine ⟨fun h => low_eq_zero.mp ?_, by rintro rfl; rfl⟩
  apply BitVec.eq_of_getLsbD_eq
  intro i hi
  by_cases h8 : i < 8
  · have hbit := congrArg (BitVec.getLsbD · (i + 8)) h
    simp only [high, BitVec.getLsbD_shiftLeft, BitVec.getLsbD_zero] at hbit
    rw [BitVec.getLsbD_zero, low]
    simpa [h8, show i + 8 < 16 by omega] using hbit
  · rw [low_getLsbD d (not_lt.mp h8), BitVec.getLsbD_zero]

theorem low_injective {a b : UInt8} (h : low a = low b) : a = b := by
  rw [← BitVec.xor_eq_zero_iff, ← low_xor, low_eq_zero] at h
  exact UInt8.xor_eq_zero_iff.mp h

/-- The two halves of the register are apart. -/
theorem low_eq_high {a b : UInt8} : low a = high b ↔ a = 0 ∧ b = 0 := by
  constructor
  · intro h
    have hzero : low a = 0#16 := by
      apply BitVec.eq_of_getLsbD_eq
      intro i _
      rw [BitVec.getLsbD_zero]
      by_cases h8 : i < 8
      · rw [h, high_getLsbD b h8]
      · rw [low_getLsbD a (not_lt.mp h8)]
    exact ⟨low_eq_zero.mp hzero, high_eq_zero.mp (h.symm.trans hzero)⟩
  · rintro ⟨rfl, rfl⟩
    rfl

/-- A byte behind the other: the register sees sixteen bits in a row. -/
theorem shifted_eq_high {a b : UInt8} :
    (Crc.shift crcPoly)^[8] (high a) = high b ↔ a = 0 ∧ b = 0 := by
  constructor
  · intro h
    have hlow : ((Crc.shift crcPoly)^[8] (high a)).setWidth 8 = 0#8 := by
      rw [h]
      apply BitVec.eq_of_getLsbD_eq
      intro i hi
      rw [BitVec.getLsbD_setWidth, high_getLsbD b hi, Bool.and_false, BitVec.getLsbD_zero]
    obtain rfl := (shifted_halves a).1 hlow
    exact ⟨rfl, high_eq_zero.mp (h.symm.trans (Crc.iterate_zero crcPoly 8))⟩
  · rintro ⟨rfl, rfl⟩
    exact Crc.iterate_zero crcPoly 8

/-- The low byte of the CRC behind the last byte in front of it. -/
theorem shifted_eq_low {a b : UInt8} : (Crc.shift crcPoly)^[8] (high a) = low b ↔
    (a = 0 ∧ b = 0) ∨ (a = 0x89 ∧ b = 0xA1) := by
  have hmissed : (Crc.shift crcPoly)^[8] (high 0x89) = low 0xA1 := by decide +kernel
  constructor
  · intro h
    have hhigh : (Crc.shift crcPoly)^[8] (high a) >>> 8 = 0#16 := by
      rw [h]
      apply BitVec.eq_of_getLsbD_eq
      intro i _
      rw [BitVec.getLsbD_ushiftRight, low_getLsbD b (by omega), BitVec.getLsbD_zero]
    rcases (shifted_halves a).2 hhigh with rfl | rfl
    · exact .inl ⟨rfl, low_eq_zero.mp (h.symm.trans (Crc.iterate_zero crcPoly 8))⟩
    · rw [hmissed] at h
      exact .inr ⟨rfl, (low_injective h).symm⟩
  · rintro (⟨rfl, rfl⟩ | ⟨rfl, rfl⟩)
    · exact Crc.iterate_zero crcPoly 8
    · exact hmissed

/-- What two neighbouring bytes do to the syndrome together. -/
theorem spread_neighbours {n k : Nat} (hk : k < n + 1) (a b : UInt8) :
    spread n k a ^^^ spread n (k + 1) b = 0#16 ↔
      (a = 0 ∧ b = 0) ∨ (k + 1 = n ∧ a = 0x89 ∧ b = 0xA1) := by
  rw [BitVec.xor_eq_zero_iff]
  unfold spread
  rcases Nat.lt_trichotomy (k + 1) n with h | h | h
  · rw [if_pos (by omega), if_pos h, show 8 * (n - k) = 8 * (n - (k + 1)) + 8 by omega,
      Function.iterate_add_apply, (Crc.iterate_injective crcPoly_low _).eq_iff, shifted_eq_high]
    exact (or_iff_left fun hn => by omega).symm
  · rw [if_pos (by omega), if_neg (by omega), if_pos h, show 8 * (n - k) = 8 by omega,
      shifted_eq_low, and_iff_right h]
  · rw [if_neg (by omega), if_pos (by omega), if_neg (by omega), if_neg (by omega), low_eq_high]
    exact (or_iff_left fun hn => by omega).symm

/-- The frame with two neighbouring bytes changed. -/
def burst (m : Message) (k : Nat) (a b : UInt8) : Bytes := xorAt (k + 1) b (xorAt k a m.frame)

/-- Behind the header's length a burst leaves the framing alone. -/
theorem burst_wellFramed (m : Message) {k : Nat} (hk : 6 ≤ k) (a b : UInt8) :
    WellFramed (burst m k a b) := by
  have hfree : ∀ i, 6 ≤ i → i ∉ framing := fun i hi h => by
    have := framing_le h
    omega
  exact (m.wellFramed.xorAt (hfree k hk) a).xorAt (hfree (k + 1) (by omega)) b

theorem syndrome_burst (m : Message) {k : Nat} (hend : k + 1 < m.frame.length) (a b : UInt8) :
    syndrome (burst m k a b) = spread m.body.length k a ^^^ spread m.body.length (k + 1) b := by
  rw [m.frame_length_body] at hend
  unfold burst
  rw [syndrome_xorAt b (by rw [xorAt_length, m.frame_length_body]) m.body_length_lt hend,
    syndrome_xorAt a m.frame_length_body m.body_length_lt (by omega), m.syndrome_frame,
    BitVec.zero_xor]

/-- **Two neighbouring bytes**: every change to them is found, but for one to the last byte in
front of the CRC and the CRC's first byte. -/
theorem burst_rejected_iff (m : Message) {k : Nat} {a b : UInt8} (hk : 6 ≤ k)
    (hend : k + 1 < m.frame.length) (hab : ¬ (a = 0 ∧ b = 0)) :
    Rejected (burst m k a b) ↔ ¬ (k + 1 = m.body.length ∧ a = 0x89 ∧ b = 0xA1) := by
  have hlen := m.frame_length_body
  rw [rejected_iff (burst_wellFramed m hk a b), syndrome_burst m hend, Ne,
    spread_neighbours (by omega), or_iff_right hab]

/-- The heartbeat's message type, no payload: the sequence number's bytes are found. -/
theorem burst_rejected_heartbeat :
    Rejected (burst ⟨satMsgHeartbeat, [], 7, by decide⟩ 6 0xFF 0x01) ↔
      ¬ (6 + 1 = (Message.body ⟨satMsgHeartbeat, [], 7, by decide⟩).length ∧
        (0xFF : UInt8) = 0x89 ∧ (0x01 : UInt8) = 0xA1) :=
  burst_rejected_iff _ (by decide) (by decide) (by decide)

/-- The sequence number's high byte and the CRC's low byte: the frame is accepted. -/
theorem burst_missed : ¬ ∀ (m : Message) (k : Nat) (a b : UInt8), 6 ≤ k →
    k + 1 < m.frame.length → ¬ (a = 0 ∧ b = 0) → Rejected (burst m k a b) := by
  intro h
  have hrej := h ⟨satMsgHeartbeat, [], 7, by decide⟩ 7 0x89 0xA1 (by decide)
    (by rw [Message.frame_length]; decide) (by decide)
  rw [rejected_iff (burst_wellFramed _ (by decide) _ _),
    syndrome_burst _ (by rw [Message.frame_length]; decide)] at hrej
  exact hrej ((spread_neighbours (by rw [Message.body_length]; decide) _ _).mpr
    (.inr ⟨rfl, rfl, rfl⟩))

/-! ## Single bits -/

/-- A bit of a byte string: which byte and which bit of it. -/
abbrev BitPos := Nat × Fin 8

/-- The byte with this bit alone. -/
def bitOf (i : Fin 8) : UInt8 := 1 <<< UInt8.ofNat i

def flipBit (g : Bytes) (p : BitPos) : Bytes := xorAt p.1 (bitOf p.2) g

/-- The bits flipped one after the other. -/
def flipBits (g : Bytes) (ps : List BitPos) : Bytes := ps.foldl flipBit g

/-- The power of the register that stands for a bit, `n` bytes being in front of the CRC. -/
def exponent (n : Nat) (p : BitPos) : Nat :=
  if p.1 < n then 8 * (n - p.1) + 8 + p.2 else if p.1 = n then p.2 else 8 + p.2

theorem high_bitOf (i : Fin 8) : high (bitOf i) = Crc.power crcPoly (8 + i) := by
  have hbit : high (bitOf i) = BitVec.twoPow 16 (8 + i) := by revert i; decide
  rw [hbit, Crc.twoPow_eq_power (by omega)]

theorem low_bitOf (i : Fin 8) : low (bitOf i) = Crc.power crcPoly i := by
  have hbit : low (bitOf i) = BitVec.twoPow 16 i := by revert i; decide
  rw [hbit, Crc.twoPow_eq_power (by omega)]

/-- In front of the CRC and in either of its bytes, a bit stands for one power. -/
theorem spread_bit (n : Nat) (p : BitPos) :
    spread n p.1 (bitOf p.2) = Crc.power crcPoly (exponent n p) := by
  unfold spread exponent
  split
  · rw [high_bitOf, Crc.iterate_power, Nat.add_assoc]
  · split
    · exact low_bitOf p.2
    · exact high_bitOf p.2

/-- Different bits stand for different powers. -/
theorem exponent_inj {n : Nat} {p q : BitPos} (hp : p.1 < n + 2) (hq : q.1 < n + 2)
    (h : exponent n p = exponent n q) : p = q := by
  obtain ⟨k, i, hi⟩ := p
  obtain ⟨l, j, hj⟩ := q
  have hkl : k = l ∧ i = j := by
    simp only [exponent] at h
    grind
  obtain ⟨rfl, rfl⟩ := hkl
  rfl

theorem WellFramed.flipBits {g : Bytes} (hg : WellFramed g) {ps : List BitPos}
    (hps : ∀ p ∈ ps, p.1 ∉ framing) : WellFramed (flipBits g ps) := by
  induction ps generalizing g with
  | nil => exact hg
  | cons p ps ih =>
    rw [List.forall_mem_cons] at hps
    exact ih (hg.xorAt hps.1 _) hps.2

/-- The powers of the flipped bits, added up. -/
theorem syndrome_flipBits {g : Bytes} {n : Nat} (hlen : g.length = n + 2) (hn : n < 65536)
    {ps : List BitPos} (hps : ∀ p ∈ ps, p.1 < n + 2) : syndrome (flipBits g ps) =
      (ps.map (exponent n)).foldl (fun v e => v ^^^ Crc.power crcPoly e) (syndrome g) := by
  induction ps generalizing g with
  | nil => rfl
  | cons p ps ih =>
    rw [List.forall_mem_cons] at hps
    have hone : syndrome (flipBit g p) = syndrome g ^^^ Crc.power crcPoly (exponent n p) := by
      rw [flipBit, syndrome_xorAt _ hlen hn hps.1, spread_bit]
    have hrest := ih (g := flipBit g p) ((xorAt_length ..).trans hlen) hps.2
    rw [hone] at hrest
    exact hrest

/-- Every bit counts once for the parity. -/
theorem parity_powers (es : List Nat) (v : BitVec 16) :
    Crc.parity (es.foldl (fun v e => v ^^^ Crc.power crcPoly e) v) =
      (Crc.parity v ^^ decide (Odd es.length)) := by
  induction es generalizing v with
  | nil => simp
  | cons e es ih =>
    have hone : Crc.parity (Crc.power crcPoly e) = true := by
      rw [Crc.power, Crc.parity_iterate crcPoly_parity]
      rfl
    rw [List.foldl_cons, ih, Crc.parity_xor, hone]
    by_cases h : Odd es.length <;> simp [h, Nat.odd_add_one]

/-- The bits of a frame, its first three bytes apart, stay below the register's order. -/
theorem exponent_le {n : Nat} (hn : n ≤ 254) {p : BitPos} (hp : 3 ≤ p.1) : exponent n p ≤ 2047 := by
  have hbit := p.2.isLt
  unfold exponent
  split
  · omega
  · split <;> omega

/-- **Scattered bits**: an odd number of them, or two at any distance, are found. -/
theorem flips_rejected (m : Message) {ps : List BitPos} (hnodup : ps.Nodup)
    (hps : ∀ p ∈ ps, p.1 < m.frame.length ∧ p.1 ∉ framing)
    (hsize : Odd ps.length ∨ ps.length = 2) : Rejected (flipBits m.frame ps) := by
  have hlen := m.frame_length_body
  have hin : ∀ p ∈ ps, p.1 < m.body.length + 2 := fun p hp => hlen ▸ (hps p hp).1
  have hfit : m.body.length ≤ 254 := by
    have := m.fits'
    rw [m.body_length]
    omega
  rw [rejected_iff (m.wellFramed.flipBits fun p hp => (hps p hp).2),
    syndrome_flipBits hlen m.body_length_lt hin, m.syndrome_frame]
  rcases hsize with hodd | htwo
  · -- the syndrome's parity is odd
    intro hzero
    have hparity := parity_powers (ps.map (exponent m.body.length)) 0#16
    rw [hzero, List.length_map, decide_eq_true hodd, Crc.parity_zero] at hparity
    cases hparity
  · obtain ⟨p, q, rfl⟩ := List.length_eq_two.mp htwo
    have hne : p ≠ q := fun h => by simp [h] at hnodup
    intro hzero
    simp only [List.map_cons, List.map_nil, List.foldl_cons, List.foldl_nil, BitVec.zero_xor,
      BitVec.xor_eq_zero_iff] at hzero
    have hle : ∀ p' ∈ [p, q], exponent m.body.length p' ≤ 2047 := by
      intro p' hp'
      have hfree := (hps p' hp').2
      simp only [framing, List.mem_cons, List.not_mem_nil, or_false, not_or] at hfree
      exact exponent_le hfit (by omega)
    exact hne (exponent_inj (hin p (by simp)) (hin q (by simp))
      (Crc.power_inj crcPoly_low crcPoly_order (hle p (by simp)) (hle q (by simp)) hzero))

/-- The message type's lowest bit and the CRC's highest. -/
theorem flips_rejected_heartbeat :
    Rejected (flipBits (Message.frame ⟨satMsgHeartbeat, [1, 2, 3, 4], 7, by decide⟩)
      [(3, 0), (13, 7)]) :=
  flips_rejected _ (by decide) (by rw [Message.frame_length]; decide) (.inr rfl)

end NetMon.Satellite
