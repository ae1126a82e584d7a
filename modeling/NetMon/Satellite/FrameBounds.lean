import NetMon.Satellite.Receiver

/-!
# The receiver's buffer

`PosOk` ties the position in `s_frame_buf` to the state and the announced payload
length; every byte keeps it, whatever it is (`posOk_feedByte`). `writes` and `reads`
list the buffer indices one `feed_byte` call touches, `process_frame` and the
snapshot update behind it included: nothing else changes (`feedByte_frame`) and
nothing else matters (`feedByte_congr`). Under `PosOk` all of them are inside the
buffer, and since the position moves on with every byte that does not end in
(SYNC, pos 0), 256 bytes cannot avoid it.
-/

namespace NetMon.Satellite.Receiver

open NetMon.Lib

/-- Where `s_frame_pos` stands in each state. -/
structure PosOk (r : Receiver) : Prop where
  sync : r.state = .sync → r.framePos = 0 ∨ r.framePos = 1
  header : r.state = .header → 2 ≤ r.framePos ∧ r.framePos < 8
  payload : r.state = .payload → 8 ≤ r.framePos ∧
    r.framePos < 8 + r.header.payloadLen.toNat ∧ r.header.payloadLen.toNat ≤ 246
  crc : r.state = .crc → 8 + r.header.payloadLen.toNat ≤ r.framePos ∧
    r.framePos < 10 + r.header.payloadLen.toNat ∧ r.header.payloadLen.toNat ≤ 246

variable {r : Receiver} {i : Stamped}

theorem Ready.posOk (h : r.Ready) : r.PosOk := by
  obtain ⟨hs, hp⟩ := h
  constructor <;> intro hst <;> simp_all

theorem posOk_of_header (hs : r.state = .header) (h : 2 ≤ r.framePos ∧ r.framePos < 8) :
    r.PosOk := by
  constructor <;> intro hst <;> simp_all

theorem posOk_of_payload (hs : r.state = .payload) (h : 8 ≤ r.framePos ∧
    r.framePos < 8 + r.header.payloadLen.toNat ∧ r.header.payloadLen.toNat ≤ 246) : r.PosOk := by
  constructor <;> intro hst <;> simp_all

theorem posOk_of_crc (hs : r.state = .crc) (h : 8 + r.header.payloadLen.toNat ≤ r.framePos ∧
    r.framePos < 10 + r.header.payloadLen.toNat ∧ r.header.payloadLen.toNat ≤ 246) : r.PosOk := by
  constructor <;> intro hst <;> simp_all

theorem posOk_reset : reset.PosOk := Ready.posOk ⟨rfl, rfl⟩

theorem PosOk.framePos_lt (h : r.PosOk) : r.framePos < 256 := by
  cases hst : r.state with
  | sync =>
    rcases h.sync hst with h0 | h1
    · omega
    · omega
  | header => have := h.header hst; omega
  | payload => have := h.payload hst; omega
  | crc => have := h.crc hst; omega

/-! ## One byte -/

/-- The receiver starts over, or its position moves on by one within its bounds. -/
def Moves (r r' : Receiver) : Prop := r'.Ready ∨ (r'.PosOk ∧ r'.framePos = r.framePos + 1)

theorem moves_sync (hst : r.state = .sync) (i : Stamped) : Moves r (feedByte r i).1 := by
  obtain ⟨now, b⟩ := i
  simp only [feedByte, hst]
  split
  · rename_i h0
    exact .inr ⟨by constructor <;> simp, by simp [h0.1]⟩
  · split
    · rename_i h1
      exact .inr ⟨by constructor <;> simp, by simp [h1.1]⟩
    · exact .inl ⟨rfl, rfl⟩

theorem moves_header (hst : r.state = .header) (hpos : 2 ≤ r.framePos ∧ r.framePos < 8)
    (i : Stamped) : Moves r (feedByte r i).1 := by
  obtain ⟨now, b⟩ := i
  simp only [feedByte, hst]
  split
  · split
    · exact .inl ⟨rfl, rfl⟩
    · rename_i hge hok
      -- an acceptable header announces a payload that fits
      have hge' : 8 ≤ r.framePos + 1 := hge
      have hfit : (SatHeader.read (r.frameBuf.put r.framePos b).view).payloadLen.toNat ≤ 246 :=
        Nat.le_of_not_lt fun hgt => hok (.inr hgt)
      split
      · rename_i hzero
        have hz := congrArg UInt16.toNat hzero
        refine .inr ⟨posOk_of_crc rfl ?_, rfl⟩
        simp only [UInt16.toNat_zero] at hz ⊢
        omega
      · rename_i hzero
        have hne : (SatHeader.read (r.frameBuf.put r.framePos b).view).payloadLen.toNat ≠ 0 :=
          fun hz => hzero (UInt16.toNat_inj.mp hz)
        refine .inr ⟨posOk_of_payload rfl ?_, rfl⟩
        dsimp only
        omega
  · rename_i hlt
    simp only [sizeofHeader] at hlt
    refine .inr ⟨posOk_of_header rfl ?_, rfl⟩
    dsimp only
    omega

theorem moves_payload (hst : r.state = .payload) (hpos : 8 ≤ r.framePos ∧
    r.framePos < 8 + r.header.payloadLen.toNat ∧ r.header.payloadLen.toNat ≤ 246) (i : Stamped) :
    Moves r (feedByte r i).1 := by
  obtain ⟨now, b⟩ := i
  simp only [feedByte, hst]
  split
  · rename_i hge
    simp only [sizeofHeader] at hge
    refine .inr ⟨posOk_of_crc rfl ?_, rfl⟩
    dsimp only
    omega
  · rename_i hlt
    simp only [sizeofHeader] at hlt
    refine .inr ⟨posOk_of_payload rfl ?_, rfl⟩
    dsimp only
    omega

theorem moves_crc (hst : r.state = .crc) (hpos : 8 + r.header.payloadLen.toNat ≤ r.framePos ∧
    r.framePos < 10 + r.header.payloadLen.toNat ∧ r.header.payloadLen.toNat ≤ 246) (i : Stamped) :
    Moves r (feedByte r i).1 := by
  obtain ⟨now, b⟩ := i
  simp only [feedByte, hst]
  split
  · exact .inl ⟨rfl, rfl⟩
  · rename_i hlt
    simp only [sizeofHeader] at hlt
    refine .inr ⟨posOk_of_crc rfl ?_, rfl⟩
    dsimp only
    omega

/-- Every byte ends in (SYNC, pos 0) or moves the position on by one within its bounds. -/
theorem PosOk.feedByte (h : r.PosOk) (i : Stamped) : Moves r (feedByte r i).1 := by
  cases hst : r.state with
  | sync => exact moves_sync hst i
  | header => exact moves_header hst (h.header hst) i
  | payload => exact moves_payload hst (h.payload hst) i
  | crc => exact moves_crc hst (h.crc hst) i

theorem posOk_feedByte (h : r.PosOk) (i : Stamped) : (feedByte r i).1.PosOk := by
  rcases h.feedByte i with hr | ⟨hp, _⟩
  · exact hr.posOk
  · exact hp

/-- The position stays within its bounds on every stream. -/
theorem posOk_feed (s : List Stamped) : (feed reset s).PosOk :=
  machine.exec_inv (P := PosOk) (fun _ i h => posOk_feedByte h i) posOk_reset s

/-! ## The buffer indices a byte touches -/

/-- The indices `feed_byte` stores at. -/
def writes (r : Receiver) (b : UInt8) : List Nat :=
  match r.state with
  | .sync =>
    if r.framePos = 0 ∧ b = (satProtoMagic &&& 0xFF).toUInt8 then [0]
    else if r.framePos = 1 ∧ b = (satProtoMagic >>> 8).toUInt8 then [1]
    else []
  | .header | .payload | .crc => [r.framePos]

/-- The indices a snapshot update reads through the pointer behind the header, for the
interface count `n` it finds there. -/
def snapshotReads (n : UInt8) : List Nat := (List.range (snapshotReach n)).map (sizeofHeader + ·)

/-- The indices `process_frame` reads: the stored CRC, the bytes it is computed over and,
for an accepted snapshot, those of the update. -/
def processReads (r : Receiver) : List Nat :=
  [r.expectedLen.toNat, r.expectedLen.toNat + 1] ++ List.range r.expectedLen.toNat ++
    if r.crcRx = r.crcCalc ∧ r.header.msgType = satMsgSnapshot then
      snapshotReads (r.frameBuf.view (sizeofHeader + 9))
    else []

/-- `s_frame_buf[s_frame_pos++] = b`. -/
def store (r : Receiver) (b : UInt8) : Receiver :=
  { r with frameBuf := r.frameBuf.put r.framePos b, framePos := r.framePos + 1 }

/-- The indices `feed_byte` reads, after its store. -/
def reads (r : Receiver) (b : UInt8) : List Nat :=
  match r.state with
  | .sync | .payload => []
  | .header => if r.framePos + 1 ≥ sizeofHeader then List.range sizeofHeader else []
  | .crc =>
    if r.framePos + 1 ≥ sizeofHeader + r.header.payloadLen.toNat + 2 then (r.store b).processReads
    else []

/-- A byte changes the buffer at no other index. -/
theorem feedByte_frame (r : Receiver) (i : Stamped) {k : Nat} (hk : k ∉ r.writes i.2) :
    (feedByte r i).1.frameBuf.view k = r.frameBuf.view k := by
  obtain ⟨now, b⟩ := i
  have hput : ∀ p, k ≠ p → (r.frameBuf.put p b).view k = r.frameBuf.view k := fun p hne => by
    unfold Buf.view Buf.put
    rw [Vector.getElem?_setIfInBounds_ne (Ne.symm hne)]
  cases hst : r.state with
  | sync =>
    simp only [writes, hst] at hk
    simp only [feedByte, hst]
    split
    · rename_i h0
      rw [if_pos h0, List.mem_singleton] at hk
      exact hput 0 hk
    · rename_i h0
      rw [if_neg h0] at hk
      split
      · rename_i h1
        rw [if_pos h1, List.mem_singleton] at hk
        exact hput 1 hk
      · rfl
  | header | payload | crc =>
    simp only [writes, hst, List.mem_singleton] at hk
    simp only [feedByte, hst, processFrame]
    repeat' split
    all_goals exact hput _ hk

/-- `r` with another frame buffer. -/
abbrev withBuf (r : Receiver) (buf : Buf 256) : Receiver := { r with frameBuf := buf }

theorem expectedLen_toNat (h : r.header.payloadLen.toNat ≤ 246) :
    r.expectedLen.toNat = 8 + r.header.payloadLen.toNat := by
  unfold expectedLen sizeofHeader
  rw [UInt16.toNat_ofNat', Nat.mod_eq_of_lt (by omega)]

/-- What `process_frame` does depends only on the bytes it reads. -/
theorem processFrame_congr {buf : Buf 256} (now : UInt32) (hfit : r.header.payloadLen.toNat ≤ 246)
    (h : ∀ k ∈ r.processReads, r.frameBuf.view k = buf.view k) :
    processFrame now (r.withBuf buf) =
      ((processFrame now r).1.withBuf buf, (processFrame now r).2) := by
  have hlen := expectedLen_toNat hfit
  have hread : ∀ k < r.expectedLen.toNat + 2, r.frameBuf.view k = buf.view k := fun k hk => by
    refine h k (List.mem_append_left _ ?_)
    simp only [List.cons_append, List.nil_append, List.mem_cons, List.mem_range]
    omega
  have hrx : (r.withBuf buf).crcRx = r.crcRx := by
    unfold crcRx
    rw [hread _ (by omega), hread _ (by omega)]
    rfl
  have hcalc : (r.withBuf buf).crcCalc = r.crcCalc :=
    satCrc16_congr fun k _ hk => (hread k (by change k < r.expectedLen.toNat at hk; omega)).symm
  unfold processFrame
  rw [hrx, hcalc]
  split
  · rfl
  · rename_i hcrc
    have hpl : buf.view.slice sizeofHeader r.header.payloadLen.toNat =
        r.frameBuf.view.slice sizeofHeader r.header.payloadLen.toNat :=
      View.slice_congr fun k _ hk => (hread k (by unfold sizeofHeader at hk; omega)).symm
    simp only [hpl]
    split
    · rename_i hsnap
      have hagree : View.Agree (r.frameBuf.view.shift sizeofHeader) (buf.view.shift sizeofHeader) 0
          (snapshotReach (r.frameBuf.view.shift sizeofHeader 9)) :=
        fun k _ hk => h (sizeofHeader + k) <| List.mem_append_right _ <| by
          rw [if_pos ⟨not_not.mp hcrc, hsnap⟩]
          exact List.mem_map_of_mem (List.mem_range.mpr hk)
      have hcong := satDataUpdateSnapshot_congr (satDataMarkAlive r.data now r.header.sequence)
        hagree
      rw [hcong]
    · rfl

/-- What a byte does depends only on the indices it reads. -/
theorem feedByte_congr {buf : Buf 256} (hr : r.PosOk) (i : Stamped)
    (h : ∀ k ∈ r.reads i.2,
      (r.frameBuf.put r.framePos i.2).view k = (buf.put r.framePos i.2).view k) :
    (feedByte (r.withBuf buf) i).2 = (feedByte r i).2 ∧
      (feedByte (r.withBuf buf) i).1.withBuf (feedByte r i).1.frameBuf = (feedByte r i).1 := by
  obtain ⟨now, b⟩ := i
  cases hst : r.state with
  | sync =>
    simp only [feedByte, hst]
    repeat' split
    all_goals exact ⟨rfl, rfl⟩
  | header =>
    simp only [reads, hst] at h
    simp only [feedByte, hst]
    split
    · rename_i hge
      rw [if_pos hge] at h
      have hread : SatHeader.read (buf.put r.framePos b).view =
          SatHeader.read (r.frameBuf.put r.framePos b).view :=
        SatHeader.read_congr fun k _ hk => (h k (List.mem_range.mpr hk)).symm
      rw [hread]
      repeat' split
      all_goals exact ⟨rfl, rfl⟩
    · exact ⟨rfl, rfl⟩
  | payload =>
    simp only [feedByte, hst]
    split <;> exact ⟨rfl, rfl⟩
  | crc =>
    simp only [reads, hst] at h
    simp only [feedByte, hst]
    split
    · rename_i hge
      rw [if_pos hge] at h
      have hpf := processFrame_congr (r := r.store b) now (hr.crc hst).2.2 h
      simp only [withBuf, store, hst] at hpf
      rw [hpf]
      exact ⟨rfl, rfl⟩
    · exact ⟨rfl, rfl⟩

/-! ## All of them are inside -/

/-- A snapshot update stays inside the buffer for every interface count. -/
theorem snapshotReads_lt (n : UInt8) {k : Nat} (hk : k ∈ snapshotReads n) :
    k < satMaxFrameSize := by
  obtain ⟨j, hj, rfl⟩ := List.mem_map.mp hk
  have hclamp := clampIfaces_le n
  rw [List.mem_range] at hj
  unfold snapshotReach sizeofSnapshot sizeofIface at hj
  unfold sizeofHeader satMaxFrameSize
  split at hj <;> omega

theorem processReads_lt (hfit : r.header.payloadLen.toNat ≤ 246) {k : Nat}
    (hk : k ∈ r.processReads) : k < satMaxFrameSize := by
  have hlen := expectedLen_toNat hfit
  rcases List.mem_append.mp hk with hk | hk
  · simp only [List.cons_append, List.nil_append, List.mem_cons, List.mem_range, hlen] at hk
    unfold satMaxFrameSize
    omega
  · split at hk
    · exact snapshotReads_lt _ hk
    · simp at hk

theorem PosOk.writes_lt (h : r.PosOk) (b : UInt8) {k : Nat} (hk : k ∈ r.writes b) :
    k < satMaxFrameSize := by
  have hpos := h.framePos_lt
  unfold satMaxFrameSize
  cases hst : r.state with
  | sync =>
    simp only [writes, hst] at hk
    split at hk
    · simp_all
    · split at hk <;> simp_all
  | header | payload | crc =>
    simp only [writes, hst, List.mem_singleton] at hk
    omega

theorem PosOk.reads_lt (h : r.PosOk) (b : UInt8) {k : Nat} (hk : k ∈ r.reads b) :
    k < satMaxFrameSize := by
  cases hst : r.state with
  | sync | payload => simp [reads, hst] at hk
  | header =>
    simp only [reads, hst] at hk
    split at hk
    · rw [List.mem_range] at hk
      unfold satMaxFrameSize
      unfold sizeofHeader at hk
      omega
    · simp at hk
  | crc =>
    simp only [reads, hst] at hk
    split at hk
    · exact processReads_lt (r := r.store b) (h.crc hst).2.2 hk
    · simp at hk

/-- **Buffer safety.** After any stream the position is where its state allows, and the next
byte, whatever it is, touches the buffer inside only. -/
theorem buffer_safe (s : List Stamped) :
    (feed reset s).PosOk ∧
      (∀ b, ∀ k ∈ (feed reset s).writes b ++ (feed reset s).reads b, k < satMaxFrameSize) ∧
      ∀ n, ∀ k ∈ snapshotReads n, k < satMaxFrameSize := by
  have hpos := posOk_feed s
  refine ⟨hpos, fun b k hk => ?_, fun n k hk => snapshotReads_lt n hk⟩
  rcases List.mem_append.mp hk with hk | hk
  · exact hpos.writes_lt b hk
  · exact hpos.reads_lt b hk

/-- **No stream wedges the receiver.** Among any 256 further bytes there is one that ends
in (SYNC, pos 0). -/
theorem ready_within (s t : List Stamped) (ht : t.length = satMaxFrameSize) :
    ∃ n, 1 ≤ n ∧ n ≤ satMaxFrameSize ∧ (feed (feed reset s) (t.take n)).Ready := by
  rw [← ht]
  refine machine.reaches_of_measure (I := PosOk) (μ := fun r => 255 - r.framePos)
    (fun r i h => posOk_feedByte h i) (fun r i h => ?_) (posOk_feed s) ?_
  · rcases h.feedByte i with hr | ⟨hp, hpos⟩
    · exact .inl hr
    · -- the position moved on and is still inside the buffer
      right
      have hlt := hp.framePos_lt
      show 255 - (Receiver.feedByte r i).1.framePos < 255 - r.framePos
      omega
  · rw [ht]
    unfold satMaxFrameSize
    omega

/-- Nothing but the first magic byte, over and over. -/
theorem ready_within_noise : ∃ n, 1 ≤ n ∧ n ≤ satMaxFrameSize ∧
    (feed (feed reset []) ((List.replicate 256 ((0 : UInt32), (0x4D : UInt8))).take n)).Ready :=
  ready_within [] (List.replicate 256 (0, 0x4D)) (List.length_replicate ..)

end NetMon.Satellite.Receiver
