import Mathlib.Algebra.Order.Field.Rat
import Mathlib.Tactic.NormNum
import NetMon.Satellite.Stream

/-!
# Isolation of frames

A frame is `Isolated` when its effect on the data model is the same after any two
streams that left the model equal, whatever they left in the frame buffer.
`process_frame` hands `sat_data_update_snapshot` a pointer into the buffer without
comparing the payload's length with the interface count, so a short snapshot reads
on into what earlier frames left there.

`isolated_iff`: a built frame is isolated exactly when what its update reads ends
within the payload and the two CRC bytes behind it (`SnapshotFits`). The converse
direction fills the buffer through frames the CRC check rejects, which leave the
model as it was.
-/

namespace NetMon.Satellite

open NetMon.Lib Receiver

/-- After any two streams from boot that end between frames with equal data models, the byte
string leads to equal data models (at equal clock readings). -/
def Isolated (f : Bytes) : Prop :=
  ∀ s₁ s₂ : List Stamped, (feed reset s₁).Ready → (feed reset s₂).Ready →
    (feed reset s₁).data = (feed reset s₂).data →
    ∀ s : List Stamped, s.map Prod.snd = f →
      (feed (feed reset s₁) s).data = (feed (feed reset s₂) s).data

/-- What a snapshot's update reads ends within the payload and the CRC behind it. -/
def SnapshotFits (m : Message) : Prop :=
  m.msgType = satMsgSnapshot → snapshotReach (m.payload.view 9) ≤ m.payload.length + 2

instance (m : Message) : Decidable (SnapshotFits m) :=
  inferInstanceAs (Decidable (_ → _))

/-! ## Frames that fit are isolated -/

/-- Behind the header, a buffer that took the frame agrees with the frame. -/
theorem agree_snapshot (m : Message) (b : Buf 256) :
    View.Agree ((b.putAll 0 m.frame).view.shift 8) (m.frame.view.shift 8) 0
      (m.payload.length + 2) := by
  have hfit := m.fits'
  refine View.Agree.shift 8 ((Buf.agree_putAll b m.frame ?_).mono (by omega) ?_)
  · rw [m.frame_length]; omega
  · rw [m.frame_length]; omega

theorem isolated_of_fits (m : Message) (hfits : SnapshotFits m) : Isolated m.frame := by
  intro s₁ s₂ hr₁ hr₂ hdata s hs
  obtain ⟨s, i, rfl⟩ := split_last hs m.frame_ne_nil
  rw [show feed (feed reset s₁) (s ++ [i]) = _ from (run_message m hr₁ s i hs).1,
    show feed (feed reset s₂) (s ++ [i]) = _ from (run_message m hr₂ s i hs).1]
  simp only [hdata]
  by_cases htype : m.msgType = satMsgSnapshot
  · simp only [if_pos htype]
    have hreach := hfits htype
    have hlen : 9 < m.payload.length := by
      have := sizeofSnapshot_le_reach (m.payload.view 9)
      unfold sizeofSnapshot at this
      omega
    have hcount : ∀ b : Buf 256, ((b.putAll 0 m.frame).view.shift 8) 9 = m.payload.view 9 :=
      fun b => (agree_snapshot m b 9 (by omega) (by omega)).trans
        (m.payload_agree 9 (by omega) hlen)
    apply satDataUpdateSnapshot_congr _
    rw [show sizeofHeader = 8 from rfl, hcount]
    exact ((agree_snapshot m _).trans (agree_snapshot m _).symm).mono (by omega) hreach
  · simp only [if_neg htype]

/-! ## Frames that do not fit read the past -/

/-- The message with a stored CRC that is one off. -/
def Message.corrupt (m : Message) : Bytes := m.body ++ u16Bytes (m.crc + 1)

theorem Message.corrupt_length (m : Message) : m.corrupt.length = 10 + m.payload.length := by
  rw [corrupt, List.length_append, m.body_length, u16Bytes_length]
  omega

theorem Message.corrupt_ne_nil (m : Message) : m.corrupt ≠ [] :=
  List.ne_nil_of_length_pos (by rw [m.corrupt_length]; omega)

theorem Message.agree_corrupt (m : Message) :
    View.Agree m.corrupt.view m.body.view 0 m.body.length := Bytes.agree_append _ _

theorem Message.corrupted (m : Message) : Corrupted m.frame m.corrupt := by
  have hfit := m.fits'
  have hbody := m.body_length
  have hag : View.Agree m.corrupt.view m.frame.view 0 m.body.length :=
    m.agree_corrupt.trans m.frame_agree_body.symm
  refine ⟨by rw [m.corrupt_length, m.frame_length], ⟨?_, ?_⟩, ?_, ⟨?_, ?_⟩, ?_⟩
  · exact hag 0 (by omega) (by omega)
  · exact hag 1 (by omega) (by omega)
  · exact hag 2 (by omega) (by omega)
  · exact hag 4 (by omega) (by omega)
  · exact hag 5 (by omega) (by omega)
  · have hlen : m.corrupt.length - 2 = 8 + m.payload.length := by rw [m.corrupt_length]; omega
    have hcalc : satCrc16 m.corrupt.view (UInt16.ofNat (8 + m.payload.length)) = m.crc := by
      rw [← m.crc_frame]
      refine satCrc16_congr (hag.mono (by omega) ?_)
      rw [UInt16.toNat_ofNat', hbody]
      exact Nat.mod_le _ _
    have hstored : m.corrupt.view.le16 (8 + m.payload.length) = m.crc + 1 := by
      have h : ∀ i, m.corrupt.view (8 + m.payload.length + i) = (u16Bytes (m.crc + 1)).view i := by
        intro i
        rw [corrupt, ← hbody]
        exact Bytes.view_append_right _ _ _
      rw [View.le16, h 1, show 8 + m.payload.length = 8 + m.payload.length + 0 from rfl, h 0]
      exact u16Bytes_le16 _
    rw [hlen, hcalc, hstored]
    exact fun h => by simp at h

/-- A message whose payload is as long as can be, of bytes `x`. -/
def filler (x : UInt8) : Message :=
  ⟨satMsgHeartbeat, List.replicate 246 x, 0, by rw [List.length_replicate]; exact Nat.le_refl _⟩

theorem filler_length (x : UInt8) : (filler x).payload.length = 246 := List.length_replicate

/-- A rejected frame leaves its bytes in the buffer and the data model as it was. -/
theorem feed_rejected {f g : Bytes} (hf : WellFramed f) (hc : Corrupted f g) (hg : g ≠ [])
    {r : Receiver} (hr : r.Ready) {s : List Stamped} (hs : s.map Prod.snd = g) :
    (feed r s).Ready ∧ (feed r s).data = r.data ∧
      (feed r s).frameBuf = r.frameBuf.putAll 0 g := by
  obtain ⟨s, i, rfl⟩ := split_last hs hg
  obtain ⟨_, _, hrun⟩ := run_corrupted hf hc hr s i hs
  rw [feed, hrun.1]
  exact ⟨⟨rfl, rfl⟩, rfl, rfl⟩

/-- A rejected filler leaves its bytes in the buffer and everything else as at boot. -/
theorem feed_filler (x : UInt8) :
    (feed reset (atZero (filler x).corrupt)).Ready ∧
      (feed reset (atZero (filler x).corrupt)).data = reset.data ∧
      ∀ q < 246, (feed reset (atZero (filler x).corrupt)).frameBuf.view (8 + q) = x := by
  obtain ⟨hready, hdata, hbuf⟩ :=
    feed_rejected (filler x).wellFramed (filler x).corrupted (filler x).corrupt_ne_nil (r := reset)
      ⟨rfl, rfl⟩ (atZero_bytes _)
  have hlen := (filler x).corrupt_length
  have hblen := (filler x).body_length
  rw [filler_length] at hlen hblen
  refine ⟨hready, hdata, fun q hq => ?_⟩
  rw [hbuf, Buf.agree_putAll _ _ (by omega) _ (by omega) (by omega),
    (filler x).agree_corrupt _ (by omega) (by omega), Message.body,
    show 8 + q = (filler x).header.bytes.length + q from rfl, Bytes.view_append_right, Bytes.view]
  show (List.replicate 246 x).getD q 0 = x
  rw [List.getD_eq_getElem _ _ (by rw [List.length_replicate]; omega), List.getElem_replicate]

/-- The snapshot memory after a filler of bytes `x` and the frame. -/
def staleView (m : Message) (x : UInt8) : View :=
  ((feed reset (atZero (filler x).corrupt)).frameBuf.putAll 0 m.frame).view.shift 8

/-- Past the frame's CRC the filler's bytes are still there. -/
theorem staleView_past (m : Message) (x : UInt8) {q : Nat} (hq : m.payload.length + 2 ≤ q)
    (hq' : q < 246) : staleView m x q = x := by
  have hfit := m.fits'
  rw [staleView, View.shift, Buf.view_putAll _ _ (by rw [m.frame_length]; omega),
    if_neg (by rw [m.frame_length]; omega)]
  exact (feed_filler x).2.2 q hq'

theorem staleView_frame (m : Message) (x : UInt8) {q : Nat} (hq : q < m.payload.length) :
    staleView m x q = m.payload.view q :=
  (agree_snapshot m _ q (by omega) (by omega)).trans (m.payload_agree q (by omega) hq)

/-- The model after the filler of bytes `x` and the frame. -/
def staleUpdate (m : Message) (x : UInt8) : SatData :=
  satDataUpdateSnapshot (satDataMarkAlive reset.data 0 m.sequence) (staleView m x)

/-- An isolated snapshot updates alike from both stale memories. -/
theorem update_eq_of_isolated (m : Message) (htype : m.msgType = satMsgSnapshot)
    (hiso : Isolated m.frame) : staleUpdate m 0 = staleUpdate m 0xFF := by
  obtain ⟨hr0, hd0, -⟩ := feed_filler 0
  obtain ⟨hr1, hd1, -⟩ := feed_filler 0xFF
  have heq := hiso _ _ hr0 hr1 (hd0.trans hd1.symm) (atZero m.frame) (atZero_bytes _)
  obtain ⟨s, i, hsi⟩ := split_last (atZero_bytes m.frame) m.frame_ne_nil
  have hi : i.1 = 0 := by
    have hmem : i ∈ atZero m.frame := by rw [hsi]; simp
    obtain ⟨b, -, rfl⟩ := List.mem_map.mp hmem
    rfl
  have hs : (s ++ [i]).map Prod.snd = m.frame := by rw [← hsi, atZero_bytes]
  rw [hsi,
    show feed (feed reset (atZero (filler 0).corrupt)) (s ++ [i]) = _ from
      (run_message m hr0 s i hs).1,
    show feed (feed reset (atZero (filler 0xFF).corrupt)) (s ++ [i]) = _ from
      (run_message m hr1 s i hs).1] at heq
  simp only [htype, if_true, hd0, hd1, hi] at heq
  exact heq

/-- If the fixed part does not fit, the jitter's high byte is stale. -/
theorem stale_jitter (m : Message) (hshort : m.payload.length + 2 ≤ 21) :
    staleUpdate m 0 ≠ staleUpdate m 0xFF := by
  intro heq
  have hj : (((staleView m 0).le16 20).toNat : ℚ) / 10 =
      (((staleView m 0xFF).le16 20).toNat : ℚ) / 10 := congrArg SatData.wanJitterMs heq
  have hj' : ((staleView m 0).le16 20).toNat = ((staleView m 0xFF).le16 20).toNat := by
    exact_mod_cast (div_left_inj' (by norm_num : (10 : ℚ) ≠ 0)).mp hj
  rw [View.le16_toNat, View.le16_toNat, staleView_past m 0 hshort (by omega),
    staleView_past m 0xFF hshort (by omega)] at hj'
  have h0 := (staleView m 0 20).toNat_lt
  have h0' : (0 : UInt8).toNat = 0 := rfl
  have h1' : (0xFF : UInt8).toNat = 255 := rfl
  omega

/-- If the interface count arrives but the last interface does not fit, its signal is stale. -/
theorem stale_signal (m : Message) (hfixed : 21 < m.payload.length + 2)
    (hreach : ¬ snapshotReach (m.payload.view 9) ≤ m.payload.length + 2) :
    staleUpdate m 0 ≠ staleUpdate m 0xFF := by
  intro heq
  have hcount : ∀ x, staleView m x 9 = m.payload.view 9 := fun x => staleView_frame m x (by omega)
  obtain ⟨n, hn⟩ : ∃ n, clampIfaces (m.payload.view 9) = n := ⟨_, rfl⟩
  have hn8 : n ≤ 8 := hn ▸ clampIfaces_le _
  have hn0 : n ≠ 0 := by
    intro h0
    rw [snapshotReach, if_pos (by rw [hn, h0]), sizeofSnapshot] at hreach
    omega
  rw [snapshotReach, if_neg (by rw [hn]; exact hn0), hn, sizeofSnapshot, sizeofIface] at hreach
  let last : Fin 8 := ⟨n - 1, by omega⟩
  have hsig : ∀ x, (staleUpdate m x).ifaces[last].signalDbm = x.toInt8 := by
    intro x
    rw [staleUpdate, satDataUpdateSnapshot_ifaces _ _ last
      (by rw [hcount, hn]; show n - 1 < n; omega)]
    show (staleView m x (22 + 22 * (n - 1) + 20)).toInt8 = _
    rw [staleView_past m x (by omega) (by omega)]
  have hsame := hsig 0
  rw [heq, hsig 0xFF] at hsame
  exact absurd hsame (by decide)

theorem fits_of_isolated (m : Message) (hiso : Isolated m.frame) : SnapshotFits m := by
  intro htype
  have heq := update_eq_of_isolated m htype hiso
  by_contra hreach
  by_cases hshort : m.payload.length + 2 ≤ 21
  · exact stale_jitter m hshort heq
  · exact stale_signal m (by omega) hreach heq

/-- **When a frame's effect depends on the frame alone.** -/
theorem isolated_iff (m : Message) : Isolated m.frame ↔ SnapshotFits m :=
  ⟨fits_of_isolated m, isolated_of_fits m⟩

/-- A snapshot frame without payload. -/
def emptySnapshot : Message := ⟨satMsgSnapshot, [], 0, by decide⟩

/-- It takes the whole model from what earlier frames left in the buffer. -/
theorem emptySnapshot_not_isolated : ¬ Isolated emptySnapshot.frame :=
  fun hiso => absurd (fits_of_isolated emptySnapshot hiso) (by decide)

end NetMon.Satellite
