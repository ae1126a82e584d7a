import Mathlib.Algebra.Ring.Parity
import Mathlib.Data.List.Induction
import NetMon.Satellite.Receiver

/-!
# Streams of frames

What a byte stream delivers. `delivered` lists the accepted frames of a run.

* `stream_fidelity`: a stream of intact and corrupted frames delivers exactly the
  intact ones, in order, and leaves the receiver between frames.
* `resync_iff`: behind line noise that holds no magic, the next frame is delivered
  exactly when the noise ends in an even run of `4D` bytes. In the SYNC state a byte
  that does not complete a magic is dropped even when it starts one itself, so an
  odd run eats the frame's own first byte.
-/

namespace NetMon.Satellite

open NetMon.Lib Receiver

/-- The header and payload an event delivers. -/
def RxEvent.frame? : RxEvent → Option (SatHeader × Bytes)
  | .accepted h p => some (h, p)
  | _ => none

/-- The frames a run accepted, in order. -/
def delivered (es : List RxEvent) : List (SatHeader × Bytes) := es.filterMap RxEvent.frame?

/-! ## Streams of intact and corrupted frames -/

/-- What a sender puts on the line: a built frame, or one the line has corrupted. -/
inductive Item where
  | intact (m : Message)
  | corrupt (m : Message) (g : Bytes) (h : Corrupted m.frame g)

namespace Item

def bytes : Item → Bytes
  | intact m => m.frame
  | corrupt _ g _ => g

/-- The header and payload an intact frame was sent with. -/
def sent? : Item → Option (SatHeader × Bytes)
  | intact m => some (m.header, m.payload)
  | corrupt .. => none

theorem bytes_ne_nil (it : Item) : it.bytes ≠ [] := by
  cases it with
  | intact m => exact m.frame_ne_nil
  | corrupt m g h =>
    exact List.ne_nil_of_length_pos (by rw [bytes, h.length, m.frame_length]; omega)

end Item

/-- A stream that carries bytes has a last one. -/
theorem split_last {f : Bytes} {s : List Stamped} (hs : s.map Prod.snd = f) (hf : f ≠ []) :
    ∃ s' i, s = s' ++ [i] := by
  rcases List.eq_nil_or_concat s with rfl | ⟨s', i, rfl⟩
  · exact absurd hs.symm hf
  · exact ⟨s', i, by rw [List.concat_eq_append]⟩

/-- One item brings the receiver back between frames and delivers what was sent. -/
theorem run_item (it : Item) {r : Receiver} (hr : r.Ready) {s : List Stamped}
    (hs : s.map Prod.snd = it.bytes) :
    ∃ r' es, machine.Runs r s r' es ∧ r'.Ready ∧ delivered es = it.sent?.toList := by
  obtain ⟨s, i, rfl⟩ := split_last hs it.bytes_ne_nil
  cases it with
  | intact m => exact ⟨_, _, run_message m hr s i hs, ⟨rfl, rfl⟩, rfl⟩
  | corrupt m g hc =>
    obtain ⟨_, _, hrun⟩ := run_corrupted m.wellFramed hc hr s i hs
    exact ⟨_, _, hrun, ⟨rfl, rfl⟩, rfl⟩

/-- **Stream fidelity.** A stream of intact and corrupted frames, from between frames, delivers
exactly the intact ones, each once, in order, with the header and payload sent, and ends
between frames. -/
theorem stream_fidelity (items : List Item) {r : Receiver} (hr : r.Ready) {s : List Stamped}
    (hs : s.map Prod.snd = items.flatMap Item.bytes) :
    delivered (events r s) = items.filterMap Item.sent? ∧ (feed r s).Ready := by
  induction items generalizing r s with
  | nil =>
    rw [List.flatMap_nil, List.map_eq_nil_iff] at hs
    subst hs
    exact ⟨rfl, hr⟩
  | cons it items ih =>
    rw [List.flatMap_cons] at hs
    obtain ⟨s1, s2, rfl, hs1, hs2⟩ := List.map_eq_append_iff.mp hs
    obtain ⟨r', es, ⟨hexec, htrace⟩, hr', hdel⟩ := run_item it hr hs1
    obtain ⟨hrest, hready⟩ := ih hr' hs2
    constructor
    · rw [events, Machine.trace_append, hexec, htrace, delivered, List.filterMap_append]
      rw [delivered] at hdel hrest
      rw [hdel, hrest, List.filterMap_cons]
      cases it <;> rfl
    · rw [feed, Machine.exec_append, hexec]
      exact hready

/-- A heartbeat with a four-byte payload. -/
def heartbeat : Message := ⟨satMsgHeartbeat, [1, 2, 3, 4], 7, by decide⟩

/-- The heartbeat with its last payload byte flipped by the line. -/
def heartbeatCorrupt : Bytes := [0x4D, 0x4E, 1, 2, 4, 0, 7, 0, 1, 2, 3, 5, 0, 0]

theorem heartbeat_corrupted : Corrupted heartbeat.frame heartbeatCorrupt where
  length := by decide +kernel
  magic := by decide +kernel
  version := by decide +kernel
  payloadLen := by decide +kernel
  crc := by decide +kernel

def demoItems : List Item :=
  [.intact heartbeat, .corrupt heartbeat heartbeatCorrupt heartbeat_corrupted, .intact heartbeat]

/-- Bytes that all arrive at clock reading 0. -/
def atZero (bs : Bytes) : List Stamped := bs.map fun b => (0, b)

@[simp] theorem atZero_bytes (bs : Bytes) : (atZero bs).map Prod.snd = bs := by
  simp [atZero, Function.comp_def]

theorem stream_fidelity_demo :
    delivered (events Receiver.reset (atZero (demoItems.flatMap Item.bytes))) =
        [(heartbeat.header, heartbeat.payload), (heartbeat.header, heartbeat.payload)] ∧
      (feed Receiver.reset (atZero (demoItems.flatMap Item.bytes))).Ready :=
  stream_fidelity demoItems ⟨rfl, rfl⟩ (atZero_bytes _)

/-! ## Resynchronisation after noise -/

/-- The first magic in `j ++ f` is not before the end of `j`. -/
def NoMagicIn (j f : Bytes) : Prop :=
  ∀ k < j.length, ¬ ((j ++ f)[k]? = some 0x4D ∧ (j ++ f)[k + 1]? = some 0x4E)

instance (j f : Bytes) : Decidable (NoMagicIn j f) :=
  inferInstanceAs (Decidable (∀ k < j.length, _))

/-- How many bytes `4D` the string ends in. -/
def trailing4D (j : Bytes) : Nat := (j.reverse.takeWhile (· = 0x4D)).length

@[simp] theorem trailing4D_nil : trailing4D [] = 0 := rfl

theorem trailing4D_concat (j : Bytes) (b : UInt8) :
    trailing4D (j ++ [b]) = if b = 0x4D then trailing4D j + 1 else 0 := by
  unfold trailing4D
  rw [List.reverse_append, List.reverse_singleton, List.singleton_append, List.takeWhile_cons]
  split <;> simp_all

theorem last_of_trailing4D {j : Bytes} (h : trailing4D j ≠ 0) :
    ∃ j', j = j' ++ [0x4D] := by
  rcases List.eq_nil_or_concat j with rfl | ⟨j', b, rfl⟩
  · simp at h
  · rw [List.concat_eq_append, trailing4D_concat] at h
    by_cases hb : b = 0x4D
    · exact ⟨j', by rw [hb, List.concat_eq_append]⟩
    · simp [hb] at h

/-- A byte in the SYNC state that does not complete a magic. -/
theorem feed_sync {r : Receiver} (hst : r.state = .sync) (hpos : r.framePos ≤ 1) (i : Stamped)
    (hno : ¬ (r.framePos = 1 ∧ i.2 = 0x4E)) :
    (feedByte r i).1.state = .sync ∧
      (feedByte r i).1.framePos = (if i.2 = 0x4D then 1 - r.framePos else 0) ∧
      (feedByte r i).2 = [] := by
  obtain ⟨now, b⟩ := i
  have hlo : (satProtoMagic &&& 0xFF).toUInt8 = 0x4D := by decide
  have hhi : (satProtoMagic >>> 8).toUInt8 = 0x4E := by decide
  simp only [feedByte, hst, hlo, hhi] at hno ⊢
  rw [if_neg hno]
  by_cases hb : b = 0x4D
  · rcases (show r.framePos = 0 ∨ r.framePos = 1 by omega) with h0 | h1
    · simp [hb, h0]
    · simp [hb, h1]
  · simp [hb]

/-- Noise without a magic leaves the receiver in SYNC; the position is the parity of the `4D`
run it ends in. -/
theorem run_noise {r : Receiver} (hr : r.Ready) (s : List Stamped)
    (hno : ∀ k : Nat,
      ¬ ((s.map Prod.snd)[k]? = some 0x4D ∧ (s.map Prod.snd)[k + 1]? = some 0x4E)) :
    (feed r s).state = .sync ∧ (feed r s).framePos = trailing4D (s.map Prod.snd) % 2 ∧
      events r s = [] := by
  induction s using List.reverseRecOn with
  | nil => exact ⟨hr.1, hr.2, rfl⟩
  | append_singleton s i ih =>
    -- a magic in the shorter string is a magic in the longer one
    obtain ⟨hst, hpos, hev⟩ := ih fun k ⟨h0, h1⟩ => by
      refine hno k ⟨?_, ?_⟩ <;> rw [List.map_append]
      · rw [List.getElem?_append_left (by grind), h0]
      · rw [List.getElem?_append_left (by grind), h1]
    have hlast : ¬ ((feed r s).framePos = 1 ∧ i.2 = 0x4E) := by
      rintro ⟨h1, h4E⟩
      obtain ⟨j', hj'⟩ := last_of_trailing4D (j := s.map Prod.snd) (by omega)
      refine hno j'.length ⟨?_, ?_⟩ <;> rw [List.map_append, hj'] <;> simp [h4E]
    obtain ⟨hst', hpos', hev'⟩ := feed_sync hst (by omega) i hlast
    rw [List.map_append, List.map_singleton, trailing4D_concat]
    simp only [feed, events, Machine.exec_append, Machine.trace_append, Machine.exec_cons,
      Machine.exec_nil, Machine.trace_cons, Machine.trace_nil, machine]
      at hst hpos hev hst' hpos' hev' ⊢
    refine ⟨hst', ?_, by rw [hev, hev']; rfl⟩
    rw [hpos', hpos]
    by_cases h4D : i.2 = 0x4D
    · rw [if_pos h4D, if_pos h4D]
      omega
    · rw [if_neg h4D, if_neg h4D]

/-- With the position at 1, the frame's own magic is dropped byte by byte. -/
theorem run_lost {r : Receiver} (hst : r.state = .sync) (hpos : r.framePos = 1) {i j : Stamped}
    (hi : i.2 = 0x4D) (hj : j.2 = 0x4E) :
    (feed r [i, j]).framePos = 0 ∧ events r [i, j] = [] := by
  obtain ⟨hst1, hpos1, hev1⟩ := feed_sync hst (by omega) i (by rw [hi]; simp)
  rw [if_pos hi, hpos] at hpos1
  obtain ⟨_, hpos2, hev2⟩ := feed_sync hst1 (by omega) j (by rw [hpos1]; simp)
  rw [if_neg (by rw [hj]; decide)] at hpos2
  simp only [feed, events, Machine.exec_cons, Machine.exec_nil, Machine.trace_cons,
    Machine.trace_nil, machine]
  exact ⟨hpos2, by rw [hev1, hev2]; rfl⟩

/-- A frame starts with the magic. -/
theorem frame_magic (m : Message) : ∃ rest, m.frame = 0x4D :: 0x4E :: rest := by
  have hmagic : u16Bytes satProtoMagic = [0x4D, 0x4E] := by decide
  change u16Bytes m.header.magic = [0x4D, 0x4E] at hmagic
  rw [m.frame_eq, Message.body, SatHeader.bytes, hmagic]
  exact ⟨_, rfl⟩

/-- Between frames, a built frame is delivered. -/
theorem frame_delivered (m : Message) {r : Receiver} (hr : r.Ready) {s : List Stamped}
    (hs : s.map Prod.snd = m.frame) : .accepted m.header m.payload ∈ events r s := by
  obtain ⟨s, i, rfl⟩ := split_last hs m.frame_ne_nil
  rw [events, (run_message m hr s i hs).2]
  exact List.mem_singleton_self _

/-- With the position at 1, a built frame is lost: what is left behind its magic is too short
to hold it. -/
theorem frame_lost (m : Message) {r : Receiver} (hst : r.state = .sync) (hpos : r.framePos = 1)
    {s : List Stamped} (hs : s.map Prod.snd = m.frame) :
    .accepted m.header m.payload ∉ events r s := by
  intro hacc
  obtain ⟨rest, hrest⟩ := frame_magic m
  rw [hrest] at hs
  obtain ⟨i, s, rfl, hi, hs⟩ := List.map_eq_cons_iff.mp hs
  obtain ⟨j, s, rfl, hj, hs⟩ := List.map_eq_cons_iff.mp hs
  obtain ⟨hpos0, hev0⟩ := run_lost hst hpos hi hj
  rw [show i :: j :: s = [i, j] ++ s from rfl, events, Machine.trace_append,
    show machine.trace r [i, j] = [] from hev0, List.nil_append] at hacc
  have hshort := accepted_length hacc
  have hlen := m.frame_length
  rw [hrest, ← hs] at hlen
  simp only [feed] at hpos0
  simp only [List.length_cons, List.length_map] at hlen
  omega

/-- **Resynchronisation after noise.** With no magic before the frame, the frame is delivered
exactly when the noise ends in an even number of bytes `4D`. -/
theorem resync_iff (m : Message) (j : Bytes) (hj : NoMagicIn j m.frame) {r : Receiver}
    (hr : r.Ready) {s : List Stamped} (hs : s.map Prod.snd = j ++ m.frame) :
    .accepted m.header m.payload ∈ events r s ↔ Even (trailing4D j) := by
  obtain ⟨s1, s2, rfl, hs1, hs2⟩ := List.map_eq_append_iff.mp hs
  subst hs1
  obtain ⟨hst, hpos, hev⟩ := run_noise hr s1 fun k ⟨h0, h1⟩ => by
    refine hj k (by grind) ⟨?_, ?_⟩
    · rw [List.getElem?_append_left (by grind), h0]
    · rw [List.getElem?_append_left (by grind), h1]
  rw [events, Machine.trace_append, show machine.trace r s1 = [] from hev, List.nil_append]
  rcases Nat.even_or_odd (trailing4D (s1.map Prod.snd)) with heven | hodd
  · rw [Nat.even_iff.mp heven] at hpos
    exact ⟨fun _ => heven, fun _ => frame_delivered m ⟨hst, hpos⟩ hs2⟩
  · rw [Nat.odd_iff.mp hodd] at hpos
    exact ⟨fun hacc => absurd hacc (frame_lost m hst hpos hs2),
      fun heven => absurd heven (Nat.not_even_iff_odd.mpr hodd)⟩

theorem resync_heartbeat :
    .accepted heartbeat.header heartbeat.payload ∈
      events Receiver.reset (atZero ([0x4D, 0x4D] ++ heartbeat.frame)) :=
  (resync_iff heartbeat [0x4D, 0x4D] (by decide +kernel) ⟨rfl, rfl⟩ (atZero_bytes _)).mpr
    (by decide)

/-- One stray `4D` in front of a frame loses the frame. -/
theorem resync_fails_after_4D :
    NoMagicIn [0x4D] heartbeat.frame ∧ Receiver.reset.Ready ∧
      .accepted heartbeat.header heartbeat.payload ∉
        events Receiver.reset (atZero ([0x4D] ++ heartbeat.frame)) := by
  decide +kernel

end NetMon.Satellite
