import NetMon.Satellite.Fidelity
import NetMon.Satellite.Stream

/-!
# Messages on the line

The satellite reads whole frames in whatever pieces they come, with its checks of the connection in
between. `Reading` says where it is in the messages that are on their way; when more bytes arrive
it has taken over the messages that are complete, in their order (`Reading.arrive`), and is in
the next one.
-/

namespace NetMon.Satellite

open NetMon.Lib NetMon.Core NetMon.Net NetMon.Api Receiver

/-! ## In front of the end of a frame -/

/-- Nothing is reported before the last byte of a frame. -/
theorem events_within (m : Message) {r : Receiver} (hr : r.Ready) {s : List Stamped} {rest : Bytes}
    (hs : s.map Prod.snd ++ rest = m.frame) (hrest : rest ≠ []) : events r s = [] := by
  have hwhole : (s ++ atZero rest).map Prod.snd = m.frame := by
    rw [List.map_append, atZero, List.map_map]
    show s.map Prod.snd ++ rest.map (fun b => b) = _
    rw [List.map_id', hs]
  obtain ⟨a, i, hsplit⟩ := split_last hwhole m.frame_ne_nil
  have hrun := (run_message m hr a i (hsplit ▸ hwhole)).2
  rw [← hsplit, Machine.trace_append] at hrun
  rcases List.append_eq_singleton_iff.mp hrun with ⟨hnone, -⟩ | ⟨hone, -⟩
  · exact hnone
  · -- An accepted frame has taken all of its bytes.
    have hacc : RxEvent.accepted m.header m.payload ∈ events r s := by
      rw [events, hone]
      exact List.mem_singleton_self _
    have hlong := accepted_length hacc
    have hlen := congrArg List.length hs
    have hpos := List.length_pos_iff.mpr hrest
    rw [List.length_append, List.length_map, m.frame_length] at hlen
    rw [hr.2] at hlong
    omega

theorem feedByte_quiet {r : Receiver} {i : Stamped} (h : (feedByte r i).2 = []) (d : SatData) :
    feedByte { r with data := d } i = ({ (feedByte r i).1 with data := d }, []) ∧
      (feedByte r i).1.data = r.data := by
  obtain ⟨now, b⟩ := i
  cases hst : r.state with
  | sync =>
    simp only [feedByte, hst]
    split
    · exact ⟨rfl, rfl⟩
    · split <;> exact ⟨rfl, rfl⟩
  | header =>
    simp only [feedByte, hst] at h ⊢
    split
    · next hfull =>
      rw [if_pos hfull] at h
      split
      · next hbad =>
        rw [if_pos hbad] at h
        cases h
      · split <;> exact ⟨rfl, rfl⟩
    · exact ⟨rfl, rfl⟩
  | payload =>
    simp only [feedByte, hst]
    split <;> exact ⟨rfl, rfl⟩
  | crc =>
    simp only [feedByte, hst] at h ⊢
    split
    · next hfull =>
      rw [if_pos hfull] at h
      cases h
    · exact ⟨rfl, rfl⟩

/-- While nothing is reported the data model is not looked at. -/
theorem feed_quiet {r : Receiver} {s : List Stamped} (h : events r s = []) (d : SatData) :
    feed { r with data := d } s = { feed r s with data := d } ∧ (feed r s).data = r.data := by
  induction s generalizing r with
  | nil => exact ⟨rfl, rfl⟩
  | cons i s ih =>
    rw [events, Machine.trace_cons, List.append_eq_nil_iff] at h
    obtain ⟨hone, hkeep⟩ := feedByte_quiet h.1 d
    obtain ⟨hrest, hkept⟩ := ih h.2
    have hstep : machine.step { r with data := d } i = { machine.step r i with data := d } :=
      congrArg Prod.fst hone
    constructor
    · rw [feed, Machine.exec_cons, hstep]
      exact hrest
    · rw [feed, Machine.exec_cons]
      exact hkept.trans hkeep

/-! ## Messages on their way -/

/-- Some receiver between frames that is fed the message goes from `d` to `d'`. -/
def Takes (d : SatData) (m : Message) (d' : SatData) : Prop :=
  ∃ r : Receiver, r.Ready ∧ r.data = d ∧ ∃ s : List Stamped, s.map Prod.snd = m.frame ∧
    (feed r s).data = d'

/-- One message after the other. -/
inductive TakesAll : SatData → List Message → SatData → Prop
  | nil (d : SatData) : TakesAll d [] d
  | cons {d d' d'' : SatData} {m : Message} {ms : List Message} (h : Takes d m d')
      (rest : TakesAll d' ms d'') : TakesAll d (m :: ms) d''

/-- The display holds `d`, and with the bytes on the wire it gets the messages, of the first of
which it may have read some. -/
def Reading (d : SatData) (display : Receiver) (wire : Bytes) (ms : List Message) : Prop :=
  ∃ (r : Receiver) (s : List Stamped), r.Ready ∧ r.data = d ∧ feed r s = display ∧
    s.map Prod.snd ++ wire = ms.flatMap Message.frame ∧
    (∀ m ∈ ms.head?, s.length < m.frame.length) ∧ (ms = [] → s = [])

namespace Reading

variable {d : SatData} {display : Receiver} {wire : Bytes} {ms : List Message}

theorem start {r : Receiver} (hr : r.Ready) : Reading r.data r [] [] :=
  ⟨r, [], hr, rfl, rfl, rfl, nofun, fun _ => rfl⟩

/-- What has been read of a message is not all of it. -/
theorem quiet {r : Receiver} (hr : r.Ready) {s : List Stamped}
    (hs : s.map Prod.snd ++ wire = ms.flatMap Message.frame)
    (hshort : ∀ m ∈ ms.head?, s.length < m.frame.length) (hended : ms = [] → s = []) :
    events r s = [] := by
  cases ms with
  | nil =>
    rw [hended rfl]
    rfl
  | cons m ms =>
    have hlt := hshort m rfl
    rw [List.flatMap_cons] at hs
    have hpre : s.map Prod.snd ++ m.frame.drop s.length = m.frame := by
      have := congrArg (List.take m.frame.length) hs
      rw [List.take_left, List.take_append, List.take_of_length_le (by
        rw [List.length_map]
        omega)] at this
      rw [List.length_map] at this
      have hdrop := congrArg (List.drop (s.map Prod.snd).length) this
      rw [List.drop_left, List.length_map] at hdrop
      rw [← hdrop, this]
    refine events_within m hr hpre (List.ne_nil_of_length_pos ?_)
    rw [List.length_drop]
    omega

theorem data_eq (h : Reading d display wire ms) : display.data = d := by
  obtain ⟨r, s, hr, hd, hfeed, hs, hshort, hended⟩ := h
  rw [← hfeed, (feed_quiet (quiet hr hs hshort hended) d).2, hd]

/-- With nothing left on the wire, everything has been read. -/
theorem drained (h : Reading d display [] ms) : ms = [] := by
  obtain ⟨r, s, -, -, -, hs, hshort, -⟩ := h
  cases ms with
  | nil => rfl
  | cons m ms =>
    have hlt := hshort m rfl
    have hlen := congrArg List.length hs
    rw [List.append_nil, List.length_map, List.flatMap_cons, List.length_append] at hlen
    omega

/-- A check of the connection in between. -/
theorem setData (h : Reading d display wire ms) (d' : SatData) :
    Reading d' { display with data := d' } wire ms := by
  obtain ⟨r, s, hr, hd, hfeed, hs, hshort, hended⟩ := h
  refine ⟨{ r with data := d' }, s, hr, rfl, ?_, hs, hshort, hended⟩
  rw [(feed_quiet (quiet hr hs hshort hended) d').1, hfeed]

/-- A message is written. -/
theorem append (h : Reading d display wire ms) (m : Message) :
    Reading d display (wire ++ m.frame) (ms ++ [m]) := by
  obtain ⟨r, s, hr, hd, hfeed, hs, hshort, hended⟩ := h
  refine ⟨r, s, hr, hd, hfeed, ?_, ?_, fun hnil => absurd hnil (by simp)⟩
  · rw [← List.append_assoc, hs, List.flatMap_append, List.flatMap_singleton]
  · intro m' hm'
    cases ms with
    | nil =>
      cases hm'
      rw [hended rfl]
      exact List.length_pos_iff.mpr m.frame_ne_nil
    | cons m0 ms => exact hshort m' hm'

/-- From the beginning of a message on. -/
theorem from_start {r : Receiver} (hr : r.Ready) {s : List Stamped}
    (hs : s.map Prod.snd ++ wire = ms.flatMap Message.frame) :
    ∃ done left d', ms = done ++ left ∧ TakesAll r.data done d' ∧
      Reading d' (feed r s) wire left := by
  induction ms generalizing r s with
  | nil =>
    obtain ⟨hnil, -⟩ := List.append_eq_nil_iff.mp hs
    rw [List.map_eq_nil_iff.mp hnil] at hs ⊢
    exact ⟨[], [], r.data, rfl, .nil _, r, [], hr, rfl, rfl, hs, nofun, fun _ => rfl⟩
  | cons m ms ih =>
    by_cases hshort : s.length < m.frame.length
    · exact ⟨[], m :: ms, r.data, rfl, .nil _, r, s, hr, rfl, rfl, hs, by simpa using hshort, nofun⟩
    · -- The first message has come whole.
      rw [List.flatMap_cons] at hs
      have hfirst : (s.take m.frame.length).map Prod.snd = m.frame := by
        have := congrArg (List.take m.frame.length) hs
        rwa [List.take_left, List.take_append_of_le_length (by
          rw [List.length_map]
          omega), ← List.map_take] at this
      have hnext : (s.drop m.frame.length).map Prod.snd ++ wire = ms.flatMap Message.frame := by
        have := congrArg (List.drop m.frame.length) hs
        rwa [List.drop_left, List.drop_append_of_le_length (by
          rw [List.length_map]
          omega), ← List.map_drop] at this
      obtain ⟨a, i, hsplit⟩ := split_last hfirst m.frame_ne_nil
      have hrun := (run_message m hr a i (hsplit ▸ hfirst)).1
      have hready : (feed r (s.take m.frame.length)).Ready := by
        rw [hsplit, feed, hrun]
        exact ⟨rfl, rfl⟩
      obtain ⟨done, left, d', hms, htakes, hreading⟩ := ih hready hnext
      refine ⟨m :: done, left, d', by rw [hms]; rfl,
        .cons ⟨r, hr, rfl, _, hfirst, rfl⟩ htakes, ?_⟩
      have hfeed : feed (feed r (s.take m.frame.length)) (s.drop m.frame.length) = feed r s := by
        rw [feed, feed, ← Machine.exec_append, List.take_append_drop]
      rwa [hfeed] at hreading

/-- **Arrival.** What arrives completes some messages, which are taken over one after the other,
and the beginning of the next. -/
theorem arrive (h : Reading d display wire ms) {s' : List Stamped} {wire' : Bytes}
    (hs' : s'.map Prod.snd ++ wire' = wire) : ∃ done left d', ms = done ++ left ∧
      TakesAll d done d' ∧ Reading d' (feed display s') wire' left := by
  obtain ⟨r, s, hr, rfl, rfl, hs, -, -⟩ := h
  have hall : (s ++ s').map Prod.snd ++ wire' = ms.flatMap Message.frame := by
    rw [List.map_append, List.append_assoc, hs', hs]
  have := from_start hr hall
  rwa [feed, Machine.exec_append] at this

end Reading

end NetMon.Satellite
