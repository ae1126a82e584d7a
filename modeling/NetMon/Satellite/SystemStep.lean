import NetMon.Satellite.System

/-!
# One step of the system

Whichever part takes it, a step keeps `Flow` and moves on (`Onward`): what is shown grows no
older, what was sent is not lost, and the next reply is of a state that is no older than the
request (`Flow.step`).
-/

namespace NetMon.Satellite

open NetMon.Lib NetMon.Core NetMon.Net NetMon.Api Receiver

/-! ## Moving on -/

theorem Carries.append {ms : List Monitor} {k : Nat} {f : Message} (h : Carries ms k f)
    (more : List Monitor) : Carries (ms ++ more) k f := by
  rcases h with h | ⟨m, now, seq, hm, rfl⟩
  · exact .inl h
  · exact .inr ⟨m, now, seq, hm.append more, rfl⟩

theorem Polling.append {ms : List Monitor} {k : Nat} {req request reply : Bytes} {c : Conn}
    (h : Polling ms k req c request reply) (more : List Monitor) :
    Polling (ms ++ more) k req c request reply := by
  cases h with
  | waiting hreq hshort => exact .waiting hreq hshort
  | answered hm => exact .answered (hm.append more)

theorem sendJson_status_ne_nil (m : Monitor) : sendJson (apiJsonStatus m) ≠ [] := by
  obtain ⟨t, ht⟩ := status_prints m
  have hwidth : 0 < headerWidth := by decide
  rw [← List.length_pos_iff, sendJson_eq ht, List.length_append, replyHeader_length]
  omega

/-- Of a reply the feeder takes the state it was answered with, or nothing. -/
theorem Polling.fetched {ms : List Monitor} {k : Nat} {req request reply : Bytes} {c : Conn}
    (h : Polling ms k req c request reply) {cuts : List Nat} {root : CJson}
    (hjson : fetchReply (pieces cuts reply) = .json root) :
    reply ≠ [] ∧ ∃ m, Numbered ms k m ∧ root = CJson.reread (apiJsonStatus m) := by
  cases h with
  | waiting hreq hshort =>
    have hnone : pieces cuts [] = [] := by cases cuts <;> rfl
    rw [hnone] at hjson
    cases hjson
  | @answered m hm =>
    exact ⟨sendJson_status_ne_nil m, m, hm,
      (fetch_status (pieces_ne_nil cuts _) (pieces_flatten cuts _) hjson).2⟩

theorem map_zip_take (times : List UInt32) (wire : Bytes) :
    (times.zip wire).map Prod.snd ++ wire.drop times.length = wire := by
  induction times generalizing wire with
  | nil => rfl
  | cons t times ih =>
    cases wire with
    | nil => rfl
    | cons b wire =>
      rw [List.zip_cons_cons, List.map_cons, List.length_cons, List.drop_succ_cons,
        List.cons_append, ih]

/-- The state `K` or a later one is shown, or on the line. -/
def SentBy (K j : Nat) (items : List (Nat × Message)) : Prop :=
  K ≤ j ∨ ∃ x ∈ items, x.2.msgType = satMsgSnapshot ∧ K ≤ x.1

/-- How a step moves on, with `n` states collected before it: the shown state is no older, what was
sent is not lost, and a request that is not answered yet is not answered with a state older than
those collected. -/
structure Onward (n : Nat) (j : Nat) (items : List (Nat × Message)) (top : Nat) (s : System)
    (j' : Nat) (items' : List (Nat × Message)) (top' : Nat) (s' : System) : Prop where
  shown : j ≤ j'
  sent : ∀ K, SentBy K j items → SentBy K j' items'
  answer : ∀ K ≤ n, s.reply = [] ∨ K ≤ top → s'.reply = [] ∨ K ≤ top'

namespace Onward

variable {n n' j j' j'' top top' top'' : Nat} {items items' items'' : List (Nat × Message)}
  {s s' s'' : System}

/-- Nothing of it has changed. -/
theorem same (h : s'.reply = s.reply) : Onward n j items top s j items top s' where
  shown := Nat.le_refl j
  sent _ hK := hK
  answer K _ hK := by rwa [h]

theorem trans (h1 : Onward n j items top s j' items' top' s')
    (h2 : Onward n' j' items' top' s' j'' items'' top'' s'') (hn : n ≤ n') :
    Onward n j items top s j'' items'' top'' s'' where
  shown := h1.shown.trans h2.shown
  sent K hK := h2.sent K (h1.sent K hK)
  answer K hle hK := h2.answer K (hle.trans hn) (h1.answer K hle hK)

end Onward

theorem SentBy.more {K j : Nat} {items : List (Nat × Message)} (h : SentBy K j items)
    (more : List (Nat × Message)) : SentBy K j (items ++ more) := by
  rcases h with h | ⟨x, hx, hK⟩
  · exact .inl h
  · exact .inr ⟨x, List.mem_append_left _ hx, hK⟩

/-! ## The parts -/

namespace Flow

variable {d0 : SatData} {ms : List Monitor} {req : Bytes} {j top : Nat}
  {items : List (Nat × Message)} {s : System}

theorem collect (h : Flow d0 ms req j items top s) (m : Monitor) :
    Flow d0 (ms ++ [m]) req j items top { s with api := { s.api with monitor := m } } where
  monitor := List.getLast?_concat
  polling := h.polling.append [m]
  reading := h.reading
  carries x hx := (h.carries x hx).append [m]
  order := h.order
  bound := h.bound.trans (by rw [List.length_append]; exact Nat.le_add_right _ _)
  shown := h.shown.append [m]

/-- Other clients do not touch the monitor. -/
theorem client (h : Flow d0 ms req j items top s) (i : Nat) (ev : ConnEvent)
    (clients : Nat → Conn) : Flow d0 ms req j items top { s with
      api := (httpCb apiRoutesHandle s.api (s.clients i) ev).1.1, clients := clients } where
  monitor := by
    have hown : stalledOf s.clients i = (s.clients i).isResp := rfl
    rw [h.monitor, (Configured.exchanges (httpCb_exchanges ev s.api hown)).monitor]
  polling := h.polling
  reading := h.reading
  carries := h.carries
  order := h.order
  bound := h.bound
  shown := h.shown

/-- The next frame is put on the line. -/
theorem send (h : Flow d0 ms req j items top s) {f : Message} (hc : Carries ms top f) :
    Flow d0 ms req j (items ++ [(top, f)]) top { s with wire := s.wire ++ f.frame } where
  monitor := h.monitor
  polling := h.polling
  reading := by
    rw [List.map_append]
    exact h.reading.append f
  carries := List.forall_mem_append.mpr ⟨h.carries, by simpa using hc⟩
  order := by
    have hlast : ∀ a ∈ j :: (items.map Prod.fst ++ [top]), a ≤ top := by
      have horder := h.order
      rw [← List.cons_append, List.pairwise_append] at horder
      intro a ha
      rw [← List.cons_append] at ha
      rcases List.mem_append.mp ha with ha | ha
      · exact horder.2.2 a ha top List.mem_cons_self
      · exact (List.mem_singleton.mp ha).le
    rw [List.map_append, ← List.cons_append]
    refine List.pairwise_append.mpr ⟨h.order, List.pairwise_singleton _ _, fun a ha b hb => ?_⟩
    rw [List.mem_singleton.mp hb]
    exact hlast a ha
  bound := h.bound
  shown := h.shown

/-- The next request. -/
theorem next (h : Flow d0 ms req j items top s) (hreq : req ≠ []) (clients : Nat → Conn)
    (feeder : Feeder) : Flow d0 ms req j items top { s with
      clients := clients, conn := .accepted, request := req, reply := [], feeder := feeder } where
  monitor := h.monitor
  polling := .waiting rfl (List.length_pos_iff.mpr hreq)
  reading := h.reading
  carries := h.carries
  order := h.order
  bound := h.bound
  shown := h.shown

theorem arrive (hfit : ∀ m ∈ ms, MonitorFits (asRead m)) (h : Flow d0 ms req j items top s)
    (times : List UInt32) : ∃ j' done items', items = done ++ items' ∧ j ≤ j' ∧
      (∀ x ∈ done, x.2.msgType = satMsgSnapshot → x.1 ≤ j') ∧ Flow d0 ms req j' items' top { s with
        wire := s.wire.drop times.length, display := feed s.display (times.zip s.wire) } := by
  obtain ⟨done, left, d', hsplit, htakes, hreading⟩ := h.reading.arrive (map_zip_take times s.wire)
  obtain ⟨items1, items2, rfl, rfl, rfl⟩ := List.map_eq_append_iff.mp hsplit
  have hdata : (feed s.display (times.zip s.wire)).data = d' := hreading.data_eq
  have horder := h.order
  rw [List.map_append, List.append_assoc] at horder
  have hcarries := h.carries
  rw [List.forall_mem_append] at hcarries
  obtain ⟨j', hle, hsnap, hshows, horder'⟩ :=
    takesAll_shows hfit htakes hcarries.1 h.shown horder
  refine ⟨j', items1, items2, rfl, hle, hsnap, h.monitor, h.polling, ?_, hcarries.2, horder',
    h.bound, ?_⟩
  · show Reading (feed s.display (times.zip s.wire)).data _ _ _
    rw [hdata]
    exact hreading
  · show ShowsState d0 ms j' (feed s.display (times.zip s.wire)).data
    rw [hdata]
    exact hshows

theorem check (h : Flow d0 ms req j items top s) (now : UInt32) : Flow d0 ms req j items top
    { s with display := { s.display with data := satDataCheckConnection s.display.data now } } where
  monitor := h.monitor
  polling := h.polling
  reading := h.reading.setData _
  carries := h.carries
  order := h.order
  bound := h.bound
  shown := h.shown.congr (view_checkConnection _ now)

/-- The feeder's connection. -/
theorem own {host : CStr} {port : Int} (hhost : Printable host.bytes)
    (hfits : (getRequest statusTarget host port).length < sizeofReq)
    (h : Flow d0 ms (getRequest statusTarget host port) j items top s) {ev : ConnEvent}
    (hev : ev.isClose = false) {rest : Bytes} (hrequest : received [ev] ++ rest = s.request) :
    ∃ top', Onward ms.length j items top s j items top' { s.onConn ev with request := rest } ∧
      Flow d0 ms (getRequest statusTarget host port) j items top'
        { s.onConn ev with request := rest } := by
  obtain ⟨api, clients, conn, request, reply, feeder, wire, display⟩ := s
  obtain ⟨hmonitor, hpolling, hreading, hcarries, horder, hbound, hshown⟩ := h
  dsimp only at hmonitor hpolling hreading hshown hrequest
  unfold System.onConn
  dsimp only
  cases hpolling with
  | @waiting part _ hreq hshort =>
    rw [← hrequest, ← List.append_assoc] at hreq
    rcases httpCb_waiting hhost hfits api hev hreq hshort with ⟨hmore, hcb⟩ | ⟨rfl, hcb⟩
    · rw [hcb]
      exact ⟨top, .same rfl, hmonitor, .waiting hreq hmore, hreading, hcarries, horder, hbound,
        hshown⟩
    · -- The answer is the monitor as it is now.
      rw [hcb]
      refine ⟨ms.length, ⟨Nat.le_refl j, fun _ hK => hK, fun _ hK _ => .inr hK⟩, hmonitor, ?_,
        hreading, hcarries, ?_, Nat.le_refl _, hshown⟩
      · show Polling ms ms.length _ _ _ ([] ++ ([sendJson (apiJsonStatus api.monitor)].flatten))
        rw [List.flatten_singleton, List.nil_append]
        exact .answered (numbered_last hmonitor)
      · rw [← List.cons_append, List.pairwise_append] at horder ⊢
        refine ⟨horder.1, List.pairwise_singleton _ _, fun a ha b hb => ?_⟩
        rw [List.mem_singleton.mp hb]
        exact (horder.2.2 a ha top List.mem_cons_self).trans hbound
  | @answered m hm =>
    obtain ⟨hnone, rfl⟩ := List.append_eq_nil_iff.mp hrequest
    rw [httpCb_idle apiRoutesHandle api rfl hev hnone]
    refine ⟨top, .same (List.append_nil _), hmonitor, ?_, hreading, hcarries, horder, hbound,
      hshown⟩
    show Polling ms top _ _ _ (sendJson (apiJsonStatus m) ++ (sendsOf []).flatten)
    rw [show (sendsOf []).flatten = [] from rfl, List.append_nil]
    exact .answered hm

/-- A frame of which the line takes all or nothing. -/
theorem write (h : Flow d0 ms req j items top s) {f : Message} (hc : Carries ms top f)
    {taken : Bytes} (htaken : taken = f.frame ∨ taken = []) :
    ∃ more, (taken = f.frame → (top, f) ∈ more) ∧
      Flow d0 ms req j (items ++ more) top { s with wire := s.wire ++ taken } := by
  rcases htaken with rfl | rfl
  · exact ⟨_, fun _ => List.mem_singleton_self _, h.send hc⟩
  · refine ⟨[], fun hnone => absurd hnone.symm f.frame_ne_nil, ?_⟩
    rw [List.append_nil, List.append_nil]
    exact h

/-- The end of a fetch. What the feeder takes over is written. -/
theorem fetched (h : Flow d0 ms req j items top s) (hreq : req ≠ []) (clients : Nat → Conn)
    {cuts : List Nat} {took : Nat} {clock : UInt32} {writes : List WriteResult} (feeder : Feeder)
    (huncut : ∀ x ∈ (s.feeder.iterate (s.fetch cuts took clock) writes).2,
      x.taken = x.frame ∨ x.taken = []) :
    ∃ more, (∀ root, (s.fetch cuts took clock).reply = .json root →
        (∀ x ∈ (s.feeder.iterate (s.fetch cuts took clock) writes).2, x.taken = x.frame) →
        s.reply ≠ [] ∧ ∃ x ∈ more, x.2.msgType = satMsgSnapshot ∧ x.1 = top) ∧
      Flow d0 ms req j (items ++ more) top { s with
        clients := clients, conn := .accepted, request := req, reply := [], feeder := feeder
        wire := s.wire ++
          (s.feeder.iterate (s.fetch cuts took clock) writes).2.flatMap Sent.taken } := by
  rcases s.feeder.iterate_sent (s.fetch cuts took clock) writes with
    ⟨root, hjson, hsent⟩ | ⟨hnone, hsent | hsent⟩
  · obtain ⟨hreply, m, hm, rfl⟩ := h.polling.fetched hjson
    have hcarries : Carries ms top (snapshotMessage (some (CJson.reread (apiJsonStatus m)))
        (s.fetch cuts took clock).clock s.feeder.seq) := .inr ⟨m, _, _, hm, rfl⟩
    rw [hsent, List.forall_mem_singleton, Feeder.send_taken, Feeder.send_frame] at huncut
    rw [hsent, List.flatMap_singleton, List.forall_mem_singleton, Feeder.send_taken,
      Feeder.send_frame]
    obtain ⟨more, hmem, hflow⟩ := h.write hcarries huncut
    exact ⟨more, fun _ _ hwhole => ⟨hreply, _, hmem hwhole, rfl, rfl⟩,
      hflow.next hreq clients feeder⟩
  · have hbeat : Carries ms top (heartbeatMessage (s.fetch cuts took clock).clock s.feeder.seq) :=
      .inl (by decide : satMsgHeartbeat ≠ satMsgSnapshot)
    rw [hsent, List.forall_mem_singleton, Feeder.send_taken, Feeder.send_frame] at huncut
    rw [hsent, List.flatMap_singleton, Feeder.send_taken]
    obtain ⟨more, -, hflow⟩ := h.write hbeat huncut
    exact ⟨more, fun root hjson => absurd hjson (hnone root), hflow.next hreq clients feeder⟩
  · rw [hsent, List.flatMap_nil, List.append_nil]
    refine ⟨[], fun root hjson => absurd hjson (hnone root), ?_⟩
    rw [List.append_nil]
    exact h.next hreq clients feeder

/-- **One step** of the system, whichever part takes it. -/
theorem step {host : CStr} {port : Int} (hhost : Printable host.bytes)
    (hfits : (getRequest statusTarget host port).length < sizeofReq)
    (hfit : ∀ m ∈ ms, MonitorFits (asRead m))
    (h : Flow d0 ms (getRequest statusTarget host port) j items top s) {e : SystemEvent}
    (huncut : s.Uncut e) :
    ∃ j' items' top', Onward ms.length j items top s j' items' top' (s.step host port e) ∧
      Flow d0 (ms ++ collected [e]) (getRequest statusTarget host port) j' items' top'
        (s.step host port e) := by
  have hreq : getRequest statusTarget host port ≠ [] := getRequest_ne_nil hhost
  have hsame : ms ++ [] = ms := List.append_nil ms
  cases e with
  | collect m => exact ⟨j, items, top, .same rfl, h.collect m⟩
  | client i ev =>
    refine ⟨j, items, top, .same rfl, ?_⟩
    show Flow d0 (ms ++ []) _ _ _ _ _
    rw [hsame]
    exact h.client i ev _
  | serve n behind =>
    have hread : received [.read (s.request.take n) behind] ++ s.request.drop n = s.request := by
      rw [received, List.flatMap_singleton, List.take_append_drop]
    obtain ⟨top', honward, hflow⟩ := h.own hhost hfits rfl hread
    refine ⟨j, items, top', honward, ?_⟩
    show Flow d0 (ms ++ []) _ _ _ _ _
    rw [hsame]
    exact hflow
  | poll behind =>
    have hread : received [.poll behind] ++ s.request = s.request := rfl
    obtain ⟨top', honward, hflow⟩ := h.own hhost hfits rfl hread
    refine ⟨j, items, top', honward, ?_⟩
    show Flow d0 (ms ++ []) _ _ _ _ _
    rw [hsame]
    exact hflow
  | fetched cuts took clock old writes =>
    show ∃ j' items' top', _ ∧ Flow d0 (ms ++ []) _ _ _ _ _
    rw [hsame]
    unfold System.step
    dsimp only
    split
    · next hgoes =>
      obtain ⟨more, -, hflow⟩ := h.fetched hreq (Function.update s.clients old s.conn)
        (s.feeder.iterate (s.fetch cuts took clock) writes).1 (huncut hgoes)
      exact ⟨j, items ++ more, top,
        ⟨Nat.le_refl j, fun _ hK => hK.more more, fun _ _ _ => .inl rfl⟩, hflow⟩
    · exact ⟨j, items, top, .same rfl, h⟩
  | arrive times =>
    obtain ⟨j', done, items', rfl, hle, hsnap, hflow⟩ := h.arrive hfit times
    refine ⟨j', items', top, ⟨hle, fun K hK => ?_, fun _ _ hK => hK⟩, ?_⟩
    · rcases hK with hK | ⟨x, hx, hx', hK⟩
      · exact .inl (hK.trans hle)
      · rcases List.mem_append.mp hx with hx | hx
        · exact .inl (hK.trans (hsnap x hx hx'))
        · exact .inr ⟨x, hx, hx', hK⟩
    · show Flow d0 (ms ++ []) _ _ _ _ _
      rw [hsame]
      exact hflow
  | check now =>
    refine ⟨j, items, top, .same rfl, ?_⟩
    show Flow d0 (ms ++ []) _ _ _ _ _
    rw [hsame]
    exact h.check now

end Flow

end NetMon.Satellite
