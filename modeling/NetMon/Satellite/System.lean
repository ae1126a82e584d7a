import NetMon.Satellite.Line
import NetMon.Satellite.Parsed
import NetMon.Satellite.Poll

/-!
# From the monitor to the display

The collector, the API with all its clients, the feeder, the serial line and the receiver as one
machine, whose parts take their steps in any order. `Flow` says what is under way between them
while no frame is cut on its way to the line (`System.Uncut`): which state is shown, which are on
the line, and which one the feeder's request is answered with.
-/

namespace NetMon.Satellite

open NetMon.Lib NetMon.Core NetMon.Net NetMon.Api Receiver

/-! ## Pieces -/

/-- What a socket delivers of a text: each cut is one byte longer than its number. What lies behind
the last cut has not come in time. -/
def pieces : List Nat → Bytes → List Bytes
  | [], _ => []
  | n :: cuts, text =>
    if text = [] then [] else text.take (n + 1) :: pieces cuts (text.drop (n + 1))

theorem pieces_flatten (cuts : List Nat) (text : Bytes) : (pieces cuts text).flatten <+: text := by
  induction cuts generalizing text with
  | nil => exact List.nil_prefix
  | cons n cuts ih =>
    rw [pieces]
    split
    · exact List.nil_prefix
    · obtain ⟨rest, hrest⟩ := ih (text.drop (n + 1))
      refine ⟨rest, ?_⟩
      rw [List.flatten_cons, List.append_assoc, hrest, List.take_append_drop]

theorem pieces_ne_nil (cuts : List Nat) (text : Bytes) : ∀ p ∈ pieces cuts text, p ≠ [] := by
  induction cuts generalizing text with
  | nil => exact nofun
  | cons n cuts ih =>
    rw [pieces]
    split
    · exact nofun
    · next hne =>
      refine List.forall_mem_cons.mpr ⟨?_, ih _⟩
      rw [Ne, List.take_eq_nil_iff]
      exact not_or.mpr ⟨Nat.succ_ne_zero n, hne⟩

/-! ## The machine -/

/-- The monitor's host and the satellite. `conn` is the feeder's connection at the server,
`request` what the server has not read of the feeder's request, `reply` what it has sent to it, and
`wire` what the serial device has taken and the satellite has not read. -/
structure System where
  api : ApiState
  clients : Nat → Conn
  conn : Conn
  request : Bytes
  reply : Bytes
  feeder : Feeder
  wire : Bytes
  display : Receiver

inductive SystemEvent where
  /-- The collector is done with a cycle. -/
  | collect (m : Monitor)
  /-- Another client of the API. -/
  | client (i : Nat) (ev : ConnEvent)
  /-- The server reads some bytes of the feeder's request. -/
  | serve (n : Nat) (behind : Bytes)
  /-- The server polls the feeder's connection. -/
  | poll (behind : Bytes)
  /-- `http_get` returns with what has come until then, and the iteration goes on. The connection it
  leaves is one of the others from then on. -/
  | fetched (cuts : List Nat) (took : Nat) (clock : UInt32) (old : Nat) (writes : List WriteResult)
  /-- The satellite reads some bytes off the line, each at its time. -/
  | arrive (times : List UInt32)
  /-- The satellite checks its connection. -/
  | check (now : UInt32)

namespace System

/-- An event of the feeder's connection. -/
def onConn (s : System) (ev : ConnEvent) : System :=
  let r := httpCb apiRoutesHandle s.api s.conn ev
  { s with api := r.1.1, conn := r.1.2, reply := s.reply ++ (sendsOf r.2).flatten }

/-- What the feeder gets. -/
def fetch (s : System) (cuts : List Nat) (took : Nat) (clock : UInt32) : Fetch :=
  ⟨took, fetchReply (pieces cuts s.reply), clock⟩

def step (host : CStr) (port : Int) (s : System) : SystemEvent → System
  | .collect m => { s with api := { s.api with monitor := m } }
  | .client i ev =>
    let r := httpCb apiRoutesHandle s.api (s.clients i) ev
    { s with api := r.1.1, clients := Function.update s.clients i r.1.2 }
  | .serve n behind =>
    { s.onConn (.read (s.request.take n) behind) with request := s.request.drop n }
  | .poll behind => s.onConn (.poll behind)
  | .fetched cuts took clock old writes =>
    if s.feeder.running then
      let r := s.feeder.iterate (s.fetch cuts took clock) writes
      { s with
        clients := Function.update s.clients old s.conn
        conn := .accepted
        request := getRequest statusTarget host port
        reply := []
        feeder := r.1
        wire := s.wire ++ r.2.flatMap Sent.taken }
    else s
  | .arrive times =>
    { s with
      wire := s.wire.drop times.length
      display := feed s.display (times.zip s.wire) }
  | .check now =>
    { s with display := { s.display with data := satDataCheckConnection s.display.data now } }

theorem step_fetched {host : CStr} {port : Int} {s : System} (h : s.feeder.running = true)
    (cuts : List Nat) (took : Nat) (clock : UInt32) (old : Nat) (writes : List WriteResult) :
    let r := s.feeder.iterate (s.fetch cuts took clock) writes
    s.step host port (.fetched cuts took clock old writes) = { s with
      clients := Function.update s.clients old s.conn
      conn := .accepted
      request := getRequest statusTarget host port
      reply := []
      feeder := r.1
      wire := s.wire ++ r.2.flatMap Sent.taken } :=
  if_pos h

/-- The system over its events. -/
def machine (host : CStr) (port : Int) : Machine System SystemEvent Unit where
  step := step host port
  out _ _ := []

/-- What the step writes is taken by the line whole or not at all. -/
def Uncut (s : System) : SystemEvent → Prop
  | .fetched cuts took clock _ writes => s.feeder.running = true →
    ∀ x ∈ (s.feeder.iterate (s.fetch cuts took clock) writes).2, x.taken = x.frame ∨ x.taken = []
  | _ => True

/-- The feeder has sent its first request, and nothing has come to the satellite. -/
def start (host : CStr) (port : Int) (api : ApiState) (display : Receiver) : System where
  api := api
  clients _ := .accepted
  conn := .accepted
  request := getRequest statusTarget host port
  reply := []
  feeder := Feeder.start
  wire := []
  display := display

end System

/-- What the collector has come to. -/
def collected (es : List SystemEvent) : List Monitor :=
  es.filterMap fun
    | .collect m => some m
    | _ => none

/-! ## What is shown -/

/-- The state with the number `k`, counted from one. -/
def Numbered (ms : List Monitor) (k : Nat) (m : Monitor) : Prop := ∃ i, k = i + 1 ∧ ms[i]? = some m

/-- What the satellite shows of the monitor, without the state of its link. -/
def SatData.view (d : SatData) : SatData :=
  { d with connected := false, lastRxTime := 0, lastSeq := 0, rxFrames := 0 }

/-- The satellite shows the state with the number `k`; with 0, what it showed at first. -/
def ShowsState (d0 : SatData) (ms : List Monitor) (k : Nat) (d : SatData) : Prop :=
  (k = 0 ∧ d.view = d0.view) ∨ ∃ m, Numbered ms k m ∧ Shown (asRead m) d

theorem Numbered.append {ms : List Monitor} {k : Nat} {m : Monitor} (h : Numbered ms k m)
    (more : List Monitor) : Numbered (ms ++ more) k m := by
  obtain ⟨i, rfl, hi⟩ := h
  obtain ⟨hlt, -⟩ := List.getElem?_eq_some_iff.mp hi
  exact ⟨i, rfl, by rw [List.getElem?_append_left hlt, hi]⟩

theorem Numbered.le {ms : List Monitor} {k : Nat} {m : Monitor} (h : Numbered ms k m) :
    k ≤ ms.length := by
  obtain ⟨i, rfl, hi⟩ := h
  obtain ⟨hlt, -⟩ := List.getElem?_eq_some_iff.mp hi
  exact hlt

theorem Numbered.mem {ms : List Monitor} {k : Nat} {m : Monitor} (h : Numbered ms k m) :
    m ∈ ms := by
  obtain ⟨i, -, hi⟩ := h
  exact List.mem_of_getElem? hi

/-- The last state has the number of all of them. -/
theorem numbered_last {ms : List Monitor} {m : Monitor} (h : ms.getLast? = some m) :
    Numbered ms ms.length m := by
  obtain ⟨init, rfl⟩ := List.getLast?_eq_some_iff.mp h
  exact ⟨init.length, by rw [List.length_append, List.length_singleton],
    by rw [List.getElem?_append_right (Nat.le_refl _), Nat.sub_self]; rfl⟩

theorem ShowsState.append {d0 d : SatData} {ms : List Monitor} {k : Nat}
    (h : ShowsState d0 ms k d) (more : List Monitor) : ShowsState d0 (ms ++ more) k d := by
  rcases h with h | ⟨m, hm, hshown⟩
  · exact .inl h
  · exact .inr ⟨m, hm.append more, hshown⟩

theorem ShowsState.le {d0 d : SatData} {ms : List Monitor} {k : Nat} (h : ShowsState d0 ms k d) :
    k ≤ ms.length := by
  rcases h with ⟨rfl, -⟩ | ⟨m, hm, -⟩
  · exact Nat.zero_le _
  · exact hm.le

/-- Of all the states the newest one is shown. -/
theorem ShowsState.newest {d0 d : SatData} {ms : List Monitor} {m : Monitor}
    (h : ShowsState d0 ms ms.length d) (hlast : ms.getLast? = some m) : Shown (asRead m) d := by
  rcases h with ⟨hnone, -⟩ | ⟨m', ⟨i, hi, hget⟩, hshown⟩
  · rw [List.length_eq_zero_iff.mp hnone] at hlast
    cases hlast
  · rw [List.getLast?_eq_getElem?, hi, Nat.add_sub_cancel, hget] at hlast
    exact Option.some.inj hlast ▸ hshown

/-- Only the view matters. -/
theorem ShowsState.congr {d0 d d' : SatData} {ms : List Monitor} {k : Nat}
    (h : ShowsState d0 ms k d) (hview : d'.view = d.view) : ShowsState d0 ms k d' := by
  rcases h with ⟨hk, hsame⟩ | ⟨m, hm, hshown⟩
  · exact .inl ⟨hk, hview.trans hsame⟩
  · refine .inr ⟨m, hm, ?_⟩
    have hfield : ∀ {β : Type} (f : SatData → β), (∀ d, f d.view = f d) → f d' = f d :=
      fun f hf => by rw [← hf d', hview, hf]
    constructor
    · rw [hfield SatData.numIfaces fun _ => rfl]
      exact hshown.numIfaces
    · rw [hfield SatData.ifaces fun _ => rfl]
      exact hshown.rows
    · rw [hfield SatData.gwUp fun _ => rfl]
      exact hshown.gwUp
    · rw [hfield SatData.dnsUp fun _ => rfl]
      exact hshown.dnsUp
    · rw [hfield SatData.dnsResolves fun _ => rfl]
      exact hshown.dnsResolves
    · rw [hfield SatData.wanUp fun _ => rfl]
      exact hshown.wanUp
    · rw [hfield SatData.gwLatencyMs fun _ => rfl]
      exact hshown.gwLatency
    · rw [hfield SatData.dnsLatencyMs fun _ => rfl]
      exact hshown.dnsLatency
    · rw [hfield SatData.wanLatencyMs fun _ => rfl]
      exact hshown.wanLatency
    · rw [hfield SatData.wanJitterMs fun _ => rfl]
      exact hshown.wanJitter
    · rw [hfield SatData.wanLossPct fun _ => rfl]
      exact hshown.wanLoss
    · rw [hfield SatData.activeAlerts fun _ => rfl]
      exact hshown.active
    · rw [hfield SatData.uptimeSec fun _ => rfl]
      exact hshown.uptime

/-! ## What is on its way -/

/-- What the feeder makes of the reply to its request. -/
def statusMessage (m : Monitor) (now : UInt32) (seq : UInt16) : Message :=
  snapshotMessage (some (CJson.reread (apiJsonStatus m))) now seq

/-- Of a status the feeder makes one frame. -/
theorem Feeder.iterate_status (s : Feeder) {f : Fetch} {m : Monitor}
    (h : f.reply = .json (CJson.reread (apiJsonStatus m))) (writes : List WriteResult) :
    (s.iterate f writes).2 = [{ s with now := s.now + f.took }.send
      (statusMessage m f.clock s.seq).frame writes] := by
  rcases s.iterate_sent f writes with ⟨root, hjson, hsent⟩ | ⟨hnone, -⟩
  · obtain rfl := Reply.json.inj (h.symm.trans hjson)
    exact hsent
  · exact absurd h (hnone _)

/-- A frame on the line: a heartbeat, or the state with the number `k`. -/
def Carries (ms : List Monitor) (k : Nat) (f : Message) : Prop :=
  f.msgType ≠ satMsgSnapshot ∨ ∃ m now seq, Numbered ms k m ∧ f = statusMessage m now seq

/-- The feeder's connection, what is left of its request and its reply: the request is on its way,
or it has been answered with the state with the number `k`. -/
inductive Polling (ms : List Monitor) (k : Nat) (req : Bytes) : Conn → Bytes → Bytes → Prop
  | waiting {part request : Bytes} (hreq : part ++ request = req)
      (hshort : part.length < req.length) : Polling ms k req ⟨part, false, false, false⟩ request []
  | answered {m : Monitor} (hm : Numbered ms k m) :
      Polling ms k req ⟨[], false, true, false⟩ [] (sendJson (apiJsonStatus m))

/-- What holds of the system when the satellite shows the state `j`, the frames `items` are on the
line, each with the number of its state, and the last answered request has got the state `top`. -/
structure Flow (d0 : SatData) (ms : List Monitor) (req : Bytes) (j : Nat)
    (items : List (Nat × Message)) (top : Nat) (s : System) : Prop where
  monitor : ms.getLast? = some s.api.monitor
  polling : Polling ms top req s.conn s.request s.reply
  reading : Reading s.display.data s.display s.wire (items.map Prod.snd)
  carries : ∀ x ∈ items, Carries ms x.1 x.2
  order : (j :: (items.map Prod.fst ++ [top])).Pairwise (· ≤ ·)
  bound : top ≤ ms.length
  shown : ShowsState d0 ms j s.display.data

theorem view_markAlive (d : SatData) (now : UInt32) (seq : UInt16) :
    (satDataMarkAlive d now seq).view = d.view := rfl

theorem view_checkConnection (d : SatData) (now : UInt32) :
    (satDataCheckConnection d now).view = d.view := by
  unfold satDataCheckConnection
  split <;> rfl

section Takes

variable {d0 d d' : SatData} {ms : List Monitor} {j k : Nat}

/-- A frame that is taken over leaves what is shown, or shows its state. -/
theorem takes_shows (hfit : ∀ m ∈ ms, MonitorFits (asRead m)) {f : Message} (h : Takes d f d')
    (hc : Carries ms k f) (hs : ShowsState d0 ms j d) :
    ∃ j', (j' = k ∨ j' = j ∧ f.msgType ≠ satMsgSnapshot) ∧ ShowsState d0 ms j' d' := by
  obtain ⟨r, hr, rfl, s, hframe, rfl⟩ := h
  rcases hc with hbeat | ⟨m, now, seq, hm, rfl⟩
  · obtain ⟨a, i, rfl⟩ := split_last hframe f.frame_ne_nil
    have hrun := (run_message f hr a i hframe).1
    rw [if_neg hbeat] at hrun
    refine ⟨j, .inr ⟨rfl, hbeat⟩, hs.congr ?_⟩
    rw [feed, hrun]
    exact view_markAlive r.data i.1 f.sequence
  · have hf := hfit m hm.mem
    have hsignal : ∀ row ∈ m.state.rows, row.info.isWireless = true →
        row.wifi.signalDbm.natAbs < 10 ^ 15 := by
      intro row hrow hw
      have hread : rowAsRead row ∈ (asRead m).state.rows := by
        have hrows : (asRead m).state.rows = m.state.rows.map rowAsRead := by
          rw [NetState.rows, NetState.rows, List.map_map]
          rfl
        rw [hrows]
        exact List.mem_map_of_mem hrow
      obtain ⟨hlow, hhigh⟩ : -128 ≤ row.wifi.signalDbm ∧ row.wifi.signalDbm ≤ 127 :=
        (hf.rows _ hread).signal hw
      omega
    have hloss : m.wan.wanPacketLossPct.natAbs < 10 ^ 15 := by
      obtain ⟨hlow, hhigh⟩ : 0 ≤ m.wan.wanPacketLossPct ∧ m.wan.wanPacketLossPct ≤ 100 := hf.loss
      omega
    have hactive : alertsActiveCount m.alerts < 256 := hf.active
    have hencoded : (encoderJsonToFrame (some (CJson.reread (apiJsonStatus m))) now satMaxFrameSize
        seq).1 = some (s.map Prod.snd) := by
      rw [encoderJsonToFrame_eq, hframe]
      rfl
    obtain ⟨t, hdata⟩ := feed_encoded hr hencoded
    refine ⟨k, .inl rfl, .inr ⟨m, hm, ?_⟩⟩
    rw [hdata, encodeSnapshot_reread hactive hloss, encodeIfaces_reread hsignal]
    exact update_shown hf _ now

/-- Frames that are taken over one after the other. -/
theorem takesAll_shows (hfit : ∀ m ∈ ms, MonitorFits (asRead m)) {items : List (Nat × Message)}
    (h : TakesAll d (items.map Prod.snd) d') (hc : ∀ x ∈ items, Carries ms x.1 x.2)
    (hs : ShowsState d0 ms j d) {rest : List Nat}
    (horder : (j :: (items.map Prod.fst ++ rest)).Pairwise (· ≤ ·)) :
    ∃ j', j ≤ j' ∧ (∀ x ∈ items, x.2.msgType = satMsgSnapshot → x.1 ≤ j') ∧
      ShowsState d0 ms j' d' ∧ (j' :: rest).Pairwise (· ≤ ·) := by
  induction items generalizing d j with
  | nil =>
    cases h
    exact ⟨j, Nat.le_refl j, nofun, hs, horder⟩
  | cons x items ih =>
    obtain ⟨k, f⟩ := x
    rw [List.forall_mem_cons] at hc
    obtain ⟨hfirst, hlater⟩ := List.pairwise_cons.mp horder
    cases h with
    | @cons _ d1 _ _ _ htake hrest =>
      obtain ⟨j1, hj1, hs1⟩ := takes_shows hfit htake hc.1 hs
      have hle : j ≤ j1 := by
        rcases hj1 with rfl | ⟨rfl, -⟩
        · exact hfirst _ List.mem_cons_self
        · exact Nat.le_refl _
      have horder1 : (j1 :: (items.map Prod.fst ++ rest)).Pairwise (· ≤ ·) := by
        obtain ⟨hnext, htail⟩ := List.pairwise_cons.mp hlater
        refine List.pairwise_cons.mpr ⟨fun i hi => ?_, htail⟩
        rcases hj1 with rfl | ⟨rfl, -⟩
        · exact hnext i hi
        · exact hfirst i (List.mem_cons_of_mem _ hi)
      obtain ⟨j', hle', hsnap, hs', horder'⟩ := ih hrest hc.2 hs1 horder1
      refine ⟨j', hle.trans hle', List.forall_mem_cons.mpr ⟨fun hf => ?_, hsnap⟩, hs', horder'⟩
      rcases hj1 with rfl | ⟨-, hbeat⟩
      · exact hle'
      · exact absurd hf hbeat

end Takes

/-! ## The feeder's connection -/

section Poll

variable {host : CStr} {port : Int} (hhost : Printable host.bytes)

theorem httpCb_idle {σ : Type*} (h : Handler σ) (s : σ) {c : Conn} (hc : c.recv = [])
    {ev : ConnEvent} (hev : ev.isClose = false) (hnone : received [ev] = []) :
    httpCb h s c ev = ((s, c), []) := by
  cases ev with
  | close behind => cases hev
  | read piece behind =>
    obtain ⟨recv, isResp, isDraining, isClosing⟩ := c
    obtain rfl : recv = [] := hc
    rw [received, List.flatMap_singleton] at hnone
    obtain rfl : piece = [] := hnone
    rw [httpCb]
    dsimp only
    rw [List.append_nil, httpLoop, if_pos (.inr rfl)]
  | poll behind => rw [httpCb, if_pos (.inr hc)]

include hhost

theorem getRequest_ne_nil : getRequest statusTarget host port ≠ [] := by
  rw [← pollRequest_bytes host port hhost, ← List.length_pos_iff, Request.length_bytes]
  exact Nat.add_pos_left (pollRequest host port hhost).head_pos _

/-- While the request is on its way the server waits for the rest of it, or has got it whole and
answers it with the monitor's state. -/
theorem httpCb_waiting (hfits : (getRequest statusTarget host port).length < sizeofReq)
    (api : ApiState) {ev : ConnEvent} (hev : ev.isClose = false) {part rest : Bytes}
    (hreq : part ++ received [ev] ++ rest = getRequest statusTarget host port)
    (hshort : part.length < (getRequest statusTarget host port).length) :
    ((part ++ received [ev]).length < (getRequest statusTarget host port).length ∧
      httpCb apiRoutesHandle api ⟨part, false, false, false⟩ ev =
        ((api, ⟨part ++ received [ev], false, false, false⟩), [])) ∨
    (rest = [] ∧ httpCb apiRoutesHandle api ⟨part, false, false, false⟩ ev =
      ((api, ⟨[], false, true, false⟩),
        [.message (pollRequest host port hhost).request,
          .send (sendJson (apiJsonStatus api.monitor))])) := by
  have hbytes := pollRequest_bytes host port hhost
  have hall : [pollRequest host port hhost].flatMap Request.bytes =
      getRequest statusTarget host port := by rw [List.flatMap_singleton, hbytes]
  have hsize : ([pollRequest host port hhost].flatMap Request.bytes).length < 2 ^ 32 := by
    rw [hall]
    exact hfits.trans (by decide)
  have hreply : ∀ s, ∀ r ∈ [pollRequest host port hhost],
      (apiRoutesHandle s r.request).2.2 = false := by
    intro s r hr
    rw [List.mem_singleton.mp hr, handle_poll]
  have hhead : ∀ r ∈ [pollRequest host port hhost].head?, part.length < r.bytes.length := by
    rintro r ⟨⟩
    rw [hbytes]
    exact hshort
  have hlast : ∀ r ∈ [pollRequest host port hhost].dropLast, wantsClose r.hm = false := by
    rw [List.dropLast_singleton]
    exact nofun
  obtain ⟨served, left, part', hprog, hcb⟩ := httpCb_serves hev hlast hreply (hreq.trans hall.symm)
    hhead nofun hsize api false
  cases served with
  | nil =>
    obtain rfl : left = [pollRequest host port hhost] := hprog.split.symm
    have hpart : part' = part ++ received [ev] := hprog.bytes.symm
    have hmore := hprog.short _ rfl
    rw [hbytes, hpart] at hmore
    exact .inl ⟨hmore, by rw [hcb, hpart]; rfl⟩
  | cons r served =>
    obtain ⟨rfl, hnil⟩ := List.cons_eq_cons.mp hprog.split
    obtain ⟨rfl, rfl⟩ := List.append_eq_nil_iff.mp hnil.symm
    obtain rfl := hprog.ended rfl
    have hgot : part ++ received [ev] = getRequest statusTarget host port := by
      rw [hprog.bytes, List.append_nil, hall]
    refine .inr ⟨?_, hcb⟩
    rw [hgot] at hreq
    exact List.append_right_eq_self.mp hreq

end Poll

end NetMon.Satellite
