import NetMon.Satellite.SystemStep

/-!
# Runs of the system

Behind every run in which no frame is cut on its way to the line, the display shows one of the
states the monitor has collected, the whole of it, and it never goes back to an older one
(`system_order`). A poll that gets through brings it up to date (`system_fresh`, `system_poll`).
-/

namespace NetMon.Satellite

open NetMon.Lib NetMon.Core NetMon.Net NetMon.Api Receiver

/-- A monitor of one wireless interface, on an API that has saved nothing yet. -/
def wirelessApi : ApiState where
  monitor := wirelessMonitor
  connections := []
  cfg := ⟨[], Nat.zero_le _⟩
  file := none
  writable _ := true
  screens _ := .absent

theorem wirelessMonitor_fits : ∀ m ∈ [wirelessMonitor], MonitorFits (asRead m) := by
  intro m hm
  rw [List.mem_singleton.mp hm]
  have hrow : ∀ row ∈ (asRead wirelessMonitor).state.rows,
      row = (asRead wirelessMonitor).state.ifaces 0 := by decide +kernel
  refine ⟨fun row hr => ?_, ?_, ?_, ?_, ?_, ?_, ?_⟩
  · rw [hrow row hr]
    refine ⟨?_, ?_, ?_, fun _ => ?_⟩ <;> first | (constructor <;> decide +kernel) | decide +kernel
  all_goals first | (constructor <;> decide +kernel) | decide +kernel

/-! ## Runs -/

section Run

variable {host : CStr} {port : Int} (hhost : Printable host.bytes)
  (hfits : (getRequest statusTarget host port).length < sizeofReq)

theorem collected_cons (e : SystemEvent) (es : List SystemEvent) :
    collected (e :: es) = collected [e] ++ collected es := by
  rw [collected, ← List.singleton_append, List.filterMap_append, ← collected, ← collected]

include hhost

theorem start_flow (api : ApiState) {display : Receiver} (hready : display.Ready) :
    Flow display.data [api.monitor] (getRequest statusTarget host port) 0 [] 0
      (System.start host port api display) where
  monitor := rfl
  polling := .waiting rfl (List.length_pos_iff.mpr (getRequest_ne_nil hhost))
  reading := .start hready
  carries := nofun
  order := by simp
  bound := Nat.zero_le _
  shown := .inl ⟨rfl, rfl⟩

include hfits

theorem Flow.run {d0 : SatData} {ms : List Monitor} {j top : Nat} {items : List (Nat × Message)}
    {s : System} (h : Flow d0 ms (getRequest statusTarget host port) j items top s)
    {es : List SystemEvent} (hfit : ∀ m ∈ ms ++ collected es, MonitorFits (asRead m))
    (huncut : (System.machine host port).Along System.Uncut s es) :
    ∃ j' items' top',
      Onward ms.length j items top s j' items' top' ((System.machine host port).exec s es) ∧
      Flow d0 (ms ++ collected es) (getRequest statusTarget host port) j' items' top'
        ((System.machine host port).exec s es) := by
  induction es generalizing ms j items top s with
  | nil =>
    refine ⟨j, items, top, .same rfl, ?_⟩
    rw [show collected [] = [] from rfl, List.append_nil]
    exact h
  | cons e es ih =>
    rw [collected_cons, ← List.append_assoc] at hfit ⊢
    obtain ⟨j1, items1, top1, honward1, hflow1⟩ := h.step hhost hfits
      (fun m hm => hfit m (List.mem_append_left _ (List.mem_append_left _ hm))) huncut.1
    obtain ⟨j', items', top', honward, hflow⟩ := ih hflow1 hfit huncut.2
    refine ⟨j', items', top', honward1.trans honward ?_, hflow⟩
    rw [List.length_append]
    exact Nat.le_add_right _ _

/-- What the feeder takes over of a reply it was still waiting for, and writes whole, is shown once
the line is empty. -/
theorem Flow.fresh {d0 : SatData} {ms : List Monitor} {j top : Nat} {items : List (Nat × Message)}
    {s u : System} (h : Flow d0 ms (getRequest statusTarget host port) j items top s)
    (hwait : s.reply = []) {es es' : List SystemEvent} {cuts : List Nat} {took old : Nat}
    {clock : UInt32} {writes : List WriteResult} {root : CJson}
    (hmid : (System.machine host port).exec s es = u) (hgoes : u.feeder.running = true)
    (hgot : (u.fetch cuts took clock).reply = .json root)
    (hwhole : ∀ x ∈ (u.feeder.iterate (u.fetch cuts took clock) writes).2, x.taken = x.frame)
    (hline : ((System.machine host port).exec u
      (.fetched cuts took clock old writes :: es')).wire = [])
    (hfit : ∀ m ∈ ms ++ collected es ++ collected es', MonitorFits (asRead m))
    (huncut : (System.machine host port).Along System.Uncut s es)
    (huncut' : (System.machine host port).Along System.Uncut
      (u.step host port (.fetched cuts took clock old writes)) es') :
    ∃ k, ms.length ≤ k ∧ ShowsState d0 (ms ++ collected es ++ collected es') k
      ((System.machine host port).exec u
        (.fetched cuts took clock old writes :: es')).display.data := by
  obtain ⟨j1, items1, top1, honward1, hflow1⟩ := h.run hhost hfits
    (fun m hm => hfit m (List.mem_append_left _ hm)) huncut
  rw [hmid] at honward1 hflow1
  obtain ⟨more, htaken, hflow2⟩ := hflow1.fetched (getRequest_ne_nil hhost)
    (Function.update u.clients old u.conn)
    (u.feeder.iterate (u.fetch cuts took clock) writes).1 fun x hx => .inl (hwhole x hx)
  obtain ⟨hreply, x, hx, hsnap, htop⟩ := htaken root hgot hwhole
  have hrecent : ms.length ≤ top1 := by
    rcases honward1.answer _ (Nat.le_refl _) (.inl hwait) with hnone | hle
    · exact absurd hnone hreply
    · exact hle
  have hsent : SentBy ms.length j1 (items1 ++ more) :=
    .inr ⟨x, List.mem_append_right _ hx, hsnap, htop ▸ hrecent⟩
  rw [← System.step_fetched hgoes] at hflow2
  obtain ⟨k, items', top', honward, hflow'⟩ := hflow2.run hhost hfits hfit huncut'
  have hreading := hflow'.reading
  have hempty : ((System.machine host port).exec
      (u.step host port (.fetched cuts took clock old writes)) es').wire = [] := hline
  rw [hempty] at hreading
  rcases honward.sent _ hsent with hk | ⟨y, hy, -⟩
  · exact ⟨k, hk, hflow'.shown⟩
  · rw [List.map_eq_nil_iff.mp hreading.drained] at hy
    cases hy

/-- The server reads a whole request that it has not answered. -/
theorem Flow.serve_whole {d0 : SatData} {ms : List Monitor} {j top : Nat}
    {items : List (Nat × Message)} {s : System}
    (h : Flow d0 ms (getRequest statusTarget host port) j items top s) (hwait : s.reply = [])
    {n : Nat} (hn : s.request.length ≤ n) (behind : Bytes) :
    s.step host port (.serve n behind) = { s with
      conn := ⟨[], false, true, false⟩, request := []
      reply := sendJson (apiJsonStatus s.api.monitor) } := by
  obtain ⟨api, clients, conn, request, reply, feeder, wire, display⟩ := s
  obtain ⟨hmonitor, hpolling, hreading, hcarries, horder, hbound, hshown⟩ := h
  dsimp only at hpolling hwait hn
  cases hpolling with
  | answered hm => exact absurd hwait (sendJson_status_ne_nil _)
  | @waiting part _ hreq hshort =>
    have hall : part ++ received [.read request behind] ++ [] =
        getRequest statusTarget host port := by
      rw [received, List.flatMap_singleton, List.append_nil, hreq]
    rcases httpCb_waiting hhost hfits api rfl hall hshort with ⟨hmore, -⟩ | ⟨-, hcb⟩
    · rw [List.append_nil] at hall
      rw [hall] at hmore
      exact absurd hmore (Nat.lt_irrefl _)
    · have hsent : ([] : Bytes) ++ (sendsOf [.message (pollRequest host port hhost).request,
          .send (sendJson (apiJsonStatus api.monitor))]).flatten =
          sendJson (apiJsonStatus api.monitor) := List.append_nil _
      unfold System.step System.onConn
      dsimp only
      rw [List.take_of_length_le hn, hcb, List.drop_of_length_le hn]
      dsimp only
      rw [hsent]

variable {api : ApiState} {display : Receiver} (hready : display.Ready)

include hready

/-- **Whole states, in order.** Whatever the collector, the clients of the API, the feeder, the line
and the satellite do, in whatever order, with replies cut short, requests that are never answered
and frames that do not go out: as long as no frame is cut, what the satellite shows is at all times
one of the states that have been collected, and never one older than what it has shown before. -/
theorem system_order {es es' : List SystemEvent}
    (huncut : (System.machine host port).Along System.Uncut (System.start host port api display)
      (es ++ es'))
    (hfit : ∀ m ∈ api.monitor :: collected (es ++ es'), MonitorFits (asRead m)) :
    ∃ k k', k ≤ k' ∧
      ShowsState display.data (api.monitor :: collected es) k ((System.machine host port).exec
        (System.start host port api display) es).display.data ∧
      ShowsState display.data (api.monitor :: collected (es ++ es')) k' ((System.machine host
        port).exec (System.start host port api display) (es ++ es')).display.data := by
  have hsplit : api.monitor :: collected (es ++ es') =
      ([api.monitor] ++ collected es) ++ collected es' := by
    rw [collected, List.filterMap_append, ← collected, ← collected]
    rfl
  rw [hsplit] at hfit ⊢
  rw [Machine.along_append] at huncut
  rw [Machine.exec_append]
  obtain ⟨k, items, top, -, hflow⟩ := (start_flow hhost api hready).run hhost hfits
    (fun m hm => hfit m (List.mem_append_left _ hm)) huncut.1
  obtain ⟨k', items', top', honward, hflow'⟩ := hflow.run hhost hfits hfit huncut.2
  exact ⟨k, k', honward.shown, hflow.shown, hflow'.shown⟩

omit hhost hfits hready in
/-- The first poll gets through, in two pieces, a first try to write the frame fails, and the second
frame is read by half. -/
theorem system_order_halfRead : ∃ k k', k ≤ k' ∧
    ShowsState SatData.zero [wirelessMonitor] k ((System.machine (CStr.lit "localhost") 8080).exec
      (System.start (CStr.lit "localhost") 8080 wirelessApi Receiver.reset)
      [.serve 20 [], .serve 200 [], .fetched [1000, 8000] 20 5 0 [.failed 5], .serve 200 [],
        .fetched [8000] 20 6 0 [.accepted 256]]).display.data ∧
    ShowsState SatData.zero [wirelessMonitor] k' ((System.machine (CStr.lit "localhost") 8080).exec
      (System.start (CStr.lit "localhost") 8080 wirelessApi Receiver.reset)
      ([.serve 20 [], .serve 200 [], .fetched [1000, 8000] 20 5 0 [.failed 5], .serve 200 [],
        .fetched [8000] 20 6 0 [.accepted 256]] ++
          [.arrive (List.replicate 20 9)])).display.data := by
  refine system_order (by decide) (by decide) ⟨rfl, rfl⟩ ?_ wirelessMonitor_fits
  refine ⟨trivial, trivial, fun _ => ?_, trivial, fun _ => ?_, trivial, trivial⟩
  · decide +kernel
  · decide +kernel

/-- **Freshness.** When the feeder takes over a reply to a request that had not been answered yet in
the state `s`, and its frame goes out, then, as soon as the line is empty, the satellite shows no
state older than what the monitor had collected in `s`. -/
theorem system_fresh {es es' es'' : List SystemEvent} {s u t : System} {cuts : List Nat}
    {took old : Nat} {clock : UInt32} {writes : List WriteResult} {root : CJson}
    (hrun : (System.machine host port).exec (System.start host port api display) es = s)
    (hwait : s.reply = [])
    (hmid : (System.machine host port).exec s es' = u) (hgoes : u.feeder.running = true)
    (hgot : (u.fetch cuts took clock).reply = .json root)
    (hwhole : ∀ x ∈ (u.feeder.iterate (u.fetch cuts took clock) writes).2, x.taken = x.frame)
    (hend : (System.machine host port).exec u (.fetched cuts took clock old writes :: es'') = t)
    (hline : t.wire = [])
    (huncut : (System.machine host port).Along System.Uncut (System.start host port api display)
      (es ++ (es' ++ .fetched cuts took clock old writes :: es'')))
    (hfit : ∀ m ∈ api.monitor :: collected (es ++ (es' ++ es'')), MonitorFits (asRead m)) :
    ∃ k, (api.monitor :: collected es).length ≤ k ∧
      ShowsState display.data (api.monitor :: collected (es ++ (es' ++ es''))) k
        t.display.data := by
  have hsplit : api.monitor :: collected (es ++ (es' ++ es'')) =
      ([api.monitor] ++ collected es) ++ collected es' ++ collected es'' := by
    simp only [collected, List.filterMap_append, List.append_assoc]
    rfl
  rw [hsplit] at hfit ⊢
  rw [Machine.along_append, Machine.along_append, hrun, hmid] at huncut
  obtain ⟨j, items, top, -, hflow⟩ := (start_flow hhost api hready).run hhost hfits
    (fun m hm => hfit m (List.mem_append_left _ (List.mem_append_left _ hm))) huncut.1
  rw [hrun] at hflow
  subst hend
  exact hflow.fresh hhost hfits hwait hmid hgoes hgot hwhole hline hfit huncut.2.1 huncut.2.2.2

omit hhost hfits hready in
/-- The first poll gets through and its frame is read. -/
theorem system_fresh_first : ∃ t : System, ∃ k, [wirelessMonitor].length ≤ k ∧
    ShowsState SatData.zero [wirelessMonitor] k t.display.data := by
  have hchecks : (fun u : System => u.feeder.running &&
      (match (u.fetch [8000] 20 5).reply with | .json _ => true | _ => false) &&
      (u.feeder.iterate (u.fetch [8000] 20 5) [.accepted 256]).2.all (fun x =>
        x.taken == x.frame) &&
      ((System.machine (CStr.lit "localhost") 8080).exec u [.fetched [8000] 20 5 0 [.accepted 256],
        .arrive (List.replicate 60 9)]).wire.isEmpty) ((System.machine (CStr.lit "localhost")
          8080).exec (System.start (CStr.lit "localhost") 8080 wirelessApi Receiver.reset)
          [.serve 200 []]) = true := by
    decide +kernel
  rw [Bool.and_eq_true, Bool.and_eq_true, Bool.and_eq_true] at hchecks
  obtain ⟨⟨⟨hgoes, hgot⟩, hwhole⟩, hline⟩ := hchecks
  have htaken := fun x hx => beq_iff_eq.mp (List.all_eq_true.mp hwhole x hx)
  split at hgot
  · next root hroot =>
    exact ⟨_, system_fresh (by decide) (by decide) ⟨rfl, rfl⟩ (show (System.machine
      (CStr.lit "localhost") 8080).exec _ [] = _ from rfl) rfl rfl hgoes hroot htaken rfl
      (List.isEmpty_iff.mp hline)
      ⟨trivial, fun _ x hx => .inl (htaken x hx), trivial, trivial⟩ wirelessMonitor_fits⟩
  · cases hgot

end Run

end NetMon.Satellite
