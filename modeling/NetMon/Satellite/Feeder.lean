import NetMon.Lib.Machine
import NetMon.Satellite.Link
import NetMon.Satellite.SerialWrite

/-!
# The feeder's loop

`main` of `sat_feeder.c` over what its fetches bring: each iteration fetches the
status, sends at most one frame and sleeps. A frame is given to `serial_write`, which
takes no time; a snapshot that does not go out is a failure, and behind a call that
does not return there is no further iteration (`handle`). The clock counts milliseconds
from the start.

From `loop` on every frame goes out at once.

A reply sends a snapshot and forgets the failures but leaves `heartbeat_counter`
alone; only a missing reply counts towards a heartbeat. Behind a frame the clock
moves by the sleeps and the fetches (`now_exec`), so how long the satellite waits for
the next one depends on how many iterations lie between them: up to four sleeps leave
the fetches the slack of `CONNECTION_TIMEOUT_MS`, with five there is none left.
-/

namespace NetMon.Satellite

open NetMon.Lib

/-- `SAT_UPDATE_INTERVAL_MS`. -/
def satUpdateIntervalMs : Nat := 1000

/-- `MAX_CONSECUTIVE_FAILURES`. -/
def maxConsecutiveFailures : Nat := 10

/-- What `http_get` and `cJSON_Parse` made of a request. -/
inductive Reply where
  | none
  | notJson
  | json (root : CJson)

/-- One fetch: how long it took, what came back and `time(NULL)` then. -/
structure Fetch where
  took : Nat
  reply : Reply
  clock : UInt32

/-- A call of `serial_write`, and what the device has taken of the frame. -/
structure Sent where
  time : Nat
  frame : Bytes
  taken : Bytes
  deriving DecidableEq

/-- The variables of the loop. -/
structure Feeder where
  now : Nat
  seq : UInt16
  consecutiveFailures : Nat
  heartbeatCounter : Nat
  running : Bool

namespace Feeder

def start : Feeder where
  now := 0
  seq := 0
  consecutiveFailures := 0
  heartbeatCounter := 0
  running := true

/-- `serial_write` on an encoded frame, at the feeder's time. -/
def send (s : Feeder) (frame : Bytes) (writes : List WriteResult) : Sent :=
  ⟨s.now, frame, serialTaken frame writes⟩

@[simp] theorem send_frame (s : Feeder) (frame : Bytes) (writes : List WriteResult) :
    (s.send frame writes).frame = frame := rfl

@[simp] theorem send_taken (s : Feeder) (frame : Bytes) (writes : List WriteResult) :
    (s.send frame writes).taken = serialTaken frame writes := rfl

/-- The counter behind a snapshot. A call that does not return ends the run. -/
def afterWrite (s : Feeder) (frame : Bytes) (writes : List WriteResult) : Feeder :=
  match serialWrite frame writes with
  | some o =>
    if 0 < o.ret.toInt then { s with consecutiveFailures := 0 }
    else { s with consecutiveFailures := s.consecutiveFailures + 1 }
  | none => { s with running := false }

/-- The part of an iteration that depends on the reply. `writes` are the results of the `write`s;
nobody looks at what `serial_write` returns for a heartbeat. -/
def handle (s : Feeder) (f : Fetch) (writes : List WriteResult) : Feeder × List Sent :=
  match f.reply with
  | .json root =>
    let (frame, seq) := encoderJsonToFrame (some root) f.clock satMaxFrameSize s.seq
    let s := { s with seq := seq }
    match frame with
    | some frame => (s.afterWrite frame writes, [s.send frame writes])
    | none => (s, [])
  | .notJson => ({ s with consecutiveFailures := s.consecutiveFailures + 1 }, [])
  | .none =>
    let s := { s with
      consecutiveFailures := s.consecutiveFailures + 1
      heartbeatCounter := s.heartbeatCounter + 1 }
    if s.heartbeatCounter ≥ 5 then
      let (frame, seq) := encoderHeartbeatFrame f.clock satMaxFrameSize s.seq
      let s := { s with seq := seq, heartbeatCounter := 0 }
      match frame with
      | some frame =>
        ({ s with running := s.running && (serialWrite frame writes).isSome },
          [s.send frame writes])
      | none => (s, [])
    else (s, [])

/-- One iteration: fetch, handle the reply, give up or sleep. -/
def iterate (s : Feeder) (f : Fetch) (writes : List WriteResult) : Feeder × List Sent :=
  let (s, sent) := handle { s with now := s.now + f.took } f writes
  if s.consecutiveFailures ≥ maxConsecutiveFailures then ({ s with running := false }, sent)
  else ({ s with now := s.now + satUpdateIntervalMs }, sent)

/-- A device that takes every frame at once. -/
def room : List WriteResult := [.accepted satMaxFrameSize]

/-- The loop as a machine over fetches; once left, it stays left. -/
def loop : Machine Feeder Fetch Sent where
  step s f := if s.running then (s.iterate f room).1 else s
  out s f := if s.running then (s.iterate f room).2 else []

/-- The fetches that send a frame: a status, or the fifth miss since the last heartbeat. -/
def Sends (s : Feeder) (f : Fetch) : Prop :=
  s.running = true ∧ match f.reply with
    | .json _ => True
    | .notJson => False
    | .none => s.heartbeatCounter ≥ 4

instance (s : Feeder) (f : Fetch) : Decidable (s.Sends f) := by
  unfold Sends
  cases f.reply <;> infer_instance

variable {s : Feeder} {f : Fetch}

/-! ## What is written -/

/-- A status is always written. -/
theorem handle_json (s : Feeder) {root : CJson} (h : f.reply = .json root)
    (writes : List WriteResult) : s.handle f writes =
      ({ s with seq := s.seq + 1 }.afterWrite (snapshotMessage (some root) f.clock s.seq).frame
        writes, [s.send (snapshotMessage (some root) f.clock s.seq).frame writes]) := by
  simp only [handle, h, encoderJsonToFrame_eq]
  rfl

theorem handle_notJson (s : Feeder) (h : f.reply = .notJson) (writes : List WriteResult) :
    s.handle f writes = ({ s with consecutiveFailures := s.consecutiveFailures + 1 }, []) := by
  simp only [handle, h]

/-- A miss writes a heartbeat if it is the fifth. -/
theorem handle_none (s : Feeder) (h : f.reply = .none) (writes : List WriteResult) :
    s.handle f writes = if s.heartbeatCounter ≥ 4 then
      ({ s with
        seq := s.seq + 1
        consecutiveFailures := s.consecutiveFailures + 1
        heartbeatCounter := 0
        running := s.running &&
          (serialWrite (heartbeatMessage f.clock s.seq).frame writes).isSome },
        [s.send (heartbeatMessage f.clock s.seq).frame writes])
    else ({ s with
      consecutiveFailures := s.consecutiveFailures + 1
      heartbeatCounter := s.heartbeatCounter + 1 }, []) := by
  simp only [handle, h, encoderHeartbeatFrame_eq]
  by_cases hdue : s.heartbeatCounter ≥ 4
  · rw [if_pos hdue, if_pos (by omega : s.heartbeatCounter + 1 ≥ 5)]
    rfl
  · rw [if_neg hdue, if_neg (by omega : ¬ s.heartbeatCounter + 1 ≥ 5)]

theorem iterate_snd (s : Feeder) (f : Fetch) (writes : List WriteResult) :
    (s.iterate f writes).2 = (handle { s with now := s.now + f.took } f writes).2 := by
  unfold iterate
  dsimp only
  split <;> rfl

/-- What an iteration writes: the status it has got, or at most a heartbeat. -/
theorem iterate_sent (s : Feeder) (f : Fetch) (writes : List WriteResult) :
    (∃ root, f.reply = .json root ∧ (s.iterate f writes).2 =
      [{ s with now := s.now + f.took }.send (snapshotMessage (some root) f.clock s.seq).frame
        writes]) ∨
    ((∀ root, f.reply ≠ .json root) ∧
      ((s.iterate f writes).2 = [{ s with now := s.now + f.took }.send
          (heartbeatMessage f.clock s.seq).frame writes] ∨ (s.iterate f writes).2 = [])) := by
  rw [iterate_snd]
  cases hreply : f.reply with
  | json root => exact .inl ⟨root, rfl, by rw [handle_json _ hreply]⟩
  | notJson => exact .inr ⟨nofun, .inr (by rw [handle_notJson _ hreply])⟩
  | none =>
    refine .inr ⟨nofun, ?_⟩
    rw [handle_none _ hreply]
    split
    · exact .inl rfl
    · exact .inr rfl

theorem serialWrite_frame (m : Message) : (serialWrite m.frame room).isSome = true := by
  obtain ⟨o, ho, -⟩ := serialWrite_room m.frame_le
  rw [room, ho]
  rfl

/-- A snapshot that goes out ends the failures. -/
theorem afterWrite_room (s : Feeder) (m : Message) :
    s.afterWrite m.frame room = { s with consecutiveFailures := 0 } := by
  obtain ⟨o, ho, hdevice, -⟩ := serialWrite_room m.frame_le
  have hpos := (serialWrite_pos_iff m ho).mpr hdevice
  rw [afterWrite, room, ho]
  exact if_pos hpos

/-! ## One iteration -/

/-- What a fetch sends is what its reply makes it send, at the fetch's end. -/
theorem out_of_running (h : s.running = true) (f : Fetch) :
    loop.out s f = (handle { s with now := s.now + f.took } f room).2 := by
  rw [← iterate_snd]
  simp only [loop, h, if_true]

theorem out_of_left (h : s.running = false) (f : Fetch) : loop.out s f = [] := by
  simp [loop, h]

/-- A sending fetch sends one frame, as soon as it is over; the others send nothing. -/
theorem out_spec (s : Feeder) (f : Fetch) :
    (s.Sends f ∧ ∃ b, loop.out s f = [⟨s.now + f.took, b, b⟩]) ∨
      (¬ s.Sends f ∧ loop.out s f = []) := by
  have hsend : ∀ (s : Feeder) (m : Message), s.send m.frame room = ⟨s.now, m.frame, m.frame⟩ :=
    fun s m => by rw [send, room, serialTaken_room m.frame_le]
  cases hrun : s.running with
  | false => exact .inr ⟨fun h => by simp [Sends, hrun] at h, out_of_left hrun f⟩
  | true =>
    rw [out_of_running hrun]
    unfold Sends
    cases hreply : f.reply with
    | json root =>
      rw [handle_json _ hreply, hsend]
      exact .inl ⟨⟨hrun, trivial⟩, _, rfl⟩
    | notJson =>
      rw [handle_notJson _ hreply]
      exact .inr ⟨fun h => h.2, rfl⟩
    | none =>
      rw [handle_none _ hreply, hsend]
      by_cases hdue : s.heartbeatCounter ≥ 4
      · rw [if_pos hdue]
        exact .inl ⟨⟨hrun, hdue⟩, _, rfl⟩
      · rw [if_neg hdue]
        exact .inr ⟨fun h => hdue h.2, rfl⟩

theorem out_of_sends (h : s.Sends f) : ∃ b, loop.out s f = [⟨s.now + f.took, b, b⟩] := by
  rcases out_spec s f with ⟨_, hout⟩ | ⟨hno, _⟩
  · exact hout
  · exact absurd h hno

theorem sends_of_out {x : Sent} (h : loop.out s f = [x]) :
    s.Sends f ∧ x.time = s.now + f.took := by
  rcases out_spec s f with ⟨hs, b, hout⟩ | ⟨_, hout⟩
  · rw [hout, List.singleton_inj] at h
    exact ⟨hs, by rw [← h]⟩
  · simp [hout] at h

theorem out_length_le (s : Feeder) (f : Fetch) : (loop.out s f).length ≤ 1 := by
  rcases out_spec s f with ⟨_, b, h⟩ | ⟨_, h⟩
  · rw [h]; exact Nat.le_refl 1
  · rw [h]; exact Nat.zero_le 1

/-- Handling a reply takes no time, and does not stop the loop. -/
theorem handle_keeps (s : Feeder) (f : Fetch) :
    (s.handle f room).1.now = s.now ∧ (s.handle f room).1.running = s.running := by
  cases hreply : f.reply with
  | json root =>
    rw [handle_json s hreply, afterWrite_room]
    exact ⟨rfl, rfl⟩
  | notJson =>
    rw [handle_notJson s hreply]
    exact ⟨rfl, rfl⟩
  | none =>
    rw [handle_none s hreply]
    split
    · rw [serialWrite_frame, Bool.and_true]
      exact ⟨rfl, rfl⟩
    · exact ⟨rfl, rfl⟩

/-- If the loop goes on, it was running and the fetch and the sleep have passed. -/
theorem step_running (h : (loop.step s f).running = true) :
    s.running = true ∧ (loop.step s f).now = s.now + f.took + satUpdateIntervalMs := by
  cases hrun : s.running with
  | false => simp [loop, hrun] at h
  | true =>
    have hstep : loop.step s f = (s.iterate f room).1 := by simp only [loop, hrun, if_true]
    have hnow := (handle_keeps { s with now := s.now + f.took } f).1
    rw [hstep] at h ⊢
    simp only [iterate] at h ⊢
    split at h
    · simp at h
    · rename_i hgo
      rw [if_neg hgo]
      exact ⟨trivial, by simp only [hnow]⟩

/-- The iteration that leaves the loop does not sleep. -/
theorem step_left (hrun : s.running = true) (h : (loop.step s f).running = false) :
    (loop.step s f).now = s.now + f.took := by
  have hstep : loop.step s f = (s.iterate f room).1 := by simp only [loop, hrun, if_true]
  obtain ⟨hnow, hgoes⟩ := handle_keeps { s with now := s.now + f.took } f
  rw [hstep] at h ⊢
  simp only [iterate] at h ⊢
  split at h
  · rename_i hmany
    rw [if_pos hmany]
    exact hnow
  · rw [hgoes, hrun] at h
    cases h

theorem step_of_left (h : s.running = false) (f : Fetch) : loop.step s f = s := by
  simp [loop, h]

/-- The fetch is over before the next iteration. -/
theorem step_now_ge (hrun : s.running = true) (f : Fetch) :
    s.now + f.took ≤ (loop.step s f).now := by
  cases h : (loop.step s f).running with
  | true => exact (step_running h).2 ▸ Nat.le_add_right _ _
  | false => exact (step_left hrun h).ge

/-! ## The clock over a run -/

theorem exec_of_left (h : s.running = false) (fs : List Fetch) : loop.exec s fs = s := by
  induction fs with
  | nil => rfl
  | cons f fs ih => rw [Machine.exec_cons, step_of_left h, ih]

theorem now_mono (s : Feeder) (fs : List Fetch) : s.now ≤ (loop.exec s fs).now := by
  induction fs generalizing s with
  | nil => exact Nat.le_refl _
  | cons f fs ih =>
    cases h : s.running with
    | true => exact (Nat.le_add_right _ _).trans ((step_now_ge h f).trans (ih _))
    | false => rw [exec_of_left h]

/-- Frames are sent in order, within the time of the run. -/
theorem trace_times (s : Feeder) (fs : List Fetch) :
    (∀ x ∈ loop.trace s fs, s.now ≤ x.time) ∧ (loop.trace s fs).Pairwise fun x y =>
      x.time ≤ y.time := by
  induction fs generalizing s with
  | nil => exact ⟨by simp, .nil⟩
  | cons f fs ih =>
    obtain ⟨hafter, hsorted⟩ := ih (loop.step s f)
    have hone : s.now ≤ (loop.step s f).now := now_mono s [f]
    rw [Machine.trace_cons]
    rcases out_spec s f with ⟨hs, b, hout⟩ | ⟨_, hout⟩
    · have hfetch := step_now_ge hs.1 f
      rw [hout, List.singleton_append]
      refine ⟨List.forall_mem_cons.mpr ⟨Nat.le_add_right _ _, fun x hx => hone.trans (hafter x hx)⟩,
        List.pairwise_cons.mpr ⟨fun x hx => hfetch.trans (hafter x hx), hsorted⟩⟩
    · rw [hout, List.nil_append]
      exact ⟨fun x hx => hone.trans (hafter x hx), hsorted⟩

/-- No frame comes before the first fetch is over. -/
theorem time_ge_of_mem_trace (hrun : s.running = true) {g : Fetch} {post : List Fetch} {x : Sent}
    (hx : x ∈ loop.trace s (g :: post)) : s.now + g.took ≤ x.time := by
  rw [Machine.trace_cons] at hx
  rcases List.mem_append.mp hx with hx | hx
  · rcases out_spec s g with ⟨_, b, hout⟩ | ⟨_, hout⟩
    · rw [hout, List.mem_singleton] at hx
      rw [hx]
    · simp [hout] at hx
  · exact (step_now_ge hrun g).trans ((trace_times (loop.step s g) post).1 x hx)

/-- A loop that was left was left at the end of some fetch. -/
theorem left_split {fs : List Fetch} (hrun : s.running = true)
    (h : (loop.exec s fs).running = false) : ∃ go l rest, fs = go ++ l :: rest ∧
      (loop.exec s go).running = true ∧ (loop.exec s fs).now = (loop.exec s go).now + l.took := by
  induction fs generalizing s with
  | nil => exact absurd (hrun.symm.trans h) (by decide)
  | cons f fs ih =>
    cases hstep : (loop.step s f).running with
    | true =>
      obtain ⟨go, l, rest, rfl, hgo, hnow⟩ := ih hstep h
      exact ⟨f :: go, l, rest, rfl, hgo, hnow⟩
    | false =>
      refine ⟨[], f, fs, rfl, hrun, ?_⟩
      rw [Machine.exec_cons, exec_of_left hstep, step_left hrun hstep]
      rfl

/-- While the loop runs, the clock has moved by the fetches and one sleep each. -/
theorem now_exec (s : Feeder) (fs : List Fetch) (h : (loop.exec s fs).running = true) :
    s.running = true ∧
      (loop.exec s fs).now = s.now + (fs.map Fetch.took).sum + satUpdateIntervalMs * fs.length := by
  induction fs generalizing s with
  | nil => exact ⟨h, by simp⟩
  | cons f fs ih =>
    obtain ⟨hrun, hnow⟩ := ih _ h
    obtain ⟨hrun, hone⟩ := step_running hrun
    refine ⟨hrun, ?_⟩
    rw [Machine.exec_cons, hnow, hone, List.map_cons, List.sum_cons, List.length_cons, Nat.mul_succ]
    omega

/-- A stretch is silent exactly when none of its fetches sends. -/
theorem trace_eq_nil_iff (s : Feeder) (fs : List Fetch) :
    loop.trace s fs = [] ↔ loop.Along (fun s f => ¬ s.Sends f) s fs := by
  induction fs generalizing s with
  | nil => simp [Machine.Along]
  | cons f fs ih =>
    rw [Machine.trace_cons, List.append_eq_nil_iff, ih, Machine.Along]
    apply and_congr_left
    intro _
    rcases out_spec s f with ⟨hs, b, hout⟩ | ⟨hs, hout⟩
    · simp [hs, hout]
    · simp [hs, hout]

/-- Behind a frame the clock moves by one sleep and the silent iterations. -/
theorem stretch_now (s : Feeder) (f : Fetch) (quiet : List Fetch)
    (h : (loop.exec s (f :: quiet)).running = true) : (loop.exec s (f :: quiet)).now =
      s.now + f.took + (satUpdateIntervalMs * (quiet.length + 1) + (quiet.map Fetch.took).sum) := by
  obtain ⟨hrun, hnow⟩ := now_exec (loop.step s f) quiet h
  obtain ⟨_, hone⟩ := step_running hrun
  rw [Machine.exec_cons, hnow, hone, Nat.mul_succ]
  omega

theorem sum_took_le {n : Nat} {fs : List Fetch} (h : ∀ f ∈ fs, f.took ≤ n) :
    (fs.map Fetch.took).sum ≤ n * fs.length := by
  induction fs with
  | nil => simp
  | cons f fs ih =>
    rw [List.forall_mem_cons] at h
    have := ih h.2
    rw [List.map_cons, List.sum_cons, List.length_cons, Nat.mul_succ]
    omega

theorem sum_took_eq_zero {fs : List Fetch} :
    (fs.map Fetch.took).sum = 0 ↔ ∀ f ∈ fs, f.took = 0 := by
  rw [List.sum_eq_zero_iff_forall_eq_nat, List.forall_mem_map]

/-- What is left for the fetches behind a frame: with fetches of at most 100 ms, the slack of up
to three silent iterations is enough for one more, with four there is none, with more too
little. -/
theorem within_timeout_iff {quiet rest : List Fetch} (h : ∀ f ∈ quiet ++ rest, f.took ≤ 100) :
    satUpdateIntervalMs * (quiet.length + 1) + (quiet.map Fetch.took).sum +
        ((rest.take 1).map Fetch.took).sum ≤ connectionTimeoutMs.toNat ↔
      quiet.length ≤ 3 ∨ quiet.length = 4 ∧ ∀ x ∈ quiet ++ rest.take 1, x.took = 0 := by
  have hquiet := sum_took_le fun f hf => h f (List.mem_append_left rest hf)
  have hnext := sum_took_le fun f hf =>
    h f (List.mem_append_right quiet ((List.take_sublist 1 rest).subset hf))
  have hlen : (rest.take 1).length ≤ 1 := List.length_take_le 1 rest
  rw [← sum_took_eq_zero, List.map_append, List.sum_append]
  unfold satUpdateIntervalMs
  change _ ≤ 5000 ↔ _
  omega

/-! ## Keeping the link alive -/

/-- What the feeder owes the satellite for the frames of a run that ends at `now`: they are at
most the timeout apart, and from the first of them on no check finds the link lost. -/
structure KeepsAlive (sent : List Sent) (now : Nat) : Prop where
  gaps : (sent.map Sent.time).IsChain fun a b => b ≤ a + connectionTimeoutMs.toNat
  link : ∀ (calls : List LinkCall) (T : Nat),
    Ticking ((calls ++ [LinkCall.checkConnection T]).map LinkCall.time) →
    (∀ x ∈ sent, x.time ≤ T → ∃ seq, LinkCall.markAlive x.time seq ∈ calls) →
    (∃ x ∈ sent.head?, x.time ≤ T) → T ≤ now →
    (link.exec SatData.zero (calls ++ [LinkCall.checkConnection T])).connected = true

/-- Between two times of a list without wide gaps there is always a recent one. -/
theorem exists_recent {g T t : Nat} {ts : List Nat}
    (h : (t :: ts).IsChain fun a b => b ≤ a + g) (ht : t ≤ T) (hT : ∃ b ∈ t :: ts, T ≤ b) :
    ∃ a ∈ t :: ts, a ≤ T ∧ T ≤ a + g := by
  induction ts generalizing t with
  | nil =>
    obtain ⟨b, hb, hTb⟩ := hT
    rw [List.mem_singleton] at hb
    exact ⟨t, by simp, ht, by omega⟩
  | cons u us ih =>
    obtain ⟨hgap, hrest⟩ := List.isChain_cons_cons.mp h
    by_cases hnear : T ≤ t + g
    · exact ⟨t, by simp, ht, hnear⟩
    · obtain ⟨b, hb, hTb⟩ := hT
      have hb' : b ∈ u :: us := by
        rcases List.mem_cons.mp hb with rfl | hb
        · omega
        · exact hb
      obtain ⟨a, ha, haT, hTa⟩ := ih hrest (by omega) ⟨b, hb', hTb⟩
      exact ⟨a, List.mem_cons_of_mem t ha, haT, hTa⟩

theorem ticking_of_gaps {ts : List Nat} (hsorted : ts.Pairwise (· ≤ ·))
    (hgaps : ts.IsChain fun a b => b ≤ a + connectionTimeoutMs.toNat) : Ticking ts := by
  induction ts with
  | nil => exact .nil
  | cons t ts ih =>
    cases ts with
    | nil => exact .singleton t
    | cons u us =>
      obtain ⟨hgap, hrest⟩ := List.isChain_cons_cons.mp hgaps
      obtain ⟨hle, hsorted⟩ := List.pairwise_cons.mp hsorted
      change u ≤ t + 5000 at hgap
      exact .cons_cons ⟨hle u List.mem_cons_self, by omega⟩ (ih hsorted hrest)

/-- Without frames after `x`, a check more than the timeout later finds the link lost. -/
theorem lost_after {sent : List Sent} {x : Sent} (hsorted : (sent ++ [x]).Pairwise fun x y =>
      x.time ≤ y.time) (hgaps : ((sent ++ [x]).map Sent.time).IsChain fun a b =>
      b ≤ a + connectionTimeoutMs.toNat) :
    ∃ calls, Ticking ((calls ++ [LinkCall.checkConnection (x.time + 5001)]).map LinkCall.time) ∧
      (∀ y ∈ sent ++ [x], ∃ seq, LinkCall.markAlive y.time seq ∈ calls) ∧
      (link.exec SatData.zero
        (calls ++ [LinkCall.checkConnection (x.time + 5001)])).connected = false := by
  have htimes : (((sent ++ [x]).map fun y => LinkCall.markAlive y.time 0) ++
      [LinkCall.checkConnection (x.time + 5001)]).map LinkCall.time =
      (sent ++ [x]).map Sent.time ++ [x.time + 5001] := by
    rw [List.map_append, List.map_map]
    rfl
  have hclock : Ticking ((sent ++ [x]).map Sent.time ++ [x.time + 5001]) := by
    refine List.isChain_append.mpr ⟨ticking_of_gaps (List.pairwise_map.mpr hsorted) hgaps,
      .singleton _, fun a ha b hb => ?_⟩
    rw [List.map_append, List.map_singleton, List.getLast?_concat, Option.mem_some_iff] at ha
    rw [List.head?_cons, Option.mem_some_iff] at hb
    omega
  rw [← htimes] at hclock
  refine ⟨_, hclock, fun y hy => ⟨0, List.mem_map_of_mem hy⟩, ?_⟩
  rw [← Bool.not_eq_true, connected_iff_marked _ _ hclock]
  rintro ⟨t, seq, hmark, hrecent⟩
  obtain ⟨y, hy, heq⟩ := List.mem_map.mp hmark
  cases heq
  have hlast : y.time ≤ x.time := by
    rcases List.mem_append.mp hy with hy | hy
    · exact (List.pairwise_append.mp hsorted).2.2 y hy x List.mem_cons_self
    · rw [List.mem_singleton.mp hy]
  omega

/-- Frames without wide gaps, up to the end of the run, are what the link needs. -/
theorem keepsAlive_iff_gaps {sent : List Sent} {now : Nat}
    (hsorted : sent.Pairwise fun x y => x.time ≤ y.time) : KeepsAlive sent now ↔
      (sent.map Sent.time).IsChain (fun a b => b ≤ a + connectionTimeoutMs.toNat) ∧
        ∀ x ∈ sent.getLast?, now ≤ x.time + connectionTimeoutMs.toNat := by
  constructor
  · intro h
    refine ⟨h.gaps, fun x hx => ?_⟩
    obtain ⟨init, rfl⟩ := List.getLast?_eq_some_iff.mp hx
    by_contra hlate
    change ¬ now ≤ x.time + 5000 at hlate
    obtain ⟨calls, hclock, hmarks, hlost⟩ := lost_after hsorted h.gaps
    have hfirst : ∃ y ∈ (init ++ [x]).head?, y.time ≤ x.time + 5001 := by
      cases init with
      | nil => exact ⟨x, rfl, Nat.le_add_right _ _⟩
      | cons y ys =>
        refine ⟨y, rfl, (List.pairwise_cons.mp hsorted).1 x ?_ |>.trans (Nat.le_add_right _ _)⟩
        simp
    have hup := h.link calls _ hclock (fun y hy _ => hmarks y hy) hfirst (by omega)
    rw [hlost] at hup
    cases hup
  · rintro ⟨hgaps, hend⟩
    refine ⟨hgaps, fun calls T hclock hmarks hfirst hT => ?_⟩
    have hnear : ∃ x ∈ sent, x.time ≤ T ∧ T ≤ x.time + 5000 := by
      obtain ⟨x, hx, hxT⟩ := hfirst
      obtain ⟨xs, rfl⟩ := List.head?_eq_some_iff.mp hx
      by_cases hbefore : ∃ b ∈ (x :: xs).map Sent.time, T ≤ b
      · obtain ⟨a, ha, haT, hTa⟩ := exists_recent hgaps hxT hbefore
        rw [← List.map_cons] at ha
        obtain ⟨y, hy, rfl⟩ := List.mem_map.mp ha
        exact ⟨y, hy, haT, hTa⟩
      · -- the check is behind the last frame
        have hlast := List.getLast?_eq_some_getLast (List.cons_ne_nil x xs)
        have hmem : (x :: xs).getLast (List.cons_ne_nil x xs) ∈ x :: xs := List.getLast_mem _
        refine ⟨_, hmem, ?_, hT.trans (hend _ hlast)⟩
        by_contra hlt
        exact hbefore ⟨_, List.mem_map_of_mem hmem, (not_le.mp hlt).le⟩
    obtain ⟨x, hx, hxT, hTx⟩ := hnear
    obtain ⟨seq, hmark⟩ := hmarks x hx hxT
    exact (linkInv_run calls _ hclock).connected_of_recent (List.mem_append_left _ hmark) hTx

/-- Behind a frame at most three iterations that send nothing, and then one more, or four and one
more if none of them takes time. -/
def Spread (s : Feeder) (fs : List Fetch) : Prop :=
  ∀ pre f quiet rest, fs = pre ++ f :: (quiet ++ rest) →
    (loop.exec s pre).Sends f →
    loop.Along (fun s f => ¬ s.Sends f) (loop.exec s (pre ++ [f])) quiet →
    (loop.exec s (pre ++ f :: quiet)).running = true →
    quiet.length ≤ 3 ∨ quiet.length = 4 ∧ ∀ x ∈ quiet ++ rest.take 1, x.took = 0

/-- The satellite hears of the iteration behind a silent stretch in time exactly when the stretch
is short enough. -/
theorem stretch_iff {s : Feeder} {pre : List Fetch} {f : Fetch} {quiet rest : List Fetch}
    (h : ∀ x ∈ quiet ++ rest, x.took ≤ 100) {a : Sent}
    (ha : loop.out (loop.exec s pre) f = [a])
    (hrun : (loop.exec s (pre ++ f :: quiet)).running = true) :
    (loop.exec s (pre ++ f :: quiet)).now + ((rest.take 1).map Fetch.took).sum ≤
        a.time + connectionTimeoutMs.toNat ↔
      quiet.length ≤ 3 ∨ quiet.length = 4 ∧ ∀ x ∈ quiet ++ rest.take 1, x.took = 0 := by
  obtain ⟨_, hat⟩ := sends_of_out ha
  rw [Machine.exec_append] at hrun ⊢
  rw [hat, stretch_now _ _ _ hrun, Nat.add_assoc, Nat.add_le_add_iff_left]
  exact within_timeout_iff h

section Spread

variable {fs : List Fetch} (h : ∀ f ∈ fs, f.took ≤ 100)

include h

theorem short_of_split {pre : List Fetch} {f : Fetch} {quiet rest : List Fetch}
    (hfs : fs = pre ++ f :: (quiet ++ rest)) : ∀ x ∈ quiet ++ rest, x.took ≤ 100 := by
  subst hfs
  exact fun x hx => h x (List.mem_append_right _ (List.mem_cons_of_mem _ hx))

theorem spread_of_gaps {s : Feeder}
    (hgaps : ((loop.trace s fs).map Sent.time).IsChain fun a b =>
      b ≤ a + connectionTimeoutMs.toNat)
    (hend : ∀ x ∈ (loop.trace s fs).getLast?,
      (loop.exec s fs).now ≤ x.time + connectionTimeoutMs.toNat) : Spread s fs := by
  intro pre f quiet rest hfs hf hquiet hrun
  obtain ⟨b, ha⟩ := out_of_sends hf
  rw [← trace_eq_nil_iff] at hquiet
  rw [List.isChain_map, loop.isChain_trace_iff out_length_le] at hgaps
  apply (stretch_iff (short_of_split h hfs) ha hrun).mp
  have hafter : loop.exec (loop.exec s (pre ++ [f])) quiet = loop.exec s (pre ++ f :: quiet) := by
    rw [← Machine.exec_append, List.append_assoc, List.singleton_append]
  cases hnext : loop.trace (loop.exec s (pre ++ f :: quiet)) rest with
  | nil =>
    -- no frame follows: the run ends in time
    have hlast := hend _ ((loop.mem_getLast?_trace_iff out_length_le).mpr
      ⟨pre, f, quiet ++ rest, hfs, ha, by rw [Machine.trace_append, hquiet, hafter, hnext]; rfl⟩)
    have hsplit : loop.exec s fs = loop.exec (loop.exec s (pre ++ f :: quiet)) rest := by
      rw [hfs, ← Machine.exec_append, List.append_assoc, List.cons_append]
    rw [hsplit] at hlast
    refine le_trans ?_ hlast
    cases rest with
    | nil => exact Nat.le_refl _
    | cons g post =>
      have hfetch := (step_now_ge hrun g).trans (now_mono _ post)
      simpa using hfetch
  | cons c cs =>
    -- the next frame comes in time
    obtain ⟨quiet', g, post, os, rfl, hquiet', hg⟩ := loop.trace_eq_cons hnext
    have hos : loop.out (loop.exec (loop.exec s (pre ++ f :: quiet)) quiet') g = [c] := by
      have hone := out_length_le (loop.exec (loop.exec s (pre ++ f :: quiet)) quiet') g
      rw [hg, List.length_cons] at hone
      rw [hg, List.eq_nil_of_length_eq_zero (by omega : os.length = 0)]
    rw [← Machine.exec_append, List.append_assoc, List.cons_append] at hos
    have hgap := hgaps pre f (quiet ++ quiet') g post _ c (by rw [hfs, List.append_assoc]) ha
      (by rw [Machine.trace_append, hquiet, hafter, hquiet']; rfl) hos
    refine le_trans ?_ hgap
    have hmem : c ∈ loop.trace (loop.exec s (pre ++ f :: quiet)) (quiet' ++ g :: post) := by
      rw [hnext]
      exact List.mem_cons_self
    obtain ⟨g', post', hcons⟩ := List.exists_cons_of_ne_nil
      (by simp : quiet' ++ g :: post ≠ [])
    rw [hcons] at hmem ⊢
    simpa using time_ge_of_mem_trace hrun hmem

theorem gaps_of_spread {s : Feeder} (hspread : Spread s fs) :
    ((loop.trace s fs).map Sent.time).IsChain fun a b => b ≤ a + connectionTimeoutMs.toNat := by
  rw [List.isChain_map, loop.isChain_trace_iff out_length_le]
  intro pre f quiet g post a b hfs ha hquiet hb
  obtain ⟨hg, hbt⟩ := sends_of_out hb
  have hshort := hspread pre f quiet (g :: post) hfs (sends_of_out ha).1
    ((trace_eq_nil_iff _ _).mp hquiet) hg.1
  have hin := (stretch_iff (short_of_split h hfs) ha hg.1).mpr hshort
  rw [hbt]
  simpa using hin

theorem end_of_spread {s : Feeder} (hspread : Spread s fs) :
    ∀ x ∈ (loop.trace s fs).getLast?,
      (loop.exec s fs).now ≤ x.time + connectionTimeoutMs.toNat := by
  intro x hx
  obtain ⟨pre, f, quiet, hfs, hout, hquiet⟩ := (loop.mem_getLast?_trace_iff out_length_le).mp hx
  obtain ⟨hf, hxt⟩ := sends_of_out hout
  cases hrun : (loop.exec s fs).running with
  | true =>
    have hfs' : fs = pre ++ f :: (quiet ++ []) := by rw [List.append_nil, hfs]
    rw [hfs] at hrun ⊢
    have hin := (stretch_iff (short_of_split h hfs') hout hrun).mpr
      (hspread pre f quiet [] hfs' hf ((trace_eq_nil_iff _ _).mp hquiet) hrun)
    simpa using hin
  | false =>
    -- the loop was left, by the frame's own iteration or by one behind it
    rw [hfs, Machine.exec_append] at hrun ⊢
    obtain ⟨go, l, rest, hsplit, hgo, hnow⟩ := left_split hf.1 hrun
    rw [hnow]
    cases go with
    | nil =>
      cases hsplit
      rw [hxt]
      exact Nat.le_add_right _ _
    | cons f' go =>
      obtain ⟨rfl, rfl⟩ := List.cons.inj hsplit
      rw [← Machine.exec_append] at hgo ⊢
      change loop.trace _ (go ++ l :: rest) = [] at hquiet
      rw [Machine.trace_append, List.append_eq_nil_iff, trace_eq_nil_iff] at hquiet
      have hin := (stretch_iff (short_of_split h hfs) hout hgo).mpr
        (hspread pre f go (l :: rest) hfs hf hquiet.1 hgo)
      simpa using hin

end Spread

/-- **Heartbeats keep the link alive** exactly when no frame has more iterations behind it that
send nothing, whatever the feeder sent before. -/
theorem keepsAlive_iff (boot fs : List Fetch) (h : ∀ f ∈ fs, f.took ≤ 100) :
    KeepsAlive (loop.trace (loop.exec start boot) fs) (loop.exec start (boot ++ fs)).now ↔
      Spread (loop.exec start boot) fs := by
  rw [keepsAlive_iff_gaps (trace_times _ fs).2, Machine.exec_append]
  exact ⟨fun hgaps => spread_of_gaps h hgaps.1 hgaps.2,
    fun hspread => ⟨gaps_of_spread h hspread, end_of_spread h hspread⟩⟩

/-- A status every second. -/
theorem keepsAlive_statuses :
    KeepsAlive (loop.trace (loop.exec start []) [⟨20, .json .null, 0⟩, ⟨100, .json .null, 1⟩])
        (loop.exec start ([] ++ [⟨20, .json .null, 0⟩, ⟨100, .json .null, 1⟩])).now ↔
      Spread (loop.exec start []) [⟨20, .json .null, 0⟩, ⟨100, .json .null, 1⟩] :=
  keepsAlive_iff [] _ (by decide)

/-- A status, then no reply any more: the first heartbeat comes 5.5 s after it. -/
theorem not_keepsAlive : ¬ ∀ boot snap root fs, snap.reply = .json root →
    (∀ f ∈ snap :: fs, f.took ≤ 100) →
    KeepsAlive (loop.trace (loop.exec start boot) (snap :: fs))
      (loop.exec start (boot ++ snap :: fs)).now := by
  intro h
  have hgaps := (h [] ⟨100, .json .null, 0⟩ .null (List.replicate 5 ⟨100, .none, 0⟩) rfl
    (by decide)).gaps
  have htimes : (loop.trace (loop.exec start []) (⟨100, .json .null, 0⟩ ::
      List.replicate 5 ⟨100, .none, 0⟩)).map Sent.time = [100, 5600] := rfl
  rw [htimes] at hgaps
  exact absurd hgaps (by decide)

end Feeder

end NetMon.Satellite
