import Mathlib.Data.Rat.Cast.Order
import Mathlib.Tactic.Linarith
import NetMon.Lib.Bytes
import NetMon.Lib.Machine
import NetMon.Net.Collector

/-!
# A ping's receive loop

`net_ping` once the request is sent: `recvfrom` on a raw socket, over and over, until the
reply, an error, or the timeout. The socket sees every ICMP packet of the host. The input
of the loop is what each `recvfrom` returned and when; the time between a return and the
next call is not counted. The loop emits the time of every further call.

A packet too short for an ICMP header is skipped before the timeout is looked at
(`receive_short`); every other one that is not the reply ends the loop once the timeout has
passed. `respects_iff` says when that keeps the loop within its bounds.
-/

namespace NetMon.Net

open NetMon.Lib

/-- `timespec_diff_ms`: the milliseconds from `a` to `b`. -/
def timespecDiffMs (a b : Timespec) : ℚ :=
  (b.sec - a.sec : Int) * 1000 + (b.nsec - a.nsec : Int) / 1000000

theorem timespecDiffMs_self (a : Timespec) : timespecDiffMs a a = 0 := by
  simp [timespecDiffMs]

theorem timespecDiffMs_add (a b c : Timespec) :
    timespecDiffMs a b + timespecDiffMs b c = timespecDiffMs a c := by
  simp only [timespecDiffMs, Int.cast_sub]
  ring

/-- `sizeof(struct icmp)` -/
def sizeofIcmp : Nat := 28

/-- `sizeof(recv_buf)` -/
def recvBufSize : Nat := 256

/-- `ICMP_ECHOREPLY` -/
def icmpEchoReply : UInt8 := 0

/-- The request in flight. -/
structure Ping where
  timeoutMs : Int
  id : UInt16
  seq : UInt16
  sendTime : Timespec

/-- A return of `recvfrom`: no datagram is the receive timeout or an error. -/
structure Recv where
  time : Timespec
  datagram : Option Bytes

/-- Before a call made at `since`, or done: `net_ping`'s latency, or none for its 0. -/
inductive PingState where
  | waiting (since : Timespec)
  | ended (latency : Option ℚ)
  deriving DecidableEq

/-- What lands in `recv_buf`. -/
def Recv.buf (r : Recv) : Bytes := (r.datagram.getD []).take recvBufSize

/-- `ip_hl * 4`. -/
def ipHlen (buf : Bytes) : Nat := (buf.view 0 &&& 0x0F).toNat * 4

/-- A 16-bit word in network order. -/
def be16 (m : View) (p : Nat) : UInt16 := UInt16.ofNat (256 * (m p).toNat + (m (p + 1)).toNat)

/-- Where at most one datagram is taken, it is a right one exactly when no wrong one is
taken. -/
theorem taken_right_iff {α : Type*} (sent : Prop) (reply : Option α) (Taken Right : α → Prop) :
    ((sent ∧ ∃ d ∈ reply, Taken d) → ∃ d ∈ reply, Right d) ↔
      ¬ (sent ∧ ∃ d ∈ reply, Taken d ∧ ¬ Right d) := by
  constructor
  · rintro h ⟨hsent, d, hd, htaken, hwrong⟩
    obtain ⟨d', hd', hright⟩ := h ⟨hsent, d, hd, htaken⟩
    obtain rfl := Option.mem_unique hd hd'
    exact hwrong hright
  · rintro h ⟨hsent, d, hd, htaken⟩
    by_contra hnot
    exact h ⟨hsent, d, hd, htaken, fun hright => hnot ⟨d, hd, hright⟩⟩

namespace Ping

/-- The reply to this request. -/
def IsReply (p : Ping) (buf : Bytes) : Prop :=
  buf.view (ipHlen buf) = icmpEchoReply ∧ be16 buf.view (ipHlen buf + 4) = p.id ∧
    be16 buf.view (ipHlen buf + 6) = p.seq

instance (p : Ping) (buf : Bytes) : Decidable (p.IsReply buf) :=
  inferInstanceAs (Decidable (_ ∧ _ ∧ _))

/-- The loop body behind a `recvfrom`. -/
def receive (p : Ping) (r : Recv) : PingState :=
  if r.buf.length = 0 then .ended none
  else if r.buf.length < ipHlen r.buf + sizeofIcmp then .waiting r.time
  else if p.IsReply r.buf then .ended (some (timespecDiffMs p.sendTime r.time))
  else if timespecDiffMs p.sendTime r.time ≥ p.timeoutMs then .ended none
  else .waiting r.time

/-- The loop; it emits the times at which `recvfrom` is called again. -/
def loop (p : Ping) : Machine PingState Recv Timespec where
  step s r :=
    match s with
    | .waiting _ => p.receive r
    | .ended latency => .ended latency
  out s r :=
    match s, p.receive r with
    | .waiting _, .waiting t => [t]
    | _, _ => []

/-- `recvfrom` called for the first time. -/
def start (p : Ping) : PingState := .waiting p.sendTime

/-- A packet the loop skips: not empty, but too short behind its IP header. -/
def Short (r : Recv) : Prop := r.buf.length ≠ 0 ∧ r.buf.length < ipHlen r.buf + sizeofIcmp

instance (r : Recv) : Decidable (Short r) := inferInstanceAs (Decidable (_ ∧ _))

/-! ## One packet -/

variable {p : Ping} {r : Recv}

theorem receive_short (h : Short r) : p.receive r = .waiting r.time := by
  rw [receive, if_neg h.1, if_pos h.2]

/-- Any other packet is waited behind only within the timeout. -/
theorem receive_long (h : ¬ Short r) {t : Timespec} (hw : p.receive r = .waiting t) :
    t = r.time ∧ timespecDiffMs p.sendTime r.time < p.timeoutMs := by
  unfold receive at hw
  split at hw
  · cases hw
  · rename_i hne
    rw [if_neg fun hlt => h ⟨hne, hlt⟩] at hw
    split at hw
    · cases hw
    · split at hw
      · cases hw
      · rename_i hin
        cases hw
        exact ⟨rfl, not_le.mp hin⟩

/-- The loop goes on within the timeout exactly if the packet is not a late short one. -/
theorem receive_iff (p : Ping) (r : Recv) :
    (∀ t, p.receive r = .waiting t → timespecDiffMs p.sendTime t < p.timeoutMs) ↔
      (Short r → timespecDiffMs p.sendTime r.time < p.timeoutMs) := by
  constructor
  · exact fun h hs => h r.time (receive_short hs)
  · intro h t ht
    by_cases hs : Short r
    · have heq := receive_short (p := p) hs
      rw [ht] at heq
      cases heq
      exact h hs
    · obtain ⟨rfl, hlt⟩ := receive_long hs ht
      exact hlt

/-! ## The loop -/

/-- The call returned within the receive timeout. -/
def Timely (p : Ping) (s : PingState) (r : Recv) : Prop :=
  ∀ since, s = .waiting since →
    0 ≤ timespecDiffMs since r.time ∧ timespecDiffMs since r.time ≤ p.timeoutMs

/-- The timeout is respected: no call after it, and with the receive timeout in force no call
returns after twice the time. -/
structure Respects (p : Ping) (rs : List Recv) : Prop where
  calls : ∀ t ∈ p.loop.trace p.start rs, timespecDiffMs p.sendTime t < p.timeoutMs
  ends : p.loop.Along p.Timely p.start rs → p.loop.Along (fun s r => ∀ since, s = .waiting since →
    timespecDiffMs p.sendTime r.time ≤ 2 * p.timeoutMs) p.start rs

/-- No short packet comes when the timeout has passed. -/
def NoLateShort (p : Ping) (rs : List Recv) : Prop :=
  p.loop.Along (fun s r => ∀ since, s = .waiting since → Short r →
    timespecDiffMs p.sendTime r.time < p.timeoutMs) p.start rs

theorem out_waiting (since : Timespec) (Q : Timespec → Prop) :
    (∀ t ∈ p.loop.out (.waiting since) r, Q t) ↔ ∀ t, p.receive r = .waiting t → Q t := by
  simp only [loop]
  cases p.receive r with
  | waiting t => simp
  | ended latency => simp

theorem calls_iff (p : Ping) (rs : List Recv) :
    (∀ t ∈ p.loop.trace p.start rs, timespecDiffMs p.sendTime t < p.timeoutMs) ↔
      p.NoLateShort rs := by
  rw [p.loop.forall_trace_iff]
  refine p.loop.along_congr (I := fun _ => True) (fun _ _ _ _ => trivial) (fun s r _ => ?_)
    trivial rs
  cases s with
  | waiting since =>
    rw [out_waiting, receive_iff]
    exact ⟨fun h _ _ => h, fun h => h since rfl⟩
  | ended latency => exact iff_of_true (fun _ h => by cases h) (fun _ h => by cases h)

/-- A loop that has ended makes no further call. -/
theorem along_ended {P : Timespec → Recv → Prop} (latency : Option ℚ) (rs : List Recv) :
    p.loop.Along (fun s r => ∀ since, s = .waiting since → P since r) (.ended latency) rs := by
  induction rs with
  | nil => trivial
  | cons r rs ih => exact ⟨nofun, ih⟩

/-- Where every call is made within the timeout, one that returns within another timeout of it
returns within twice the timeout of the request. -/
theorem ends_of_calls {since : Timespec} {rs : List Recv}
    (hsince : timespecDiffMs p.sendTime since ≤ p.timeoutMs)
    (hcalls : ∀ t ∈ p.loop.trace (.waiting since) rs, timespecDiffMs p.sendTime t < p.timeoutMs)
    (htimely : p.loop.Along p.Timely (.waiting since) rs) :
    p.loop.Along (fun s r => ∀ since, s = .waiting since →
      timespecDiffMs p.sendTime r.time ≤ 2 * p.timeoutMs) (.waiting since) rs := by
  induction rs generalizing since with
  | nil => trivial
  | cons r rs ih =>
    obtain ⟨hone, hrest⟩ := htimely
    have hstep : p.loop.step (.waiting since) r = p.receive r := rfl
    refine ⟨fun since' heq => ?_, ?_⟩
    · cases heq
      have hadd := timespecDiffMs_add p.sendTime since r.time
      have hwait := (hone since rfl).2
      linarith only [hadd, hwait, hsince]
    · rw [Machine.trace_cons, List.forall_mem_append] at hcalls
      rw [hstep] at hcalls hrest ⊢
      cases hreceive : p.receive r with
      | waiting t =>
        rw [hreceive] at hcalls hrest
        have ht := (out_waiting since fun t => timespecDiffMs p.sendTime t < p.timeoutMs).mp
          hcalls.1 t hreceive
        exact ih (le_of_lt ht) hcalls.2 hrest
      | ended latency => exact along_ended latency rs

/-- **A ping respects its timeout** exactly when no short packet comes late. -/
theorem respects_iff (p : Ping) (rs : List Recv) : p.Respects rs ↔ p.NoLateShort rs := by
  rw [← calls_iff]
  refine ⟨Respects.calls, fun h => ⟨h, fun htimely => ?_⟩⟩
  cases rs with
  | nil => trivial
  | cons r rs =>
    refine ends_of_calls ?_ h htimely
    obtain ⟨hnonneg, hle⟩ := htimely.1 p.sendTime rfl
    rw [timespecDiffMs_self]
    exact le_trans hnonneg hle

/-- Somebody else's echo request without a payload, 1.5 s after a request with a timeout of
one second: `recvfrom` is called again. -/
theorem not_respects : ¬ ∀ (p : Ping) (rs : List Recv), p.Respects rs := by
  intro h
  have hcall := (h ⟨1000, 4711, 1, ⟨0, 0⟩⟩
    [⟨⟨1, 500000000⟩, some (0x45 :: List.replicate 19 0 ++ [8, 0, 0, 0, 0, 0, 0, 0])⟩]).calls
    ⟨1, 500000000⟩ (by decide +kernel)
  revert hcall
  decide +kernel

end Ping

end NetMon.Net
