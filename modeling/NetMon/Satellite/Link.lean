import Mathlib.Data.List.Chain
import NetMon.Lib.Machine
import NetMon.Satellite.Data

/-!
# The link state

Runs of `sat_data_mark_alive` and `sat_data_check_connection`. The clock counts
milliseconds without end; both functions get its low 32 bits (`millis`), and the
check subtracts them. `LinkInv` relates the data model to the calls made so far at
their full times: while connected, the stored time is that of the last frame, at
most the timeout before the last call; once disconnected, every frame is older than
that. As long as calls are close enough for the difference to mean what it says
(`Ticking`), each call keeps it, however long the run.
-/

namespace NetMon.Satellite

open NetMon.Lib

/-- `millis()`: the clock's low 32 bits. -/
def millis (t : Nat) : UInt32 := UInt32.ofNat t

/-- Less than 2^32 ms apart, the truncated difference is the true one. -/
theorem millis_sub {t t' : Nat} (h : t ≤ t') (h' : t' - t < 2 ^ 32) :
    (millis t' - millis t).toNat = t' - t := by
  unfold millis
  rw [UInt32.toNat_sub, UInt32.toNat_ofNat', UInt32.toNat_ofNat']
  omega

/-- A call of `sat_data.c`, at its full time. -/
inductive LinkCall where
  | markAlive (t : Nat) (seq : UInt16)
  | checkConnection (t : Nat)
  deriving DecidableEq, Repr

def LinkCall.time : LinkCall → Nat
  | markAlive t _ => t
  | checkConnection t => t

/-- The data model as a machine over the calls. -/
def link : Machine SatData LinkCall Unit where
  step d
    | .markAlive t seq => satDataMarkAlive d (millis t) seq
    | .checkConnection t => satDataCheckConnection d (millis t)
  out _ _ := []

/-- Times in order, each less than 2^32 - 5001 ms after the one before. -/
def Ticking (ts : List Nat) : Prop := ts.IsChain fun a b => a ≤ b ∧ b - a < 2 ^ 32 - 5001

instance (ts : List Nat) : Decidable (Ticking ts) := inferInstanceAs (Decidable (List.IsChain _ ts))

/-- The link state of `d` after `calls`, the last of them at `now`. -/
structure LinkInv (d : SatData) (calls : List LinkCall) (now : Nat) : Prop where
  past : ∀ c ∈ calls, c.time ≤ now
  up : d.connected = true → ∃ t seq, .markAlive t seq ∈ calls ∧ d.lastRxTime = millis t ∧
    now ≤ t + 5000 ∧ ∀ u seq', .markAlive u seq' ∈ calls → u ≤ t
  down : d.connected = false → ∀ t seq, .markAlive t seq ∈ calls → t + 5000 < now

variable {d : SatData} {calls : List LinkCall} {now : Nat}

theorem linkInv_zero (now : Nat) : LinkInv SatData.zero [] now :=
  ⟨nofun, nofun, fun _ _ _ h => nomatch h⟩

theorem LinkInv.past_append (h : LinkInv d calls now) {c : LinkCall} (hle : now ≤ c.time) :
    ∀ c' ∈ calls ++ [c], c'.time ≤ c.time := fun c' hc' => by
  rcases List.mem_append.mp hc' with hc' | hc'
  · exact (h.past c' hc').trans hle
  · rw [List.mem_singleton.mp hc']

theorem LinkInv.markAlive (h : LinkInv d calls now) {t : Nat} (hle : now ≤ t) (seq : UInt16) :
    LinkInv (satDataMarkAlive d (millis t) seq) (calls ++ [.markAlive t seq]) t := by
  have hpast := h.past_append (c := .markAlive t seq) hle
  refine ⟨hpast, fun _ => ⟨t, seq, by simp, rfl, by omega, fun u seq' hu => ?_⟩, nofun⟩
  exact hpast _ hu

/-- The stored time is at most 5000 ms behind the last call, so the check sees the true
silence. -/
theorem LinkInv.checkConnection (h : LinkInv d calls now) {t : Nat} (hle : now ≤ t)
    (hgap : t - now < 2 ^ 32 - 5001) :
    LinkInv (satDataCheckConnection d (millis t)) (calls ++ [.checkConnection t]) t := by
  have hpast := h.past_append (c := .checkConnection t) hle
  have hmem : ∀ s seq, LinkCall.markAlive s seq ∈ calls ++ [.checkConnection t] ↔
      LinkCall.markAlive s seq ∈ calls := fun s seq => by simp
  unfold satDataCheckConnection
  cases hconn : d.connected with
  | false =>
    rw [if_neg (by simp)]
    refine ⟨hpast, fun hup => by simp [hconn] at hup, fun _ s seq hs => ?_⟩
    have := h.down hconn s seq ((hmem s seq).mp hs)
    omega
  | true =>
    obtain ⟨s, seq, hs, hlast, hnow, hnewest⟩ := h.up hconn
    have hpast_s : s ≤ now := h.past _ hs
    have hdiff : (millis t - d.lastRxTime).toNat = t - s := by
      rw [hlast]
      exact millis_sub (by omega) (by omega)
    have hsilent : millis t - d.lastRxTime > connectionTimeoutMs ↔ s + 5000 < t := by
      rw [gt_iff_lt, UInt32.lt_iff_toNat_lt, hdiff]
      change 5000 < t - s ↔ _
      omega
    split
    · rename_i hdrop
      have hlate := hsilent.mp hdrop.2
      refine ⟨hpast, nofun, fun _ u seq' hu => ?_⟩
      have := hnewest u seq' ((hmem u seq').mp hu)
      omega
    · rename_i hkeep
      refine ⟨hpast, fun _ => ⟨s, seq, (hmem s seq).mpr hs, hlast, ?_, fun u seq' hu => ?_⟩,
        fun hdn => by simp [hconn] at hdn⟩
      · have : ¬ s + 5000 < t := fun hlate => hkeep ⟨rfl, hsilent.mpr hlate⟩
        omega
      · exact hnewest u seq' ((hmem u seq').mp hu)

/-- One call. -/
theorem LinkInv.step (h : LinkInv d calls now) (c : LinkCall) (hle : now ≤ c.time)
    (hgap : c.time - now < 2 ^ 32 - 5001) : LinkInv (link.step d c) (calls ++ [c]) c.time := by
  cases c with
  | markAlive t seq => exact h.markAlive hle seq
  | checkConnection t => exact h.checkConnection hle hgap

/-- A recent frame keeps the link up. -/
theorem LinkInv.connected_of_recent (h : LinkInv d calls now) {t : Nat} {seq : UInt16}
    (ht : LinkCall.markAlive t seq ∈ calls) (hrecent : now ≤ t + 5000) : d.connected = true := by
  by_contra hdown
  have := h.down (Bool.eq_false_iff.mpr hdown) t seq ht
  omega

/-- A run of calls on a ticking clock, up to and including `c`. -/
theorem LinkInv.run (h : LinkInv d calls now) (cs : List LinkCall) (c : LinkCall)
    (hclock : Ticking (now :: (cs ++ [c]).map LinkCall.time)) :
    LinkInv (link.exec d (cs ++ [c])) (calls ++ (cs ++ [c])) c.time := by
  induction cs generalizing d calls now with
  | nil =>
    obtain ⟨⟨hle, hgap⟩, _⟩ := List.isChain_cons_cons.mp hclock
    exact h.step c hle hgap
  | cons c' cs ih =>
    obtain ⟨⟨hle, hgap⟩, hrest⟩ := List.isChain_cons_cons.mp hclock
    have := ih (h.step c' hle hgap) hrest
    rwa [List.append_assoc] at this

/-- After any run of calls from boot. -/
theorem linkInv_run (cs : List LinkCall) (c : LinkCall)
    (hclock : Ticking ((cs ++ [c]).map LinkCall.time)) :
    LinkInv (link.exec SatData.zero (cs ++ [c])) (cs ++ [c]) c.time := by
  have hfirst : ∃ t ts, (cs ++ [c]).map LinkCall.time = t :: ts := by
    cases cs <;> exact ⟨_, _, rfl⟩
  obtain ⟨t, ts, hts⟩ := hfirst
  apply (linkInv_zero t).run cs c
  rw [hts] at hclock ⊢
  exact List.isChain_cons_cons.mpr ⟨⟨Nat.le_refl t, by omega⟩, hclock⟩

/-- **The link state is the truth**: right after a check at `T` the display is connected if and
only if a valid frame was marked at most 5000 ms ago. -/
theorem connected_iff_marked (calls : List LinkCall) (T : Nat)
    (hclock : Ticking ((calls ++ [LinkCall.checkConnection T]).map LinkCall.time)) :
    (link.exec SatData.zero (calls ++ [LinkCall.checkConnection T])).connected = true ↔
      ∃ t seq, LinkCall.markAlive t seq ∈ calls ∧ T ≤ t + 5000 := by
  have h := linkInv_run calls (LinkCall.checkConnection T) hclock
  simp only [LinkCall.time] at h
  constructor
  · intro hup
    obtain ⟨t, seq, ht, _, hnow, _⟩ := h.up hup
    exact ⟨t, seq, by simpa using ht, by omega⟩
  · rintro ⟨t, seq, ht, hrecent⟩
    exact h.connected_of_recent (List.mem_append_left _ ht) hrecent

/-- Two silences of almost 2^32 ms, then a frame: the low 32 bits have wrapped. -/
theorem connected_iff_marked_wrapped :
    (link.exec SatData.zero ([LinkCall.markAlive 0 7, .checkConnection 4294962294,
      .checkConnection 8589924588, .markAlive 8589924600 8] ++
      [LinkCall.checkConnection 8589929000])).connected = true ↔
      ∃ t seq, LinkCall.markAlive t seq ∈ [LinkCall.markAlive 0 7, .checkConnection 4294962294,
        .checkConnection 8589924588, .markAlive 8589924600 8] ∧ 8589929000 ≤ t + 5000 :=
  connected_iff_marked _ _ (by decide)

end NetMon.Satellite
