import Mathlib.Algebra.Order.Field.Rat
import NetMon.Net.Rates

/-!
# Counters that go down

A byte counter can be lower than its baseline: the driver was reset, the interface
re-created, or a narrower counter wrapped. The deltas are unsigned 64-bit differences, so
the totals, the rate and the peak take such a step for almost 2^64 bytes. `intact_iff`
says what one sample does to them, `resets_iff` what that means for whole runs.
-/

namespace NetMon.Net

open NetMon.Lib NetMon.Core

def NetStats.bytes (st : NetStats) : Direction → UInt64
  | .rx => st.rxBytes
  | .tx => st.txBytes

def NetRates.bytesPerSec (r : NetRates) : Direction → ℚ
  | .rx => r.rxBytesPerSec
  | .tx => r.txBytesPerSec

def NetIfaceState.bytesToday (st : NetIfaceState) : Direction → UInt64
  | .rx => st.rxBytesToday
  | .tx => st.txBytesToday

def NetIfaceState.peakBps (st : NetIfaceState) : Direction → ℚ
  | .rx => st.peakRxBps
  | .tx => st.peakTxBps

/-- The highest rate a sample can honestly claim: the whole reading, or the growth. -/
def honestRate (s : RateSample) (dt : ℚ) (d : Direction) : ℚ :=
  max ((s.cur.bytes d).toNat : ℚ) ((s.cur.bytes d).toNat - (s.base.bytes d).toNat) / dt

/-- A sample that turns the row `old` into `new` leaves total, rate and peak sound. -/
structure Intact (old new : NetIfaceState) (s : RateSample) (dt : ℚ) (d : Direction) : Prop where
  total : (old.bytesToday d).toNat ≤ (new.bytesToday d).toNat
  growth : s.cur.bytes d < s.base.bytes d →
    (new.bytesToday d).toNat ≤ (old.bytesToday d).toNat + (s.cur.bytes d).toNat
  rate : new.rates.bytesPerSec d ≤ honestRate s dt d
  peak : new.peakBps d ≤ max (old.peakBps d) (honestRate s dt d)

/-- The counter did not go down, and the day's total has room for what it grew by. -/
structure Rises (old : NetIfaceState) (s : RateSample) (d : Direction) : Prop where
  base : s.base.bytes d ≤ s.cur.bytes d
  room : (old.bytesToday d).toNat + (s.cur.bytes d).toNat - (s.base.bytes d).toNat < 2 ^ 64

instance (old : NetIfaceState) (s : RateSample) (d : Direction) : Decidable (Rises old s d) :=
  decidable_of_iff (_ ∧ _) ⟨fun h => ⟨h.1, h.2⟩, fun h => ⟨h.base, h.room⟩⟩

/-! ## One sample -/

/-- What a sample makes of a row. -/
theorem sampleIface_fields (base cur : NetStats) (dt : ℚ) (old : NetIfaceState) (d : Direction) :
    (sampleIface base cur dt old).bytesToday d = old.bytesToday d + (cur.bytes d - base.bytes d) ∧
      (sampleIface base cur dt old).rates.bytesPerSec d =
        rateOf (cur.bytes d) (base.bytes d) dt ∧
      (sampleIface base cur dt old).peakBps d =
        max (old.peakBps d) (rateOf (cur.bytes d) (base.bytes d) dt) := by
  cases d <;> exact ⟨rfl, rfl, rfl⟩

/-- The larger of the two is the reading itself. -/
theorem honestRate_eq (s : RateSample) (dt : ℚ) (d : Direction) :
    honestRate s dt d = ((s.cur.bytes d).toNat : ℚ) / dt := by
  unfold honestRate
  rw [max_eq_left]
  exact sub_le_self _ (Nat.cast_nonneg _)

theorem rateOf_le_honest {s : RateSample} {dt : ℚ} (hdt : 0 < dt) (d : Direction) :
    rateOf (s.cur.bytes d) (s.base.bytes d) dt ≤ honestRate s dt d ↔
      s.base.bytes d ≤ s.cur.bytes d := by
  have hc := (s.cur.bytes d).toNat_lt
  have hb := (s.base.bytes d).toNat_lt
  rw [honestRate_eq, rateOf, div_le_div_iff_of_pos_right hdt, Nat.cast_le, UInt64.toNat_sub,
    UInt64.le_iff_toNat_le]
  omega

/-- **One sample** leaves a row sound exactly when the counter rises. -/
theorem intact_iff {s : RateSample} {dt : ℚ} (hdt : 0 < dt) (old : NetIfaceState) (d : Direction) :
    Intact old (sampleIface s.base s.cur dt old) s dt d ↔ Rises old s d := by
  obtain ⟨htoday, hrate, hpeak⟩ := sampleIface_fields s.base s.cur dt old d
  have hhonest := rateOf_le_honest (s := s) hdt d
  have ht := (old.bytesToday d).toNat_lt
  have hc := (s.cur.bytes d).toNat_lt
  have hsum : ((sampleIface s.base s.cur dt old).bytesToday d).toNat =
      ((old.bytesToday d).toNat + (2 ^ 64 - (s.base.bytes d).toNat + (s.cur.bytes d).toNat) %
        2 ^ 64) % 2 ^ 64 := by
    rw [htoday, UInt64.toNat_add, UInt64.toNat_sub]
  constructor
  · intro h
    have hbase := hhonest.mp (hrate ▸ h.rate)
    refine ⟨hbase, ?_⟩
    have htotal := h.total
    rw [UInt64.le_iff_toNat_le] at hbase
    omega
  · intro h
    have hbase := h.base
    have hroom := h.room
    rw [UInt64.le_iff_toNat_le] at hbase
    refine ⟨by omega, fun hlt => ?_, hrate ▸ hhonest.mpr h.base, ?_⟩
    · rw [UInt64.lt_iff_toNat_lt] at hlt
      omega
    · rw [hpeak]
      exact max_le_max (le_refl _) (hhonest.mpr h.base)

/-! ## Runs -/

/-- `P` holds of every sample of the tick, with its row before and after it. -/
def EachSample (P : NetIfaceState → NetIfaceState → RateSample → ℚ → Prop) (c : Collector) :
    Tick → Prop
  | .fast f =>
    let dt := elapsed f.now c.prevTime
    c.prevValid ∧ 0 < dt → (rateLoop dt).Along (fun c cur => ∀ s, sampleFor c cur = some s →
      P (c.state.ifaces s.row) (((rateLoop dt).step c cur).state.ifaces s.row) s dt)
      (updateSysinfo f c) f.reading
  | _ => True

/-- The row a sample writes. -/
theorem rateLoop_row {c : Collector} {cur : NetStats} {s : RateSample} (dt : ℚ)
    (h : sampleFor c cur = some s) : ((rateLoop dt).step c cur).state.ifaces s.row =
      sampleIface s.base s.cur dt (c.state.ifaces s.row) := by
  have hstep : (rateLoop dt).step c cur = applySample dt c s := by
    show (sampleFor c cur).elim c (applySample dt c) = _
    rw [h]
    rfl
  rw [hstep]
  simp only [applySample, NetState.setIface_self]

theorem eachSample_iff (c : Collector) (t : Tick) :
    EachSample (fun old new s dt => ∀ d, Intact old new s dt d) c t ↔
      EachSample (fun old _ s _ => ∀ d, Rises old s d) c t := by
  cases t with
  | fast f =>
    refine imp_congr_right fun h => (rateLoop _).along_congr (I := fun _ => True)
      (fun _ _ _ _ => trivial) (fun c cur _ => ?_) trivial _
    refine forall_congr' fun s => imp_congr_right fun hs => forall_congr' fun d => ?_
    rw [rateLoop_row _ hs]
    exact intact_iff h.2 _ d
  | medium m => exact Iff.rfl
  | slow i => exact Iff.rfl

/-- **Counter resets.** Along a run every sample leaves the totals, the rates and the peaks sound
exactly when at every sample the counters rise. -/
theorem resets_iff (cfg : Config) (b : BootInput) (ticks : List Tick) :
    collector.Along (EachSample fun old new s dt => ∀ d, Intact old new s dt d)
        (netCollectorInit cfg b) ticks ↔
      collector.Along (EachSample fun old _ s _ => ∀ d, Rises old s d)
        (netCollectorInit cfg b) ticks :=
  collector.along_congr (I := fun _ => True) (fun _ _ _ _ => trivial)
    (fun c t _ => eachSample_iff c t) trivial ticks

/-- `eth0` at 500 received bytes, then re-created and at 100. -/
def eth0Recreated : List Tick :=
  [.fast (fastAt 1 "\n\neth0:500 0 0 0 0 0 0 0 0 0 0 0 0 0 0 0\n"),
    .fast (fastAt 2 "\n\neth0:100 0 0 0 0 0 0 0 0 0 0 0 0 0 0 0\n")]

/-- The day's total grows by 2^64 - 400 bytes. -/
theorem eth0_recreated_corrupts : ¬ ∀ (cfg : Config) (b : BootInput) (ticks : List Tick),
    collector.Along (EachSample fun old new s dt => ∀ d, Intact old new s dt d)
      (netCollectorInit cfg b) ticks := by
  intro h
  obtain ⟨_, hsecond, _⟩ := h Config.empty (bootWith ["eth0"]) eth0Recreated
  obtain ⟨hsample, _⟩ := hsecond (by decide +kernel)
  have hgrowth := (hsample ⟨0, statsOf "eth0" 500 0, statsOf "eth0" 100 0⟩ (by decide +kernel)
    .rx).growth (by decide +kernel)
  revert hgrowth
  decide +kernel

end NetMon.Net
