import Mathlib.Tactic.NormNum
import NetMon.Satellite.Severity

/-!
# Memory use

The status and the dashboard screen compute the percentage in 64 bits, the satellite encoder
the same formula in 32. `sameMemory_iff` says for which machines that makes no difference.
-/

namespace NetMon.Ui

open NetMon.Lib NetMon.Core NetMon.Net NetMon.Api NetMon.Satellite

/-- `(int)(100 - ((uint64_t)state->mem_available_kb * 100 / state->mem_total_kb))` -/
def memPct (state : NetState) : Int32 :=
  Int32.ofNat (100 - state.memAvailableKb.toUInt64 * 100 / state.memTotalKb.toUInt64).toNat

/-- The text a screen sets its memory label to, none where it leaves the label alone. -/
def memLabel (state : NetState) : Option CStr :=
  if state.memTotalKb > 0 then some (CStr.lit s!"{(memPct state).toInt}%") else none

/-- The memory label of `ui_status_update`. -/
def uiStatusMem (state : NetState) : Option CStr := memLabel state

/-- The memory label of `ui_dashboard_update`. -/
def uiDashboardMem (state : NetState) : Option CStr := memLabel state

/-- The share of the memory that is in use, in percent. -/
def usedPct (state : NetState) : Nat :=
  100 - state.memAvailableKb.toNat * 100 / state.memTotalKb.toNat

/-- All displays show the percentage. -/
structure SameMemory (m : Monitor) (now : UInt32) : Prop where
  status : uiStatusMem m.state = some (CStr.lit s!"{(usedPct m.state : Int)}%")
  dashboard : uiDashboardMem m.state = some (CStr.lit s!"{(usedPct m.state : Int)}%")
  satellite : (encodeSnapshot (some (apiJsonStatus m)) now).memUsedPct.toNat = usedPct m.state
  range : usedPct m.state ≤ 100

/-! ## The screens -/

/-- At most the whole memory is available. -/
theorem available_pct_le {a t : Nat} (h : a ≤ t) : a * 100 / t ≤ 100 := by
  rcases Nat.eq_zero_or_pos t with rfl | hpos
  · simp
  · rw [Nat.div_le_iff_le_mul_add_pred hpos]
    omega

theorem memPct_toInt {state : NetState} (h : state.memAvailableKb ≤ state.memTotalKb) :
    (memPct state).toInt = usedPct state := by
  have ha := state.memAvailableKb.toNat_lt
  have hle := available_pct_le (UInt32.le_iff_toNat_le.mp h)
  have hquot : (state.memAvailableKb.toUInt64 * 100 / state.memTotalKb.toUInt64).toNat =
      state.memAvailableKb.toNat * 100 / state.memTotalKb.toNat := by
    rw [UInt64.toNat_div, UInt64.toNat_mul, UInt32.toNat_toUInt64, UInt32.toNat_toUInt64,
      show (100 : UInt64).toNat = 100 from rfl, Nat.mod_eq_of_lt (by omega)]
  have hsub : (100 - state.memAvailableKb.toUInt64 * 100 / state.memTotalKb.toUInt64).toNat =
      usedPct state := by
    rw [UInt64.toNat_sub_of_le _ _ (UInt64.le_iff_toNat_le.mpr (by rw [hquot]; exact hle)), hquot]
    rfl
  rw [memPct, hsub, Int32.toInt_ofNat_of_lt]
  unfold usedPct
  omega

theorem memLabel_eq {state : NetState} (htotal : state.memTotalKb > 0)
    (h : state.memAvailableKb ≤ state.memTotalKb) :
    memLabel state = some (CStr.lit s!"{(usedPct state : Int)}%") := by
  rw [memLabel, if_pos htotal, memPct_toInt h]

/-! ## The encoder -/

/-- A multiple of `2 ^ 32` lost in front of a division by a 32-bit number always shows. -/
theorem wrapped_div_iff {a t : Nat} (hpos : 0 < t) (ht : t < 2 ^ 32) :
    a % 2 ^ 32 / t = a / t ↔ a < 2 ^ 32 := by
  constructor
  · intro h
    by_contra hge
    have hlost : a % 2 ^ 32 + t ≤ a := by omega
    have hmore := Nat.div_le_div_right (c := t) hlost
    rw [Nat.add_div_right _ hpos] at hmore
    omega
  · intro h
    rw [Nat.mod_eq_of_lt h]

theorem toUInt32_natCast (v : UInt32) : toUInt32 (v.toNat : ℚ) = v := by
  have h := toUInt32_toNat (q := (v.toNat : ℚ)) (Nat.cast_nonneg _)
    (by rw [Int.floor_natCast]; exact_mod_cast v.toNat_lt)
  rw [Int.floor_natCast] at h
  exact UInt32.toNat_inj.mp (by exact_mod_cast h)

/-- The encoder finds both figures in the document; its product has 32 bits. -/
theorem memUsedPct_toNat {m : Monitor} (htotal : m.state.memTotalKb > 0)
    (h : m.state.memAvailableKb ≤ m.state.memTotalKb) (now : UInt32) :
    (encodeSnapshot (some (apiJsonStatus m)) now).memUsedPct.toNat =
      100 - m.state.memAvailableKb.toNat * 100 % 2 ^ 32 / m.state.memTotalKb.toNat := by
  have hvalue : (encodeSnapshot (some (apiJsonStatus m)) now).memUsedPct =
      (100 - m.state.memAvailableKb * 100 / m.state.memTotalKb).toUInt8 := by
    rw [encodeSnapshot_status]
    show (if toUInt32 (m.state.memTotalKb.toNat : ℚ) > 0 then
      (100 - toUInt32 (m.state.memAvailableKb.toNat : ℚ) * 100 /
        toUInt32 (m.state.memTotalKb.toNat : ℚ)).toUInt8 else 0) = _
    rw [toUInt32_natCast, toUInt32_natCast, if_pos htotal]
  have hquot : (m.state.memAvailableKb * 100 / m.state.memTotalKb).toNat =
      m.state.memAvailableKb.toNat * 100 % 2 ^ 32 / m.state.memTotalKb.toNat := by
    rw [UInt32.toNat_div, UInt32.toNat_mul]
    rfl
  have hle : m.state.memAvailableKb.toNat * 100 % 2 ^ 32 / m.state.memTotalKb.toNat ≤ 100 :=
    (Nat.div_le_div_right (Nat.mod_le _ _)).trans (available_pct_le (UInt32.le_iff_toNat_le.mp h))
  rw [hvalue, UInt32.toNat_toUInt8,
    UInt32.toNat_sub_of_le _ _ (UInt32.le_iff_toNat_le.mpr (by rw [hquot]; exact hle)), hquot,
    Nat.mod_eq_of_lt]
  · rfl
  · show 100 - _ < 2 ^ 8
    omega

/-- **All displays agree** on a machine's memory use exactly when 100 times the available
memory fits 32 bits. -/
theorem sameMemory_iff (m : Monitor) (now : UInt32) (htotal : m.state.memTotalKb > 0)
    (h : m.state.memAvailableKb ≤ m.state.memTotalKb) :
    SameMemory m now ↔ m.state.memAvailableKb.toNat * 100 < 2 ^ 32 := by
  have hpos : 0 < m.state.memTotalKb.toNat := UInt32.lt_iff_toNat_lt.mp htotal
  have hwrap := wrapped_div_iff (a := m.state.memAvailableKb.toNat * 100) hpos
    m.state.memTotalKb.toNat_lt
  have hle := available_pct_le (UInt32.le_iff_toNat_le.mp h)
  have hlow : m.state.memAvailableKb.toNat * 100 % 2 ^ 32 / m.state.memTotalKb.toNat ≤
      m.state.memAvailableKb.toNat * 100 / m.state.memTotalKb.toNat :=
    Nat.div_le_div_right (Nat.mod_le _ _)
  rw [← hwrap]
  constructor
  · intro hsame
    have hpct := hsame.satellite
    rw [memUsedPct_toNat htotal h, usedPct] at hpct
    omega
  · intro hquot
    refine ⟨memLabel_eq htotal h, memLabel_eq htotal h, ?_, Nat.sub_le _ _⟩
    rw [memUsedPct_toNat htotal h, hquot]
    rfl

/-- A monitor with these memory figures. -/
def memMonitor (total available : UInt32) : Monitor :=
  monitorAfter { NetState.zero with memTotalKb := total, memAvailableKb := available } []

theorem sameMemory_small : SameMemory (memMonitor 1048576 524288) 0 :=
  (sameMemory_iff (memMonitor 1048576 524288) 0 (by decide) (by decide)).mpr (by decide)

/-- 64 GiB of memory, of which 41 GiB are available: the satellite shows 100 percent. -/
theorem large_memory_wraps : ¬ ∀ (m : Monitor) (now : UInt32), m.state.memTotalKb > 0 →
    m.state.memAvailableKb ≤ m.state.memTotalKb → SameMemory m now := by
  intro h
  have hpct := (h (memMonitor 67108864 42949673) 0 (by decide) (by decide)).satellite
  rw [memUsedPct_toNat (m := memMonitor 67108864 42949673) (by decide) (by decide)] at hpct
  revert hpct
  decide

end NetMon.Ui
