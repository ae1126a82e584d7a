import Mathlib.Tactic.NormNum
import NetMon.Lib.RunningMax
import NetMon.Satellite.Data

/-!
# The gauges

`sat_ui_update` shows the share of the fastest link the interfaces' rates add up to. The sum of
the rates and the speed of a link in bits per second are 32-bit numbers.

While every speed fits, the gauges are exact as long as the sums of the rates fit as well, or
fill the link even without the bits they have lost; for any other speeds there are rates that are
shown wrong (`gauges_iff`).
-/

namespace NetMon.Satellite

open NetMon.Lib

/-- The values of `s_rx_gauge` and `s_tx_gauge`. -/
structure SatGauges where
  rx : Int32
  tx : Int32
  deriving DecidableEq

/-- The value `sat_gauge_set_value` stores and gives the arc. -/
def satGaugeSetValue (value : Int32) : Int32 :=
  let value := if value < 0 then 0 else value
  if value > 100 then 100 else value

/-- `(int)((uint64_t)rate * 8 * 100 / max_bps)` -/
def ratePct (rate maxBps : UInt32) : Int32 :=
  Int32.ofNat (rate.toUInt64 * 8 * 100 / maxBps.toUInt64).toNat

/-- The gauges after `sat_ui_update`. -/
def satUiUpdate (d : SatData) : SatGauges :=
  if d.connected then
    let maxBps := if d.maxLinkBps = 0 then 100000000 else d.maxLinkBps
    ⟨satGaugeSetValue (ratePct d.totalRxRate maxBps),
      satGaugeSetValue (ratePct d.totalTxRate maxBps)⟩
  else ⟨satGaugeSetValue 0, satGaugeSetValue 0⟩

/-! ## What they should show -/

/-- The share of `r` bytes per second in `m` bits per second, at most all of it. -/
def percent (r m : Nat) : Nat := min 100 (800 * r / m)

/-- The sum of the rates. -/
def total (rate : SatIfaceData → UInt32) (srcs : List SatIfaceData) : Nat :=
  (srcs.map fun src => (rate src).toNat).sum

/-- The greatest link speed in Mbps. -/
def topSpeed (srcs : List SatIfaceData) : Nat :=
  (srcs.map fun src => src.linkSpeed.toNat).foldl max 0

/-- The fastest link in bits per second, and 100 Mbps where no speed is known. -/
def fullScale (srcs : List SatIfaceData) : Nat :=
  if topSpeed srcs = 0 then 10 ^ 8 else 10 ^ 6 * topSpeed srcs

/-- Every link speed fits 32 bits in bits per second. -/
def SpeedsFit (srcs : List SatIfaceData) : Prop := ∀ src ∈ srcs, src.linkSpeed.toNat < 4295

/-- The sum of the rates fits 32 bits, or what is left of it there fills the fastest link too. -/
def SumFits (rate : SatIfaceData → UInt32) (srcs : List SatIfaceData) : Prop :=
  total rate srcs < 2 ^ 32 ∨ fullScale srcs ≤ 8 * (total rate srcs % 2 ^ 32)

structure GaugesExact (g : SatGauges) (srcs : List SatIfaceData) : Prop where
  rx : g.rx.toInt = percent (total SatIfaceData.rxRate srcs) (fullScale srcs)
  tx : g.tx.toInt = percent (total SatIfaceData.txRate srcs) (fullScale srcs)

/-! ## In 32 bits -/

/-- A link speed in bits per second, as far as it fits. -/
def linkLow (src : SatIfaceData) : Nat := src.linkSpeed.toNat * 10 ^ 6 % 2 ^ 32

/-- The greatest of these, and 100 Mbps where there is none. -/
def scaleLow (srcs : List SatIfaceData) : Nat :=
  let top := (srcs.map linkLow).foldl max 0
  if top = 0 then 10 ^ 8 else top

/-- The share of `r` in `m` is `p` percent, or more if `p` is all. -/
def InBand (p r m : Nat) : Prop := p * m ≤ 800 * r ∧ (p < 100 → 800 * r < (p + 1) * m)

instance (p r m : Nat) : Decidable (InBand p r m) := inferInstanceAs (Decidable (_ ∧ _))

theorem percent_eq_iff {p r m : Nat} (hm : 0 < m) (hp : p ≤ 100) :
    percent r m = p ↔ InBand p r m := by
  have hlow : p ≤ 800 * r / m ↔ p * m ≤ 800 * r := Nat.le_div_iff_mul_le hm
  have hhigh : 800 * r / m < p + 1 ↔ 800 * r < (p + 1) * m := Nat.div_lt_iff_lt_mul hm
  unfold percent InBand
  omega

/-- Of every 4295 Mbps of a speed 32704 bits per second are left. -/
theorem linkLow_eq (src : SatIfaceData) : linkLow src =
    10 ^ 6 * (src.linkSpeed.toNat % 4295) + 32704 * (src.linkSpeed.toNat / 4295) := by
  have hspeed := src.linkSpeed.toNat_lt
  have hsplit : src.linkSpeed.toNat * 10 ^ 6 =
      10 ^ 6 * (src.linkSpeed.toNat % 4295) + 32704 * (src.linkSpeed.toNat / 4295) +
        2 ^ 32 * (src.linkSpeed.toNat / 4295) := by omega
  rw [linkLow, hsplit, Nat.add_mul_mod_self_left, Nat.mod_eq_of_lt (by omega)]

theorem linkLow_ge {src : SatIfaceData} (h : linkLow src ≠ 0) : 32704 ≤ linkLow src := by
  rw [linkLow_eq] at h ⊢
  generalize src.linkSpeed.toNat % 4295 = rest, src.linkSpeed.toNat / 4295 = wraps at h ⊢
  rcases Nat.eq_zero_or_pos wraps with rfl | hpos
  · omega
  · omega

theorem scaleLow_ge (srcs : List SatIfaceData) : 32704 ≤ scaleLow srcs := by
  unfold scaleLow
  simp only
  split
  · decide
  · rename_i hne
    rcases foldl_max_mem (srcs.map linkLow) 0 with h0 | hmem
    · exact absurd h0 hne
    · obtain ⟨src, -, hsrc⟩ := List.mem_map.mp hmem
      rw [← hsrc] at hne ⊢
      exact linkLow_ge hne

theorem scaleLow_lt (srcs : List SatIfaceData) : scaleLow srcs < 2 ^ 32 := by
  unfold scaleLow
  simp only
  split
  · decide
  · rename_i hne
    rcases foldl_max_mem (srcs.map linkLow) 0 with h0 | hmem
    · exact absurd h0 hne
    · obtain ⟨src, -, hsrc⟩ := List.mem_map.mp hmem
      rw [← hsrc]
      exact Nat.mod_lt _ (by decide)

/-! ## What they show -/

theorem total_foldl (rate : SatIfaceData → UInt32) (srcs : List SatIfaceData) (t : UInt32) :
    (srcs.foldl (fun t src => t + rate src) t).toNat = (t.toNat + total rate srcs) % 2 ^ 32 := by
  induction srcs generalizing t with
  | nil => exact (Nat.mod_eq_of_lt t.toNat_lt).symm
  | cons src srcs ih =>
    have hcons : total rate (src :: srcs) = (rate src).toNat + total rate srcs := rfl
    rw [List.foldl_cons, ih, UInt32.toNat_add, hcons, ← Nat.add_assoc, Nat.mod_add_mod]

theorem maxLink_toNat (srcs : List SatIfaceData) :
    (maxLink srcs).toNat = (srcs.map linkLow).foldl max 0 := by
  have hlink : (UInt32.toNat ∘ fun src : SatIfaceData => src.linkSpeed.toUInt32 * 1000000) =
      linkLow := by
    funext src
    rw [Function.comp_apply, UInt32.toNat_mul, UInt16.toNat_toUInt32]
    rfl
  have hgt : ∀ x m : UInt32, x > m ↔ m.toNat < x.toNat := fun _ _ => UInt32.lt_iff_toNat_lt
  have hloop := foldl_gt_key hgt (srcs.map fun src => src.linkSpeed.toUInt32 * 1000000) 0
  rw [List.foldl_map, List.map_map, hlink] at hloop
  exact hloop

/-- The quotient fits an `int`: no link counts as slower than 32704 bits per second. -/
theorem ratePct_toInt (rate : UInt32) {maxBps : UInt32} (h : 32704 ≤ maxBps.toNat) :
    (ratePct rate maxBps).toInt = (800 * rate.toNat / maxBps.toNat : Nat) := by
  have hrate := rate.toNat_lt
  have hquot : (rate.toUInt64 * 8 * 100 / maxBps.toUInt64).toNat =
      800 * rate.toNat / maxBps.toNat := by
    rw [UInt64.toNat_div, UInt64.toNat_mul, UInt64.toNat_mul, UInt32.toNat_toUInt64,
      UInt32.toNat_toUInt64, show (8 : UInt64).toNat = 8 from rfl,
      show (100 : UInt64).toNat = 100 from rfl, Nat.mod_eq_of_lt (by omega),
      Nat.mod_eq_of_lt (by omega)]
    congr 1
    omega
  have hsmall : 800 * rate.toNat / maxBps.toNat < 2 ^ 31 := by
    apply (Nat.div_le_div_left h (by decide)).trans_lt
    omega
  rw [ratePct, hquot, Int32.toInt_ofNat_of_lt hsmall]

theorem satGaugeSetValue_toInt {value : Int32} {n : Nat} (h : value.toInt = n) :
    (satGaugeSetValue value).toInt = (min 100 n : Nat) := by
  have hnonneg : ¬ value < 0 := by
    rw [Int32.lt_iff_toInt_lt, h]
    exact not_lt.mpr (Int.natCast_nonneg n)
  have hmax : value > 100 ↔ 100 < (n : Int) := by
    rw [gt_iff_lt, Int32.lt_iff_toInt_lt, h]
    rfl
  unfold satGaugeSetValue
  rw [if_neg hnonneg]
  simp only [hmax]
  split
  · rw [show (100 : Int32).toInt = 100 from rfl]
    omega
  · rw [h]
    omega

/-- A gauge shows the share of what fits 32 bits. -/
theorem gauge_toInt (rate : SatIfaceData → UInt32) (srcs : List SatIfaceData) {t m : UInt32}
    (ht : t.toNat = total rate srcs % 2 ^ 32) (hm : m.toNat = scaleLow srcs) :
    (satGaugeSetValue (ratePct t m)).toInt =
      percent (total rate srcs % 2 ^ 32) (scaleLow srcs) := by
  have hlow := scaleLow_ge srcs
  rw [satGaugeSetValue_toInt (ratePct_toInt t (hm ▸ hlow)), ht, hm]
  rfl

theorem update_gauges {d : SatData} (hconn : d.connected = true) (snap : SatSnapshot)
    (srcs : List SatIfaceData) :
    (satUiUpdate (d.update snap srcs)).rx.toInt =
        percent (total SatIfaceData.rxRate srcs % 2 ^ 32) (scaleLow srcs) ∧
      (satUiUpdate (d.update snap srcs)).tx.toInt =
        percent (total SatIfaceData.txRate srcs % 2 ^ 32) (scaleLow srcs) := by
  have htotal : ∀ rate : SatIfaceData → UInt32,
      (srcs.foldl (fun t src => t + rate src) 0).toNat = total rate srcs % 2 ^ 32 := by
    intro rate
    rw [total_foldl]
    exact congrArg (· % _) (Nat.zero_add _)
  have hscale : (d.update snap srcs).maxLinkBps.toNat = scaleLow srcs := by
    show (if maxLink srcs > 0 then maxLink srcs else 100000000).toNat = _
    unfold scaleLow
    simp only [← maxLink_toNat, gt_iff_lt, UInt32.lt_iff_toNat_lt]
    rw [show (0 : UInt32).toNat = 0 from rfl]
    split
    · rename_i hpos
      rw [if_neg (Nat.ne_of_gt hpos)]
    · rename_i hzero
      rw [if_pos (Nat.le_zero.mp (not_lt.mp hzero))]
      rfl
  have hne : (d.update snap srcs).maxLinkBps ≠ 0 := by
    intro h0
    have := scaleLow_ge srcs
    rw [← hscale, h0] at this
    exact absurd this (by decide)
  have hconn' : (d.update snap srcs).connected = true := hconn
  unfold satUiUpdate
  simp only [if_pos hconn', if_neg hne]
  exact ⟨gauge_toInt _ srcs (htotal _) hscale, gauge_toInt _ srcs (htotal _) hscale⟩

/-! ## Within 32 bits -/

theorem topSpeed_scale {srcs : List SatIfaceData}
    (h : SpeedsFit srcs) : scaleLow srcs = fullScale srcs := by
  have hlow : srcs.map linkLow = (srcs.map fun src => src.linkSpeed.toNat).map (10 ^ 6 * ·) := by
    rw [List.map_map]
    apply List.map_congr_left
    intro src hsrc
    have hspeed := h src hsrc
    rw [linkLow_eq, Nat.mod_eq_of_lt hspeed, Nat.div_eq_of_lt hspeed]
    rfl
  have hscale : ∀ (l : List Nat) (a : Nat),
      (l.map (10 ^ 6 * ·)).foldl max (10 ^ 6 * a) = 10 ^ 6 * l.foldl max a := by
    intro l
    induction l with
    | nil => exact fun _ => rfl
    | cons b l ih =>
      intro a
      rw [List.map_cons, List.foldl_cons, List.foldl_cons, ← ih, Nat.mul_max_mul_left]
  have htop : (srcs.map linkLow).foldl max 0 = 10 ^ 6 * topSpeed srcs := by
    rw [hlow]
    exact hscale _ 0
  unfold scaleLow fullScale
  simp only [htop]
  by_cases h0 : topSpeed srcs = 0
  · rw [if_pos h0, if_pos (by rw [h0, Nat.mul_zero])]
  · rw [if_neg h0, if_neg (Nat.mul_ne_zero (by decide) h0)]

/-- On a link whose speed fits, the 32-bit sum shows the right percentage exactly when it is the
sum or fills the link as well. -/
theorem percent_wrapped_iff {r m : Nat} (hm : 0 < m) (hlink : m < 2 ^ 32) :
    percent (r % 2 ^ 32) m = percent r m ↔ r < 2 ^ 32 ∨ m ≤ 8 * (r % 2 ^ 32) := by
  by_cases hr : r < 2 ^ 32
  · rw [Nat.mod_eq_of_lt hr]
    exact iff_of_true rfl (.inl hr)
  · have hall : percent r m = 100 := (percent_eq_iff hm (Nat.le_refl _)).mpr
      ⟨by omega, fun hlt => absurd hlt (by decide)⟩
    rw [hall, percent_eq_iff hm (Nat.le_refl _), InBand, or_iff_right hr]
    omega

theorem fullScale_lt {srcs : List SatIfaceData} (h : SpeedsFit srcs) :
    0 < fullScale srcs ∧ fullScale srcs < 2 ^ 32 := by
  have hlow := scaleLow_ge srcs
  have hhigh := scaleLow_lt srcs
  rw [topSpeed_scale h] at hlow hhigh
  exact ⟨Nat.lt_of_lt_of_le (by decide) hlow, hhigh⟩

/-! ## Speeds beyond them -/

/-- The scales are made from the speeds alone. -/
theorem scales_congr {srcs srcs' : List SatIfaceData}
    (h : srcs'.map SatIfaceData.linkSpeed = srcs.map SatIfaceData.linkSpeed) :
    scaleLow srcs' = scaleLow srcs ∧ fullScale srcs' = fullScale srcs := by
  have hmap : ∀ {β : Type} (f : UInt16 → β),
      (srcs'.map fun src => f src.linkSpeed) = srcs.map fun src => f src.linkSpeed := fun f => by
    have := congrArg (List.map f) h
    rwa [List.map_map, List.map_map] at this
  constructor
  · unfold scaleLow linkLow
    rw [hmap fun speed => speed.toNat * 10 ^ 6 % 2 ^ 32]
  · unfold fullScale topSpeed
    rw [hmap UInt16.toNat]

/-- The first interface receives at this rate, and nothing else is going on. -/
def onlyFirst (rate : UInt32) : List SatIfaceData → List SatIfaceData
  | [] => []
  | src :: srcs => { src with rxRate := rate, txRate := 0 } ::
      srcs.map ({ · with rxRate := 0, txRate := 0 })

theorem onlyFirst_speeds (rate : UInt32) (srcs : List SatIfaceData) :
    (onlyFirst rate srcs).map SatIfaceData.linkSpeed = srcs.map SatIfaceData.linkSpeed := by
  cases srcs with
  | nil => rfl
  | cons src srcs =>
    rw [onlyFirst, List.map_cons, List.map_cons, List.map_map]
    rfl

theorem total_onlyFirst (rate : UInt32) {srcs : List SatIfaceData} (h : srcs ≠ []) :
    total SatIfaceData.rxRate (onlyFirst rate srcs) = rate.toNat ∧
      total SatIfaceData.txRate (onlyFirst rate srcs) = 0 := by
  obtain ⟨src, srcs, rfl⟩ := List.exists_cons_of_ne_nil h
  have hrest : ∀ f : SatIfaceData → UInt32,
      (∀ src : SatIfaceData, f { src with rxRate := 0, txRate := 0 } = 0) →
      total f (srcs.map ({ · with rxRate := 0, txRate := 0 })) = 0 := by
    intro f hf
    rw [total, List.map_map, List.sum_eq_zero_iff_forall_eq_nat, List.forall_mem_map]
    intro src _
    rw [Function.comp_apply, hf]
    rfl
  constructor
  · show rate.toNat + total SatIfaceData.rxRate _ = _
    rw [hrest _ fun _ => rfl, Nat.add_zero]
  · show (0 : UInt32).toNat + total SatIfaceData.txRate _ = _
    rw [hrest _ fun _ => rfl]
    rfl

/-- An eighth of what counts as the speed of the fastest link is all of it on the gauge, and less
than all of the link. -/
theorem exists_wrong {srcs : List SatIfaceData} (h : ¬ SpeedsFit srcs) :
    ∃ r < 2 ^ 32, percent r (scaleLow srcs) ≠ percent r (fullScale srcs) := by
  obtain ⟨src, hsrc, hfast⟩ : ∃ src ∈ srcs, 4295 ≤ src.linkSpeed.toNat := by
    simpa [SpeedsFit] using h
  have htop : 4295 ≤ topSpeed srcs := hfast.trans
    ((foldl_max_le_iff.mp (Nat.le_refl _)).2 _ (List.mem_map_of_mem hsrc))
  have hscale : fullScale srcs = 10 ^ 6 * topSpeed srcs := if_neg (by omega)
  have hlow := scaleLow_ge srcs
  have hhigh := scaleLow_lt srcs
  refine ⟨(scaleLow srcs + 7) / 8, by omega, fun heq => ?_⟩
  have hall : percent ((scaleLow srcs + 7) / 8) (scaleLow srcs) = 100 :=
    (percent_eq_iff (by omega) (Nat.le_refl _)).mpr ⟨by omega, fun hlt => absurd hlt (by decide)⟩
  rw [hall, eq_comm, percent_eq_iff (by omega) (Nat.le_refl _), hscale] at heq
  have := heq.1
  omega

/-- Any eight interfaces are those of some snapshot. -/
theorem exists_snapshot (d : SatData) {srcs : List SatIfaceData} (h : srcs.length ≤ 8) :
    ∃ m snap, snapshotIfaces m (clampIfaces (m 9)) = srcs ∧
      satDataUpdateSnapshot d m = d.update snap srcs := by
  obtain ⟨snap, hn⟩ : ∃ snap : SatSnapshot, snap.numIfaces.toNat = srcs.length :=
    ⟨{ SatSnapshot.read (fun _ => 0) with numIfaces := UInt8.ofNat srcs.length },
      UInt8.toNat_ofNat_of_lt' (Nat.lt_of_le_of_lt h (by decide))⟩
  refine ⟨Bytes.view (snap.bytes ++ srcs.flatMap SatIfaceData.bytes), snap, ?_,
    satDataUpdateSnapshot_laidOut d hn h⟩
  rw [← read_numIfaces (Bytes.view _), read_laidOut, snapshotIfaces_laidOut hn h]

/-! ## When they are exact -/

/-- **The gauges are exact.** With speeds that fit 32 bits they are exactly when each sum of the
rates fits or fills the link all the same, and for any other speeds there are rates, with sums that
fit, that are shown wrong. -/
theorem gauges_iff (d : SatData) (m : View) (hconn : d.connected = true) :
    let srcs := snapshotIfaces m (clampIfaces (m 9))
    (SpeedsFit srcs → (GaugesExact (satUiUpdate (satDataUpdateSnapshot d m)) srcs ↔
      SumFits SatIfaceData.rxRate srcs ∧ SumFits SatIfaceData.txRate srcs)) ∧
    (¬ SpeedsFit srcs → ∃ m', let srcs' := snapshotIfaces m' (clampIfaces (m' 9))
      srcs'.map SatIfaceData.linkSpeed = srcs.map SatIfaceData.linkSpeed ∧
      SumFits SatIfaceData.rxRate srcs' ∧ SumFits SatIfaceData.txRate srcs' ∧
      ¬ GaugesExact (satUiUpdate (satDataUpdateSnapshot d m')) srcs') := by
  intro srcs
  constructor
  · intro hspeeds
    obtain ⟨hrx, htx⟩ := update_gauges hconn (SatSnapshot.read m) srcs
    obtain ⟨hpos, hlt⟩ := fullScale_lt hspeeds
    rw [topSpeed_scale hspeeds] at hrx htx
    rw [SumFits, SumFits, ← percent_wrapped_iff hpos hlt, ← percent_wrapped_iff hpos hlt]
    constructor
    · intro h
      exact ⟨by exact_mod_cast hrx.symm.trans h.rx, by exact_mod_cast htx.symm.trans h.tx⟩
    · rintro ⟨hrx', htx'⟩
      exact ⟨hrx.trans (by rw [hrx']), htx.trans (by rw [htx'])⟩
  · intro hspeeds
    obtain ⟨r, hr, hwrong⟩ := exists_wrong hspeeds
    have hne : srcs ≠ [] := by
      rintro hnil
      rw [hnil] at hspeeds
      exact hspeeds nofun
    have hsame := onlyFirst_speeds (UInt32.ofNat r) srcs
    have hlen : (onlyFirst (UInt32.ofNat r) srcs).length ≤ 8 := by
      have hall : srcs.length = clampIfaces (m 9) :=
        (List.length_map _).trans List.length_range
      have heq := congrArg List.length hsame
      rw [List.length_map, List.length_map, hall] at heq
      exact heq.le.trans (clampIfaces_le _)
    obtain ⟨m', snap, hsrcs, hdata⟩ := exists_snapshot d hlen
    obtain ⟨htotal, hquiet⟩ := total_onlyFirst (UInt32.ofNat r) hne
    rw [UInt32.toNat_ofNat_of_lt' hr] at htotal
    refine ⟨m', ?_⟩
    rw [hsrcs, hdata]
    refine ⟨hsame, .inl (htotal.trans_lt hr), .inl (by rw [hquiet]; decide),
      fun hexact => hwrong ?_⟩
    have hshown := (update_gauges hconn snap _).1.symm.trans hexact.rx
    rw [(scales_congr hsame).1, (scales_congr hsame).2, htotal, Nat.mod_eq_of_lt hr] at hshown
    exact_mod_cast hshown

/-- A snapshot of one link that receives `rate` bytes per second. -/
def oneLink (rate : UInt32) (speed : UInt16) : View :=
  Bytes.view (List.replicate 9 0 ++ 1 :: List.replicate 22 0 ++ u32Bytes rate ++ u32Bytes 0 ++
    u16Bytes speed)

/-- A gigabit link at a tenth of its speed. -/
theorem gauges_gigabit : GaugesExact
    (satUiUpdate (satDataUpdateSnapshot { SatData.zero with connected := true }
      (oneLink 12500000 1000)))
    (snapshotIfaces (oneLink 12500000 1000) (clampIfaces (oneLink 12500000 1000 9))) :=
  ((gauges_iff { SatData.zero with connected := true } (oneLink 12500000 1000) rfl).1
    (by decide +kernel : ∀ src ∈ snapshotIfaces (oneLink 12500000 1000) 1,
      src.linkSpeed.toNat < 4295)).mpr ⟨.inl (by decide +kernel), .inl (by decide +kernel)⟩

/-- A 10 Gbit/s link at eight percent of its speed counts as one of 1.4 Gbit/s. -/
theorem tenGigabit_wraps : ¬ ∀ (d : SatData) (m : View), d.connected = true →
    GaugesExact (satUiUpdate (satDataUpdateSnapshot d m))
      (snapshotIfaces m (clampIfaces (m 9))) := by
  intro h
  have hshown := (update_gauges (d := { SatData.zero with connected := true }) rfl
    (SatSnapshot.read (oneLink 100000000 10000)) (snapshotIfaces (oneLink 100000000 10000) 1)).1
  have hexact := (h { SatData.zero with connected := true } (oneLink 100000000 10000) rfl).rx
  have hpercent := hshown.symm.trans hexact
  revert hpercent
  decide +kernel

end NetMon.Satellite
