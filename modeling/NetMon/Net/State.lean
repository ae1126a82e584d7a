import Mathlib.Logic.Function.Basic
import NetMon.Lib.CNum

/-!
# The monitor's state

The records of `net_collector.h`, `net_infra.h` and `net_discovery.h`. An `int` used as
a flag is a `Bool`, a `double` an exact rational. `g_state.ifaces` is plain memory: the
array has slots 0 to 7, and an index outside them is still an address.
-/

namespace NetMon.Net

open NetMon.Lib

/-- `APP_MAX_INTERFACES` -/
def appMaxInterfaces : Nat := 8

/-- `APP_IFACE_NAME_MAX`: the size of a name array. -/
abbrev IfaceName := CharArray 16

/-- `net_stats_t` -/
structure NetStats where
  name : IfaceName
  rxBytes : UInt64
  txBytes : UInt64
  rxPackets : UInt64
  txPackets : UInt64
  rxErrors : UInt64
  txErrors : UInt64
  rxDropped : UInt64
  txDropped : UInt64
  collisions : UInt64
  deriving DecidableEq, Inhabited

/-- RX or TX. -/
inductive Direction where
  | rx
  | tx
  deriving DecidableEq

/-- `net_rates_t` -/
structure NetRates where
  rxBytesPerSec : ℚ
  txBytesPerSec : ℚ
  rxPacketsPerSec : ℚ
  txPacketsPerSec : ℚ
  rxErrorsPerSec : ℚ
  txErrorsPerSec : ℚ
  deriving DecidableEq, Inhabited

/-- `net_iface_info_t` -/
structure NetIfaceInfo where
  name : IfaceName
  isUp : Bool
  isRunning : Bool
  ipAddr : UInt32
  netmask : UInt32
  gateway : UInt32
  mac : Vector UInt8 6
  speedMbps : UInt32
  isWireless : Bool
  deriving DecidableEq

instance : Inhabited NetIfaceInfo :=
  ⟨⟨default, false, false, 0, 0, 0, Vector.replicate 6 0, 0, false⟩⟩

/-- `net_connectivity_t` -/
structure NetConnectivity where
  gatewayReachable : Bool
  gatewayLatencyMs : ℚ
  dnsReachable : Bool
  dnsResolves : Bool
  dnsLatencyMs : ℚ
  deriving DecidableEq, Inhabited

/-- `net_wifi_info_t` -/
structure NetWifiInfo where
  ssid : CharArray 64
  signalDbm : Int
  linkQuality : Int
  noiseDbm : Int
  bitrateMbps : ℚ
  deriving DecidableEq, Inhabited

/-- `net_iface_state_t` -/
structure NetIfaceState where
  info : NetIfaceInfo
  stats : NetStats
  rates : NetRates
  wifi : NetWifiInfo
  peakRxBps : ℚ
  peakTxBps : ℚ
  rxBytesToday : UInt64
  txBytesToday : UInt64
  deriving DecidableEq, Inhabited

/-- `infra_device_type_t` -/
inductive InfraDeviceType where
  | router | switch | ap | other
  deriving DecidableEq, Inhabited

def InfraDeviceType.code : InfraDeviceType → Nat
  | .router => 0
  | .switch => 1
  | .ap => 2
  | .other => 3

def infraParseType (typeStr : CStr) : InfraDeviceType :=
  if typeStr = CStr.lit "router" then .router
  else if typeStr = CStr.lit "switch" then .switch
  else if typeStr = CStr.lit "ap" then .ap
  else .other

/-- `infra_device_t` -/
structure InfraDevice where
  name : CharArray 32
  ipStr : CharArray 16
  type : InfraDeviceType
  enabled : Bool
  reachable : Bool
  latencyMs : ℚ
  consecutiveFails : Int
  deriving DecidableEq, Inhabited

/-- `discovery_hop_t` -/
structure DiscoveryHop where
  ipAddr : UInt32
  latencyMs : ℚ
  reachable : Bool
  ipStr : CharArray 16
  deriving DecidableEq, Inhabited

/-- `wan_discovery_t`, the hops being the first `num_hops` ones. -/
structure WanDiscovery where
  hops : List DiscoveryHop
  wanReachable : Bool
  wanLatencyMs : ℚ
  wanJitterMs : ℚ
  wanPacketLossPct : Int
  deriving DecidableEq, Inhabited

/-- `net_state_t` without the ARP and connection tables. -/
structure NetState where
  numIfaces : Int
  ifaces : Int → NetIfaceState
  connectivity : NetConnectivity
  numInfra : Int
  infra : Int → InfraDevice
  uptimeSec : UInt32
  memTotalKb : UInt32
  memFreeKb : UInt32
  memAvailableKb : UInt32

/-- The static `g_state`, and what `memset` makes of it. -/
def NetState.zero : NetState where
  numIfaces := 0
  ifaces := fun _ => default
  connectivity := default
  numInfra := 0
  infra := fun _ => default
  uptimeSec := 0
  memTotalKb := 0
  memFreeKb := 0
  memAvailableKb := 0

/-! ## The interface table

A loop that looks a name up goes from slot 0 to a count and stops at the first hit. -/

section Search

variable {α : Type*} [DecidableEq α] {f : Nat → α} {n : Int} {x : α}

theorem search_eq_some {k : Nat} : ((List.range n.toNat).find? fun i => f i = x) = some k ↔
    (k : Int) < n ∧ f k = x ∧ ∀ j : Nat, j < k → f j ≠ x := by
  rw [List.find?_range_eq_some]
  simp only [decide_eq_true_eq, List.mem_range, Bool.not_eq_true', decide_eq_false_iff_not]
  constructor
  · rintro ⟨h1, h2, h3⟩
    exact ⟨by omega, h1, h3⟩
  · rintro ⟨h1, h2, h3⟩
    exact ⟨h2, by omega, h3⟩

theorem search_eq_none : ((List.range n.toNat).find? fun i => f i = x) = none ↔
    ∀ j : Nat, (j : Int) < n → f j ≠ x := by
  simp only [List.find?_eq_none, List.mem_range, decide_eq_true_eq]
  exact forall_congr' fun j => ⟨fun h hj => h (by omega), fun h hj => h (by omega)⟩

end Search

namespace NetState

/-- The rows `for (i = 0; i < num_ifaces; i++)` visits. -/
def rows (s : NetState) : List NetIfaceState :=
  (List.range s.numIfaces.toNat).map fun i : Nat => s.ifaces i

def infraRows (s : NetState) : List InfraDevice :=
  (List.range s.numInfra.toNat).map fun i : Nat => s.infra i

theorem rows_length (s : NetState) : s.rows.length = s.numIfaces.toNat := by
  rw [rows, List.length_map, List.length_range]

theorem rows_getElem? (s : NetState) {i : Nat} (hi : i < s.numIfaces.toNat) :
    s.rows[i]? = some (s.ifaces i) := by
  rw [rows, List.getElem?_map, List.getElem?_range hi]
  rfl

/-- The loops that look a name up in the table and stop at the first hit. -/
def findIface (s : NetState) (name : IfaceName) : Option Nat :=
  (List.range s.numIfaces.toNat).find? fun k => (s.ifaces k).info.name = name

/-- A change to one slot. -/
def setIface (s : NetState) (k : Int) (f : NetIfaceState → NetIfaceState) : NetState :=
  { s with ifaces := Function.update s.ifaces k (f (s.ifaces k)) }

variable {s : NetState} {name : IfaceName} {k : Nat}

theorem findIface_eq_some : s.findIface name = some k ↔
    (k : Int) < s.numIfaces ∧ (s.ifaces k).info.name = name ∧
      ∀ j : Nat, j < k → (s.ifaces j).info.name ≠ name :=
  search_eq_some (f := fun i : Nat => (s.ifaces i).info.name)

@[simp] theorem setIface_self (s : NetState) (k : Int) (f) :
    (s.setIface k f).ifaces k = f (s.ifaces k) := Function.update_self ..

@[simp] theorem setIface_of_ne {j k : Int} (h : j ≠ k) (s : NetState) (f) :
    (s.setIface k f).ifaces j = s.ifaces j := Function.update_of_ne h ..

end NetState

/-- Two states list the same interfaces in the same rows. -/
structure SameTable (s s' : NetState) : Prop where
  numIfaces : s'.numIfaces = s.numIfaces
  info : ∀ k, (s'.ifaces k).info = (s.ifaces k).info

namespace SameTable

theorem refl (s : NetState) : SameTable s s := ⟨rfl, fun _ => rfl⟩

theorem trans {s s' s'' : NetState} (h : SameTable s s') (h' : SameTable s' s'') :
    SameTable s s'' :=
  ⟨h'.numIfaces.trans h.numIfaces, fun k => (h'.info k).trans (h.info k)⟩

theorem findIface {s s' : NetState} (h : SameTable s s') (name : IfaceName) :
    s'.findIface name = s.findIface name := by
  unfold NetState.findIface
  rw [h.numIfaces]
  congr 1
  funext k
  rw [h.info]

/-- A change that keeps the row's description keeps the table. -/
theorem setIface {s : NetState} {k : Int} {f : NetIfaceState → NetIfaceState}
    (hf : ∀ x, (f x).info = x.info) : SameTable s (s.setIface k f) := by
  refine ⟨rfl, fun j => ?_⟩
  by_cases h : j = k
  · rw [h, NetState.setIface_self, hf]
  · rw [NetState.setIface_of_ne h]

theorem foldl {α : Type*} {f : NetState → α → NetState} (hf : ∀ s a, SameTable s (f s a))
    (l : List α) (s : NetState) : SameTable s (l.foldl f s) := by
  induction l generalizing s with
  | nil => exact refl s
  | cons a l ih => exact (hf s a).trans (ih (f s a))

end SameTable

/-! ## Growing tables -/

/-- The second table has the rows of the first, under the same names, and maybe more. -/
structure Grows (s s' : NetState) : Prop where
  numIfaces : s.numIfaces ≤ s'.numIfaces
  name : ∀ k : Nat, (k : Int) < s.numIfaces → (s'.ifaces k).info.name = (s.ifaces k).info.name

instance : Trans Grows Grows Grows where
  trans h h' := ⟨h.numIfaces.trans h'.numIfaces, fun k hk =>
    (h'.name k (hk.trans_le h.numIfaces)).trans (h.name k hk)⟩

end NetMon.Net
