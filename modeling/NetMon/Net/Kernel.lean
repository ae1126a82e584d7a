import NetMon.Net.State

/-!
# What the kernel reports

`parse_proc_net_dev` and `read_meminfo` of `net_collector.c` and
`net_enumerate_interfaces` of `net_interfaces.c`. A file is its text, `none` when it
cannot be opened.
-/

namespace NetMon.Net

open NetMon.Lib

/-! ## `/proc/net/dev` -/

/-- `':'` -/
def colon : UInt8 := 58

/-- One line of `/proc/net/dev`: a device other than `lo` with sixteen counters. -/
def parseDevLine (line : CStr) : Option NetStats :=
  match line.split colon with
  | none => none
  | some (front, counters) =>
    let name : IfaceName := CharArray.copy 16 (CStr.ofBytes (front.bytes.dropWhile (· == 32)))
    if name.str = CStr.lit "lo" then none
    else match scanUnsigneds 64 16 counters.bytes with
      | some [rxBytes, rxPackets, rxErrs, rxDrop, _, _, _, _,
          txBytes, txPackets, txErrs, txDrop, _, txColls, _, _] =>
        some {
          name := name
          rxBytes := UInt64.ofNat rxBytes
          txBytes := UInt64.ofNat txBytes
          rxPackets := UInt64.ofNat rxPackets
          txPackets := UInt64.ofNat txPackets
          rxErrors := UInt64.ofNat rxErrs
          txErrors := UInt64.ofNat txErrs
          rxDropped := UInt64.ofNat rxDrop
          txDropped := UInt64.ofNat txDrop
          collisions := UInt64.ofNat txColls }
      | _ => none

/-- The first `maxCount` rows below the two header lines. -/
def parseProcNetDev (file : Option Bytes) (maxCount : Nat) : List NetStats :=
  match file with
  | none => []
  | some text =>
    (((textLines 511 text).drop 2).filterMap fun l => parseDevLine (CStr.ofBytes l)).take maxCount

theorem parseProcNetDev_length (file : Option Bytes) (maxCount : Nat) :
    (parseProcNetDev file maxCount).length ≤ maxCount := by
  unfold parseProcNetDev
  split
  · exact Nat.zero_le _
  · exact List.length_take_le _ _

/-! ## `/proc/meminfo` -/

/-- `sscanf(line, "<label> %lu kB", &val) == 1` -/
def scanLabelled (label : String) (line : CStr) : Option UInt32 :=
  if (CStr.lit label).bytes.isPrefixOf line.bytes then
    (scanUnsigned 32 (line.bytes.drop (CStr.lit label).length)).map fun v => UInt32.ofNat v.1
  else none

def readMeminfoLine (s : NetState) (line : CStr) : NetState :=
  match scanLabelled "MemTotal:" line with
  | some v => { s with memTotalKb := v }
  | none =>
    match scanLabelled "MemFree:" line with
    | some v => { s with memFreeKb := v }
    | none =>
      match scanLabelled "MemAvailable:" line with
      | some v => { s with memAvailableKb := v }
      | none => s

def readMeminfo (s : NetState) (file : Option Bytes) : NetState :=
  match file with
  | none => s
  | some text => (textLines 127 text).foldl (fun s l => readMeminfoLine s (CStr.ofBytes l)) s

theorem readMeminfoLine_frame (s : NetState) (line : CStr) : ∃ total free available,
    readMeminfoLine s line =
      { s with memTotalKb := total, memFreeKb := free, memAvailableKb := available } := by
  unfold readMeminfoLine
  repeat' split
  all_goals exact ⟨_, _, _, rfl⟩

/-- Reading the memory figures touches nothing else. -/
theorem readMeminfo_frame (s : NetState) (file : Option Bytes) : ∃ total free available,
    readMeminfo s file =
      { s with memTotalKb := total, memFreeKb := free, memAvailableKb := available } := by
  unfold readMeminfo
  cases file with
  | none => exact ⟨s.memTotalKb, s.memFreeKb, s.memAvailableKb, rfl⟩
  | some text =>
    simp only
    induction textLines 127 text generalizing s with
    | nil => exact ⟨s.memTotalKb, s.memFreeKb, s.memAvailableKb, rfl⟩
    | cons l ls ih =>
      obtain ⟨t, f, a, hline⟩ := readMeminfoLine_frame s (CStr.ofBytes l)
      obtain ⟨t', f', a', hrest⟩ := ih (readMeminfoLine s (CStr.ofBytes l))
      refine ⟨t', f', a', ?_⟩
      rw [List.foldl_cons, hrest, hline]

/-! ## `SIOCGIFCONF` -/

/-- An entry of the `SIOCGIFCONF` answer, with the answers to the requests about it;
`none` is a failed request. -/
structure IfReq where
  name : IfaceName
  flags : Option (Bool × Bool)
  ipAddr : Option UInt32
  netmask : Option UInt32
  mac : Option (Vector UInt8 6)
  wireless : Bool

/-- The record filled in for an entry. -/
def IfReq.info (r : IfReq) : NetIfaceInfo where
  name := r.name
  isUp := (r.flags.getD (false, false)).1
  isRunning := (r.flags.getD (false, false)).2
  ipAddr := r.ipAddr.getD 0
  netmask := r.netmask.getD 0
  gateway := 0
  mac := r.mac.getD (Vector.replicate 6 0)
  speedMbps := 0
  isWireless := r.wireless

/-- The entry of a running device. -/
def ifReqNamed (name : String) : IfReq where
  name := CharArray.copy 16 (CStr.lit name)
  flags := some (true, true)
  ipAddr := some 0x0100000a
  netmask := some 0x00ffffff
  mac := none
  wireless := false

/-- The entries other than `lo`, at most `maxCount`; `none` is the return value -1 after a
failed `socket` or `ioctl`. -/
def netEnumerateInterfaces (answer : Option (List IfReq)) (maxCount : Nat) :
    Option (List NetIfaceInfo) :=
  answer.map fun reqs =>
    ((reqs.filter fun r => r.name.str ≠ CStr.lit "lo").take maxCount).map IfReq.info

theorem netEnumerateInterfaces_length {answer : Option (List IfReq)} {maxCount : Nat}
    {list : List NetIfaceInfo} (h : netEnumerateInterfaces answer maxCount = some list) :
    list.length ≤ maxCount := by
  obtain ⟨reqs, _, rfl⟩ := Option.map_eq_some_iff.mp h
  rw [List.length_map]
  exact List.length_take_le _ _

end NetMon.Net
