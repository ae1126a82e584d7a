import NetMon.Api.Json
import NetMon.Lib.Inet
import NetMon.Lib.Scanf

/-!
# The kernel's tables of sockets and neighbours

`net_connections.c` and `net_arp.c`. Both read a table line by line behind its heading, pass over
lines that are no entries, and stop when the array is full, so what they return is the front of
the entries the lines hold (`readTable_eq`). A table as the kernel prints it is read entry by entry
(`netCollectConnections_printed`, `netReadArp_printed`).
-/

namespace NetMon.Net

open NetMon.Lib NetMon.Lib.Scanf NetMon.Api

/-- `APP_MAX_CONNECTIONS` -/
def appMaxConnections : Nat := 256

/-- `APP_MAX_ARP_ENTRIES` -/
def appMaxArpEntries : Nat := 64

/-! ## Tables -/

section Table

variable {α : Type*} (entry : Bytes → Option α)

/-- The loop over the lines, with room for this many entries. -/
def readTable : Nat → List Bytes → List α
  | _, [] => []
  | 0, _ :: _ => []
  | room + 1, line :: lines =>
    match entry line with
    | none => readTable (room + 1) lines
    | some e => e :: readTable room lines

/-- The lines behind the heading; `none` is the return value -1. -/
def tableLines (bufLen : Nat) (file : Option Bytes) : Option (List Bytes) :=
  (file.map (textLines (bufLen - 1))).bind List.tail?

theorem readTable_eq (room : Nat) (lines : List Bytes) :
    readTable entry room lines = (lines.filterMap entry).take room := by
  induction lines generalizing room with
  | nil => cases room <;> simp [readTable]
  | cons line lines ih =>
    cases room with
    | zero => rfl
    | succ room =>
      rw [readTable, List.filterMap_cons]
      cases entry line with
      | none => exact ih _
      | some e =>
        simp only [List.take_succ_cons, ih]

/-- What the kernel prints: a heading and a line for each entry. -/
def printedTable (heading : Bytes) (rows : List Bytes) : Bytes := unlines (heading :: rows) []

theorem tableLines_printed {bufLen : Nat} {heading : Bytes} {rows : List Bytes}
    (hfits : ∀ l ∈ heading :: rows, newline ∉ l ∧ l.length + 1 < bufLen) :
    tableLines bufLen (some (printedTable heading rows)) =
      some (rows.map fun l => l ++ [newline]) := by
  have hpos : 0 < bufLen - 1 := by
    have := (hfits heading List.mem_cons_self).2
    omega
  have hlines := textLines_unlines hpos
    (fun l (hl : l ∈ heading :: rows) => ⟨(hfits l hl).1, by have := (hfits l hl).2; omega⟩)
    List.not_mem_nil (Nat.zero_le _)
  rw [tableLines, Option.map_some, Option.bind_some, printedTable, hlines]
  simp

/-- A printed row as the string `sscanf` reads. -/
theorem ofBytes_row {row : Bytes} (h : 0 ∉ row) :
    (CStr.ofBytes (row ++ [newline])).bytes = row ++ [newline] :=
  CStr.ofBytes_of_nonul (by simpa [newline] using h)

end Table

/-! ## Sockets -/

/-- `net_connection_t` -/
structure NetConnection where
  localAddr : UInt32
  localPort : UInt16
  remoteAddr : UInt32
  remotePort : UInt16
  state : UInt8
  protocol : UInt8
  deriving DecidableEq, Inhabited

/-- `" %u: %X:%X %X:%X %X"` -/
def connectionFormat : List Directive :=
  [.blanks, .unsigned, .byte 58, .blanks, .hex, .byte 58, .hex, .blanks, .hex, .byte 58, .hex,
    .blanks, .hex]

/-- A line of `/proc/net/tcp` or `/proc/net/udp`. -/
def connectionEntry (protocol : UInt8) (line : Bytes) : Option NetConnection :=
  match scan connectionFormat (CStr.ofBytes line).bytes with
  | [.number _, .number localIp, .number localPort, .number remoteIp, .number remotePort,
      .number state] =>
    some {
      localAddr := UInt32.ofNat localIp
      localPort := UInt16.ofNat localPort
      remoteAddr := UInt32.ofNat remoteIp
      remotePort := UInt16.ofNat remotePort
      state := UInt8.ofNat state
      protocol := protocol }
  | _ => none

/-- `parse_proc_net`; `none` is the return value -1. -/
def parseProcNet (file : Option Bytes) (protocol : UInt8) (maxCount : Nat) :
    Option (List NetConnection) :=
  (tableLines 512 file).map (readTable (connectionEntry protocol) maxCount)

/-- `net_collect_connections` over the two files. -/
def netCollectConnections (tcp udp : Option Bytes) (maxCount : Nat) : List NetConnection :=
  let total := (parseProcNet tcp 6 maxCount).getD []
  let remaining := maxCount - total.length
  if 0 < remaining then total ++ (parseProcNet udp 17 remaining).getD [] else total

/-- The entries a file holds. -/
def socketsOf (file : Option Bytes) (protocol : UInt8) : List NetConnection :=
  ((tableLines 512 file).getD []).filterMap (connectionEntry protocol)

theorem parseProcNet_eq (file : Option Bytes) (protocol : UInt8) (maxCount : Nat) :
    (parseProcNet file protocol maxCount).getD [] = (socketsOf file protocol).take maxCount := by
  unfold parseProcNet socketsOf
  cases tableLines 512 file with
  | none => simp
  | some lines => exact readTable_eq _ _ _

/-- Whatever the files hold, the sockets of the first and then of the second one are stored as far
as they fit. -/
theorem netCollectConnections_eq (tcp udp : Option Bytes) (maxCount : Nat) :
    netCollectConnections tcp udp maxCount =
      (socketsOf tcp 6 ++ socketsOf udp 17).take maxCount := by
  unfold netCollectConnections
  simp only [parseProcNet_eq]
  rw [List.length_take, List.take_append]
  by_cases hfull : maxCount ≤ (socketsOf tcp 6).length
  · rw [if_neg (by omega), Nat.sub_eq_zero_of_le hfull, List.take_zero, List.append_nil]
  · rw [if_pos (by omega), Nat.min_eq_right (by omega)]

/-- A line of the kernel's table: a socket's number, its addresses and its state, and what else
there is about it. -/
structure SocketRow where
  pad : Bytes
  sl : Nat
  socket : NetConnection
  more : Bytes

namespace SocketRow

def addrText (addr : UInt32) (port : UInt16) : Bytes :=
  hexPad true 8 addr.toNat ++ 58 :: hexPad true 4 port.toNat

def text (r : SocketRow) : Bytes :=
  r.pad ++ (decimal r.sl ++ 58 :: 32 :: (addrText r.socket.localAddr r.socket.localPort ++ 32 ::
    (addrText r.socket.remoteAddr r.socket.remotePort ++ 32 ::
      (hexPad true 2 r.socket.state.toNat ++ 32 :: r.more))))

structure Printed (r : SocketRow) : Prop where
  pad : Blank r.pad
  sl : r.sl < 2 ^ 32
  oneLine : newline ∉ r.text
  nonul : 0 ∉ r.text
  short : r.text.length ≤ 510

theorem reads {r : SocketRow} (h : r.Printed) : Reads connectionFormat (r.text ++ [newline])
    [.number r.sl, .number r.socket.localAddr.toNat, .number r.socket.localPort.toNat,
      .number r.socket.remoteAddr.toNat, .number r.socket.remotePort.toNat,
      .number r.socket.state.toNat] := by
  have hcolon := ends_number (c := 58) (by decide)
  have hblank := ends_number (c := 32) (by decide)
  have hvisible : ∀ (w n : Nat) (t : Bytes), 0 < w →
      ∀ b ∈ (hexPad true w n ++ t).head?, isspace b = false := fun w n t hw =>
    visible_front (fun b hb => not_isspace_of_isxdigit (hexPad_isxdigit _ n b hb))
      (hexPad_ne_nil hw n)
  rw [connectionFormat, text]
  simp only [addrText, List.append_assoc, List.cons_append]
  refine .blanks r.pad h.pad (visible_front (decimal_visible _) (decimal_ne_nil _)) ?_
  refine .decimal [] blank_nil h.sl (fun b hb => ?_) (.byte 58 ?_)
  · rw [List.head?_cons, Option.mem_some_iff] at hb
    rw [← hb]
    rfl
  refine .blanks [32] blank_singleton (hvisible 8 _ _ (by decide)) ?_
  refine .hexPad [] 8 blank_nil (by decide) (by decide) r.socket.localAddr.toNat_lt
    (hcolon _) (.byte 58 ?_)
  refine .hexPad [] 4 blank_nil (by decide) (by decide) r.socket.localPort.toNat_lt
    (hblank _) ?_
  refine .blanks [32] blank_singleton (hvisible 8 _ _ (by decide)) ?_
  refine .hexPad [] 8 blank_nil (by decide) (by decide) r.socket.remoteAddr.toNat_lt
    (hcolon _) (.byte 58 ?_)
  refine .hexPad [] 4 blank_nil (by decide) (by decide) r.socket.remotePort.toNat_lt
    (hblank _) ?_
  refine .blanks [32] blank_singleton (hvisible 2 _ _ (by decide)) ?_
  exact .hexPad [] 2 blank_nil (by decide) (by decide) r.socket.state.toNat_lt (hblank _)
    (.nil _)

theorem entry {r : SocketRow} (h : r.Printed) (protocol : UInt8) :
    connectionEntry protocol (r.text ++ [newline]) =
      some { r.socket with protocol := protocol } := by
  rw [connectionEntry, ofBytes_row h.nonul, scan_reads (reads h)]
  simp only [UInt32.ofNat_toNat, UInt16.ofNat_toNat, UInt8.ofNat_toNat]

end SocketRow

/-- A table of sockets as the kernel prints it. -/
structure SocketTable where
  heading : Bytes
  rows : List SocketRow
  heading_line : newline ∉ heading ∧ heading.length ≤ 510
  printed : ∀ r ∈ rows, r.Printed

namespace SocketTable

def text (t : SocketTable) : Bytes := printedTable t.heading (t.rows.map SocketRow.text)

def sockets (t : SocketTable) (protocol : UInt8) : List NetConnection :=
  t.rows.map fun r => { r.socket with protocol := protocol }

theorem socketsOf_text (t : SocketTable) (protocol : UInt8) :
    socketsOf (some t.text) protocol = t.sockets protocol := by
  have hfits : ∀ l ∈ t.heading :: t.rows.map SocketRow.text, newline ∉ l ∧ l.length + 1 < 512 := by
    rw [List.forall_mem_cons, List.forall_mem_map]
    refine ⟨⟨t.heading_line.1, by have := t.heading_line.2; omega⟩, fun r hr => ?_⟩
    have h := t.printed r hr
    exact ⟨h.oneLine, by have := h.short; omega⟩
  rw [socketsOf, text, tableLines_printed hfits, Option.getD_some, List.map_map,
    List.filterMap_map, sockets, ← List.filterMap_eq_map]
  exact List.filterMap_congr fun r hr => SocketRow.entry (t.printed r hr) protocol

end SocketTable

/-- The sockets of both tables are stored in order, as far as they fit. -/
theorem netCollectConnections_printed (tcp udp : SocketTable) (maxCount : Nat) :
    netCollectConnections (some tcp.text) (some udp.text) maxCount =
      (tcp.sockets 6 ++ udp.sockets 17).take maxCount := by
  rw [netCollectConnections_eq, tcp.socketsOf_text, udp.socketsOf_text]

/-- A server that listens, and a client of it. -/
def bootTcp : SocketTable where
  heading := CStr.chars "  sl  local_address rem_address   st tx_queue rx_queue"
  rows := [
    ⟨CStr.chars "   ", 0, ⟨0, 8080, 0, 0, 10, 6⟩, CStr.chars "00000000:00000000"⟩,
    ⟨CStr.chars "  ", 10, ⟨0x0101A8C0, 8080, 0x0201A8C0, 43210, 1, 6⟩, CStr.chars "00000014:0"⟩]
  heading_line := by decide +kernel
  printed r hr := by
    have hpad : Blank (CStr.chars "   ") ∧ Blank (CStr.chars "  ") := by
      unfold Blank
      decide +kernel
    rcases List.mem_pair.mp hr with rfl | rfl
    · refine ⟨hpad.1, ?_, ?_, ?_, ?_⟩ <;> decide +kernel
    · refine ⟨hpad.2, ?_, ?_, ?_, ?_⟩ <;> decide +kernel

-- a full array takes no more rows, and a file that cannot be opened holds none
example : netCollectConnections none (some bootTcp.text) 1 = [⟨0, 8080, 0, 0, 10, 17⟩] := by
  decide +kernel

/-! ## Neighbours -/

/-- `net_arp_entry_t` -/
structure NetArpEntry where
  ipAddr : UInt32
  mac : Vector UInt8 6
  device : IfaceName
  deriving DecidableEq

/-- `"%31s 0x%x 0x%x %31s %31s %31s"` -/
def arpFormat : List Directive :=
  [.word 31, .blanks, .byte 48, .byte 120, .hex, .blanks, .byte 48, .byte 120, .hex, .blanks,
    .word 31, .blanks, .word 31, .blanks, .word 31]

/-- `"%x:%x:%x:%x:%x:%x"` -/
def macFormat : List Directive :=
  [.hex, .byte 58, .hex, .byte 58, .hex, .byte 58, .hex, .byte 58, .hex, .byte 58, .hex]

/-- A line of `/proc/net/arp`: an entry if it is of Ethernet and complete. -/
def arpEntry (line : Bytes) : Option NetArpEntry :=
  match scan arpFormat (CStr.ofBytes line).bytes with
  | [.text ip, .number hwType, .number flags, .text mac, .text _, .text dev] =>
    if hwType ≠ 1 ∨ flags ≠ 2 then none
    else
      match inetPton (CStr.ofBytes ip), scan macFormat mac with
      | some addr, [.number a, .number b, .number c, .number d, .number e, .number f] =>
        some {
          ipAddr := addr
          mac := #v[UInt8.ofNat a, UInt8.ofNat b, UInt8.ofNat c, UInt8.ofNat d, UInt8.ofNat e,
            UInt8.ofNat f]
          device := CharArray.copy 16 (CStr.ofBytes dev) }
      | _, _ => none
  | _ => none

/-- `net_read_arp`; `none` is the return value -1. -/
def netReadArp (file : Option Bytes) (maxCount : Nat) : Option (List NetArpEntry) :=
  (tableLines 256 file).map (readTable arpEntry maxCount)

/-- A line of the kernel's table: a neighbour, the kind and the state of its entry, the address of
its hardware as it is printed, and the mask. -/
structure NeighbourRow where
  neighbour : NetArpEntry
  hwWidth : Nat
  hwType : Nat
  flagsWidth : Nat
  flags : Nat
  hwAddr : Bytes
  mask : Bytes
  gaps : Fin 5 → Bytes

namespace NeighbourRow

def macText (mac : Vector UInt8 6) : Bytes :=
  let byte (i : Fin 6) : Bytes := hexPad false 2 mac[i].toNat
  byte 0 ++ (58 : UInt8) :: (byte 1 ++ (58 : UInt8) :: (byte 2 ++ (58 : UInt8) :: (byte 3 ++
    (58 : UInt8) :: (byte 4 ++ (58 : UInt8) :: byte 5))))

def text (r : NeighbourRow) : Bytes :=
  dotted r.neighbour.ipAddr ++ (r.gaps 0 ++ 48 :: 120 :: (hexPad false r.hwWidth r.hwType ++
    (r.gaps 1 ++ 48 :: 120 :: (hexPad false r.flagsWidth r.flags ++ (r.gaps 2 ++
      (r.hwAddr ++ (r.gaps 3 ++ (r.mask ++ (r.gaps 4 ++ r.neighbour.device.str.bytes)))))))))

/-- Complete and of Ethernet. -/
def Complete (r : NeighbourRow) : Prop := r.hwType = 1 ∧ r.flags = 2

instance (r : NeighbourRow) : Decidable r.Complete := inferInstanceAs (Decidable (_ ∧ _))

/-- A word that `"%31s"` takes whole. -/
def Word (s : Bytes) : Prop := s ≠ [] ∧ s.length ≤ 31 ∧ ∀ b ∈ s, isspace b = false

instance (s : Bytes) : Decidable (Word s) := inferInstanceAs (Decidable (_ ∧ _ ∧ _))

/-- Hardware other than Ethernet's has addresses of its own, of any form. -/
structure Printed (r : NeighbourRow) : Prop where
  gaps : ∀ i, r.gaps i ≠ [] ∧ Blank (r.gaps i)
  hwType : 0 < r.hwWidth ∧ r.hwWidth ≤ 8 ∧ r.hwType < 16 ^ r.hwWidth
  flags : 0 < r.flagsWidth ∧ r.flagsWidth ≤ 8 ∧ r.flags < 16 ^ r.flagsWidth
  hwAddr : if r.Complete then r.hwAddr = macText r.neighbour.mac else Word r.hwAddr
  mask : Word r.mask
  device : r.neighbour.device.str.bytes ≠ [] ∧
    ∀ b ∈ r.neighbour.device.str.bytes, isspace b = false
  nonul : 0 ∉ r.text
  short : r.text.length ≤ 254

theorem macText_reads (mac : Vector UInt8 6) : Reads macFormat (macText mac)
    [.number mac[0].toNat, .number mac[1].toNat, .number mac[2].toNat, .number mac[3].toNat,
      .number mac[4].toNat, .number mac[5].toNat] := by
  have hcolon := ends_number (c := 58) (by decide)
  have hbyte : ∀ {fs : List Directive} {s : Bytes} {vs : List Stored} (b : UInt8),
      (∀ c ∈ s.head?, isxdigit c = false ∧ c ≠ 120 ∧ c ≠ 88) → Reads fs s vs →
      Reads (.hex :: fs) (hexPad false 2 b.toNat ++ s) (.number b.toNat :: vs) := fun b hend h =>
    .hexPad [] 2 blank_nil (by decide) (by decide) b.toNat_lt hend h
  have hlast := hbyte (s := []) mac[5] (fun c hc => nomatch hc) (.nil _)
  rw [List.append_nil] at hlast
  exact hbyte _ (hcolon _) (.byte 58 (hbyte _ (hcolon _) (.byte 58 (hbyte _ (hcolon _) (.byte 58
    (hbyte _ (hcolon _) (.byte 58 (hbyte _ (hcolon _) (.byte 58 hlast)))))))))

theorem macText_visible (mac : Vector UInt8 6) : ∀ b ∈ macText mac, isspace b = false := by
  have hdigits : ∀ n, ∀ b ∈ hexPad false 2 n, isspace b = false := fun n b hb =>
    not_isspace_of_isxdigit (hexPad_isxdigit 2 n b hb)
  intro b hb
  simp only [macText, List.mem_append, List.mem_cons] at hb
  rcases hb with hb | rfl | hb | rfl | hb | rfl | hb | rfl | hb | rfl | hb
  all_goals first | exact hdigits _ b hb | rfl

theorem macText_length (mac : Vector UInt8 6) : (macText mac).length = 17 := by
  simp only [macText, List.length_append, List.length_cons, hexPad_length]

theorem Printed.word {r : NeighbourRow} (h : r.Printed) : Word r.hwAddr := by
  have haddr := h.hwAddr
  split at haddr
  · rw [haddr]
    refine ⟨?_, ?_, macText_visible _⟩
    · rw [← List.length_pos_iff, macText_length]
      decide
    · rw [macText_length]
      decide
  · exact haddr

theorem dotted_nonblank (addr : UInt32) : dotted addr ≠ [] ∧ ∀ b ∈ dotted addr, isspace b = false :=
  ⟨by simp [dotted, decimal_ne_nil], fun b hb => by
    rcases dotted_visible addr b hb with rfl | h
    · rfl
    · exact isspace_digit h⟩

/-- A gap ends a word. -/
theorem gap_front {gap t : Bytes} (hne : gap ≠ []) (hgap : Blank gap) :
    ∀ b ∈ (gap ++ t).head?, isspace b = true := by
  intro b hb
  rw [List.head?_append_of_ne_nil _ hne] at hb
  exact hgap b (List.mem_of_mem_head? hb)

theorem gap_ends_number {gap t : Bytes} (hne : gap ≠ []) (hgap : Blank gap) :
    ∀ b ∈ (gap ++ t).head?, isxdigit b = false ∧ b ≠ 120 ∧ b ≠ 88 := by
  intro b hb
  have hblank := gap_front hne hgap b hb
  refine ⟨?_, ?_, ?_⟩
  · by_contra hx
    rw [not_isspace_of_isxdigit (Bool.not_eq_false _ ▸ hx)] at hblank
    cases hblank
  · rintro rfl
    cases hblank
  · rintro rfl
    cases hblank

theorem reads {r : NeighbourRow} (h : r.Printed) : Reads arpFormat (r.text ++ [newline])
    [.text (dotted r.neighbour.ipAddr), .number r.hwType, .number r.flags,
      .text r.hwAddr, .text r.mask, .text r.neighbour.device.str.bytes] := by
  obtain ⟨haddr, haddr'⟩ := dotted_nonblank r.neighbour.ipAddr
  have hzero : ∀ t : Bytes, ∀ b ∈ (48 :: t).head?, isspace b = false := by
    intro t b hb
    rw [List.head?_cons, Option.mem_some_iff] at hb
    rw [← hb]
    rfl
  have hdev : r.neighbour.device.str.bytes.length ≤ 31 :=
    (show _ ≤ 15 from r.neighbour.device.fits).trans (by decide)
  rw [arpFormat, text]
  simp only [List.append_assoc, List.cons_append]
  refine .word [] blank_nil haddr' haddr ((dotted_length_le _).trans (by decide))
    (gap_front (h.gaps 0).1 (h.gaps 0).2) ?_
  refine .blanks (r.gaps 0) (h.gaps 0).2 (hzero _) (.byte 48 (.byte 120 ?_))
  refine .hexPad [] _ blank_nil h.hwType.1 h.hwType.2.1 h.hwType.2.2
    (gap_ends_number (h.gaps 1).1 (h.gaps 1).2) ?_
  refine .blanks (r.gaps 1) (h.gaps 1).2 (hzero _) (.byte 48 (.byte 120 ?_))
  refine .hexPad [] _ blank_nil h.flags.1 h.flags.2.1 h.flags.2.2
    (gap_ends_number (h.gaps 2).1 (h.gaps 2).2) ?_
  obtain ⟨haddr_ne, haddr_len, haddr_visible⟩ := h.word
  refine .blanks (r.gaps 2) (h.gaps 2).2 (visible_front haddr_visible haddr_ne) ?_
  refine .word [] blank_nil haddr_visible haddr_ne haddr_len
    (gap_front (h.gaps 3).1 (h.gaps 3).2) ?_
  refine .blanks (r.gaps 3) (h.gaps 3).2 (visible_front h.mask.2.2 h.mask.1) ?_
  refine .word [] blank_nil h.mask.2.2 h.mask.1 h.mask.2.1
    (gap_front (h.gaps 4).1 (h.gaps 4).2) ?_
  refine .blanks (r.gaps 4) (h.gaps 4).2 (visible_front h.device.2 h.device.1) ?_
  refine .word [] blank_nil h.device.2 h.device.1 hdev (fun b hb => ?_) (.nil _)
  rw [List.head?_cons, Option.mem_some_iff] at hb
  rw [← hb]
  rfl

theorem entry {r : NeighbourRow} (h : r.Printed) :
    arpEntry (r.text ++ [newline]) = if r.Complete then some r.neighbour else none := by
  have haddr : 0 ∉ dotted r.neighbour.ipAddr := fun h0 =>
    h.nonul (List.mem_append_left _ h0)
  have hip : inetPton (CStr.ofBytes (dotted r.neighbour.ipAddr)) = some r.neighbour.ipAddr :=
    inetPton_dotted (CStr.ofBytes_of_nonul haddr)
  have hmac := scan_reads (macText_reads r.neighbour.mac)
  have hdev : CharArray.copy 16 (CStr.ofBytes r.neighbour.device.str.bytes) =
      r.neighbour.device := by
    rw [CStr.ofBytes_bytes]
    exact CharArray.ext (CStr.trunc_of_le r.neighbour.device.fits)
  have hvec : #v[r.neighbour.mac[0], r.neighbour.mac[1], r.neighbour.mac[2], r.neighbour.mac[3],
      r.neighbour.mac[4], r.neighbour.mac[5]] = r.neighbour.mac := by
    apply Vector.ext
    intro i hi
    rcases i with _ | _ | _ | _ | _ | _ | i
    all_goals first | rfl | omega
  have hiff : (r.hwType ≠ 1 ∨ r.flags ≠ 2) ↔ ¬ r.Complete := by
    unfold Complete
    omega
  rw [arpEntry, ofBytes_row h.nonul, scan_reads (reads h)]
  by_cases hcomplete : r.Complete
  · have haddr := h.hwAddr
    rw [if_pos hcomplete] at haddr
    simp only [if_neg fun h => hiff.mp h hcomplete, haddr, hip, hmac, UInt8.ofNat_toNat, hdev,
      hvec, if_pos hcomplete]
  · simp only [if_pos (hiff.mpr hcomplete), if_neg hcomplete]

end NeighbourRow

/-- **The neighbours.** Of a table as the kernel prints it the complete entries of Ethernet are
stored, in order and as far as they fit. -/
theorem netReadArp_printed {heading : Bytes} {rows : List NeighbourRow} (maxCount : Nat)
    (hheading : newline ∉ heading ∧ heading.length ≤ 254)
    (hrows : ∀ r ∈ rows, r.Printed ∧ newline ∉ r.text) :
    netReadArp (some (printedTable heading (rows.map NeighbourRow.text))) maxCount =
      some (((rows.filter (·.Complete)).map NeighbourRow.neighbour).take maxCount) := by
  have hfits : ∀ l ∈ heading :: rows.map NeighbourRow.text, newline ∉ l ∧ l.length + 1 < 256 := by
    rw [List.forall_mem_cons, List.forall_mem_map]
    refine ⟨⟨hheading.1, by omega⟩, fun r hr => ?_⟩
    have h := hrows r hr
    exact ⟨h.2, by have := h.1.short; omega⟩
  have hentries : ((rows.map NeighbourRow.text).map fun l => l ++ [newline]).filterMap arpEntry =
      (rows.filter (·.Complete)).map NeighbourRow.neighbour := by
    rw [List.map_map, List.filterMap_map, ← List.filterMap_eq_map, ← List.filterMap_eq_filter,
      List.filterMap_filterMap]
    refine List.filterMap_congr fun r hr => ?_
    rw [Function.comp_apply, Function.comp_apply, NeighbourRow.entry (hrows r hr).1, Option.guard]
    by_cases hc : r.Complete
    · simp [hc]
    · simp [hc]
  rw [netReadArp, tableLines_printed hfits, Option.map_some, readTable_eq, hentries]

/-- A gateway's line. -/
def gatewayRow : NeighbourRow where
  neighbour := ⟨0x0101A8C0, #v[0x02, 0x42, 0xAC, 0x11, 0x00, 0x0F],
    CharArray.copy 16 (CStr.lit "eth0")⟩
  hwWidth := 1
  hwType := 1
  flagsWidth := 1
  flags := 2
  hwAddr := CStr.chars "02:42:ac:11:00:0f"
  mask := CStr.chars "*"
  gaps _ := CStr.chars "     "

/-- The other end of a tunnel, whose address has four bytes. -/
def tunnelRow : NeighbourRow := { gatewayRow with
  hwWidth := 3
  hwType := 778
  hwAddr := CStr.chars "0a:00:00:01" }

theorem netReadArp_gateway :
    let rows := [tunnelRow, gatewayRow]
    netReadArp (some (printedTable (CStr.chars "IP address  HW type")
      (rows.map NeighbourRow.text))) 64 =
        some (((rows.filter (·.Complete)).map NeighbourRow.neighbour).take 64) := by
  intro rows
  have hgap : CStr.chars "     " ≠ [] ∧ Blank (CStr.chars "     ") :=
    ⟨List.cons_ne_nil _ _, by unfold Blank; decide +kernel⟩
  have hgateway : gatewayRow.Printed := by
    refine ⟨fun _ => hgap, ?_, ?_, ?_, ?_, ?_, ?_, ?_⟩ <;> decide +kernel
  have htunnel : tunnelRow.Printed := by
    refine ⟨fun _ => hgap, ?_, ?_, ?_, ?_, ?_, ?_, ?_⟩ <;> decide +kernel
  refine netReadArp_printed 64 (by decide +kernel) fun r hr => ?_
  rcases List.mem_pair.mp hr with rfl | rfl
  · exact ⟨htunnel, by decide +kernel⟩
  · exact ⟨hgateway, by decide +kernel⟩

end NetMon.Net
