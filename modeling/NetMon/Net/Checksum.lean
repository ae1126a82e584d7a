import Mathlib.Algebra.Group.Nat.Even
import NetMon.Lib.Bytes
import NetMon.Lib.OnesComplement

/-!
# ICMP checksums

`icmp_checksum` of `net_ping.c`, and the loops `probe_ttl` of `net_discovery.c` has in its
place, with the requests the two send. Both add 16-bit words up in 32 bits. The first folds
the sum twice, the second as long as there is something to fold; either way what is left is
the sum's one's complement value (`icmpChecksum_toNat`, `probeChecksum_toNat`).

Up to 131076 bytes with an empty field the words cannot overflow the sum, so that the
checksum verifies (`checksums_agree`); behind that they can (`overflow_unverified`).
-/

namespace NetMon.Net

open NetMon.Lib OnesComplement

/-- The 16-bit words of a buffer, an odd byte at the end padded with a zero. -/
def words : Bytes → List Nat
  | [] => []
  | [b] => [b.toNat]
  | a :: b :: rest => (a.toNat + 256 * b.toNat) :: words rest

/-! ## The two functions -/

/-- The loop of `icmp_checksum`: whole words, then an odd byte. -/
def icmpSum (sum : UInt32) : Bytes → UInt32
  | [] => sum
  | [b] => sum + b.toUInt32
  | a :: b :: rest => icmpSum (sum + ((Bytes.view [a, b]).le16 0).toUInt32) rest

def icmpChecksum (data : Bytes) : UInt16 :=
  let sum := icmpSum 0 data
  let sum := (sum >>> 16) + (sum &&& 0xFFFF)
  let sum := sum + (sum >>> 16)
  (~~~sum).toUInt16

theorem shift_toNat (sum : UInt32) : (sum >>> 16).toNat = sum.toNat / 2 ^ 16 := by
  rw [UInt32.toNat_shiftRight]
  exact Nat.shiftRight_eq_div_pow ..

theorem fold_toNat (sum : UInt32) :
    ((sum >>> 16) + (sum &&& 0xFFFF)).toNat = fold 16 sum.toNat := by
  have hlt := sum.toNat_lt
  have hlow : (sum &&& 0xFFFF).toNat = sum.toNat % 2 ^ 16 := by
    rw [UInt32.toNat_and, show (0xFFFF : UInt32).toNat = 2 ^ 16 - 1 from rfl,
      Nat.and_two_pow_sub_one_eq_mod]
  rw [UInt32.toNat_add, shift_toNat, hlow, fold]
  omega

theorem shift_eq_zero {sum : UInt32} : sum >>> 16 = 0 ↔ sum.toNat < 2 ^ 16 := by
  rw [← UInt32.toNat_inj, shift_toNat]
  exact Nat.div_eq_zero_iff_lt (by decide)

/-- `while (sum >> 16)` -/
def foldLoop (sum : UInt32) : UInt32 :=
  if sum >>> 16 = 0 then sum else foldLoop ((sum &&& 0xFFFF : UInt32) + (sum >>> 16))
termination_by sum.toNat
decreasing_by
  rename_i h
  rw [UInt32.add_comm, fold_toNat]
  exact fold_lt (not_lt.mp (mt shift_eq_zero.mpr h)) (by decide)

/-- The words of the packet by their index. -/
def probeSum (pkt : Bytes) : UInt32 :=
  (List.range (pkt.length / 2)).foldl (fun sum i => sum + (pkt.view.le16 (2 * i)).toUInt32) 0

/-- The checksum `probe_ttl` computes. -/
def probeChecksum (pkt : Bytes) : UInt16 := (~~~foldLoop (probeSum pkt)).toUInt16

/-! ## Their values -/

theorem words_lt (l : Bytes) : ∀ v ∈ words l, v < 2 ^ 16 := by
  induction l using words.induct with
  | case1 => simp [words]
  | case2 b =>
    have := b.toNat_lt
    simp only [words, List.forall_mem_singleton]
    omega
  | case3 a b rest ih =>
    have ha := a.toNat_lt
    have hb := b.toNat_lt
    rw [words, List.forall_mem_cons]
    exact ⟨by omega, ih⟩

theorem words_sum_le (l : Bytes) : (words l).sum ≤ 65535 * ((l.length + 1) / 2) := by
  induction l using words.induct with
  | case1 => simp [words]
  | case2 b =>
    have := b.toNat_lt
    simp only [words, List.sum_singleton, List.length_singleton]
    omega
  | case3 a b rest ih =>
    have ha := a.toNat_lt
    have hb := b.toNat_lt
    rw [words, List.sum_cons, List.length_cons, List.length_cons]
    omega

/-- The loop adds the words up in 32 bits. -/
theorem icmpSum_toNat (sum : UInt32) (l : Bytes) :
    (icmpSum sum l).toNat = (sum.toNat + (words l).sum) % 2 ^ 32 := by
  induction l using words.induct generalizing sum with
  | case1 =>
    rw [icmpSum, words, List.sum_nil, Nat.add_zero, Nat.mod_eq_of_lt sum.toNat_lt]
  | case2 b =>
    rw [icmpSum, UInt32.toNat_add, UInt8.toNat_toUInt32, words, List.sum_singleton]
  | case3 a b rest ih =>
    have hword : ((Bytes.view [a, b]).le16 0).toNat = a.toNat + 256 * b.toNat :=
      View.le16_toNat ..
    rw [icmpSum, ih, UInt32.toNat_add, UInt16.toNat_toUInt32, hword, words, List.sum_cons]
    omega

/-- The words by their index are the words one after the other. -/
theorem probeSum_eq {l : Bytes} (heven : Even l.length) : probeSum l = icmpSum 0 l := by
  have hloop : ∀ sum : UInt32, (List.range (l.length / 2)).foldl
      (fun sum i => sum + (l.view.le16 (2 * i)).toUInt32) sum = icmpSum sum l := by
    induction l using words.induct with
    | case1 => exact fun _ => rfl
    | case2 b => exact absurd heven (by simp)
    | case3 a b rest ih =>
      intro sum
      rw [List.length_cons, List.length_cons] at heven ⊢
      have hrest : Even rest.length := by
        simpa [Nat.even_add_one] using heven
      rw [show (rest.length + 1 + 1) / 2 = rest.length / 2 + 1 by omega, List.range_succ_eq_map,
        List.foldl_cons, List.foldl_map, icmpSum, ← ih hrest]
      rfl
  exact hloop 0

/-- Folded in a loop, the sum ends as its one's complement value. -/
theorem foldLoop_toNat (sum : UInt32) : (foldLoop sum).toNat = rep 16 sum.toNat := by
  induction sum using foldLoop.induct with
  | case1 sum h =>
    rw [foldLoop, if_pos h, rep_of_lt (shift_eq_zero.mp h)]
  | case2 sum h ih =>
    rw [foldLoop, if_neg h, ih, UInt32.add_comm, fold_toNat, rep_fold]

/-- Folded twice, its lower half does. -/
theorem foldTwice_toNat {sum once : UInt32} (honce : once = (sum >>> 16) + (sum &&& 0xFFFF)) :
    (once + (once >>> 16)).toNat % 2 ^ 16 = rep 16 sum.toNat := by
  have hlt := sum.toNat_lt
  have hrep := rep_fold (w := 16) sum.toNat
  have hfold : once.toNat = fold 16 sum.toNat := by rw [honce, fold_toNat]
  have hsmall : once.toNat ≤ 2 * 65535 := by
    rw [hfold]
    unfold fold
    omega
  have hagain : fold 16 once.toNat < 2 ^ 16 := by
    unfold fold
    omega
  rw [← hrep, ← hfold, ← rep_fold, rep_of_lt hagain, UInt32.toNat_add, shift_toNat]
  unfold fold
  omega

theorem complement_toNat (sum : UInt32) : (~~~sum).toUInt16.toNat = 65535 - sum.toNat % 2 ^ 16 := by
  have hlt := sum.toNat_lt
  rw [UInt32.toNat_toUInt16, UInt32.toNat_not, show UInt32.size = 2 ^ 32 from rfl]
  omega

/-- The value of `icmp_checksum`. -/
theorem icmpChecksum_toNat (l : Bytes) :
    (icmpChecksum l).toNat = 65535 - rep 16 ((words l).sum % 2 ^ 32) := by
  have hsum := icmpSum_toNat 0 l
  rw [show (0 : UInt32).toNat = 0 from rfl, Nat.zero_add] at hsum
  unfold icmpChecksum
  simp only
  rw [complement_toNat, foldTwice_toNat rfl, hsum]

/-- The value `probe_ttl` computes. -/
theorem probeChecksum_toNat {l : Bytes} (heven : Even l.length) :
    (probeChecksum l).toNat = 65535 - rep 16 ((words l).sum % 2 ^ 32) := by
  have hsum := icmpSum_toNat 0 l
  rw [show (0 : UInt32).toNat = 0 from rfl, Nat.zero_add] at hsum
  rw [probeChecksum, complement_toNat, foldLoop_toNat, probeSum_eq heven, hsum,
    Nat.mod_eq_of_lt (rep_lt _ (by decide))]

/-! ## Verification -/

/-- The checksum stored in its field, bytes 2 and 3 of the header. -/
def storeChecksum (pkt : Bytes) (c : UInt16) : Bytes := pkt.take 2 ++ u16Bytes c ++ pkt.drop 4

/-- All words of the buffer sum to all ones. -/
def Verifies (pkt : Bytes) : Prop := onesSum 16 (words pkt) = 0xFFFF

/-- A buffer with an empty checksum field. -/
theorem field_split {pkt : Bytes} (hlen : 4 ≤ pkt.length)
    (hfield : pkt.view 2 = 0 ∧ pkt.view 3 = 0) : ∃ a b rest, pkt = a :: b :: 0 :: 0 :: rest := by
  match pkt, hlen, hfield with
  | a :: b :: c :: d :: rest, _, ⟨hc, hd⟩ =>
    obtain rfl : c = 0 := hc
    obtain rfl : d = 0 := hd
    exact ⟨a, b, rest, rfl⟩

/-- The stored checksum adds itself to the words. -/
theorem words_storeChecksum (a b : UInt8) (rest : Bytes) (c : UInt16) :
    (words (storeChecksum (a :: b :: 0 :: 0 :: rest) c)).sum =
      (words (a :: b :: 0 :: 0 :: rest)).sum + c.toNat := by
  have hstored : storeChecksum (a :: b :: 0 :: 0 :: rest) c =
      a :: b :: UInt8.ofNat (c.toNat % 256) :: UInt8.ofNat (c.toNat / 256) :: rest := rfl
  have hc := c.toNat_lt
  rw [hstored]
  simp only [words, List.sum_cons, UInt8.toNat_ofNat', UInt8.toNat_zero]
  omega

/-- As long as the words fit in 32 bits, the stored checksum verifies. -/
theorem verifies_iff {pkt : Bytes} (hlen : 4 ≤ pkt.length)
    (hfield : pkt.view 2 = 0 ∧ pkt.view 3 = 0) (c : UInt16) :
    Verifies (storeChecksum pkt c) ↔ rep 16 ((words pkt).sum + c.toNat) = 65535 := by
  obtain ⟨a, b, rest, rfl⟩ := field_split hlen hfield
  rw [Verifies, onesSum_eq (by decide) (words_lt _), words_storeChecksum]

/-- With an empty field up to 131076 bytes fit in 32 bits. -/
theorem words_sum_lt {pkt : Bytes} (hlen : 4 ≤ pkt.length)
    (hfield : pkt.view 2 = 0 ∧ pkt.view 3 = 0) (hmax : pkt.length ≤ 131076) :
    (words pkt).sum < 2 ^ 32 := by
  obtain ⟨a, b, rest, rfl⟩ := field_split hlen hfield
  have hrest := words_sum_le rest
  have ha := a.toNat_lt
  have hb := b.toNat_lt
  simp only [List.length_cons] at hmax
  simp only [words, List.sum_cons, UInt8.toNat_zero]
  omega

theorem verifies_store {pkt : Bytes} (hlen : 4 ≤ pkt.length)
    (hfield : pkt.view 2 = 0 ∧ pkt.view 3 = 0) (hmax : pkt.length ≤ 131076) {c : UInt16}
    (hc : c.toNat = 65535 - rep 16 ((words pkt).sum % 2 ^ 32)) :
    Verifies (storeChecksum pkt c) := by
  rw [verifies_iff hlen hfield, hc, Nat.mod_eq_of_lt (words_sum_lt hlen hfield hmax)]
  exact rep_complement (by decide) _

/-- **The two checksums** agree on every packet of even length, and what `icmp_checksum`
returns verifies once it is stored, for every length the sum has room for. -/
theorem checksums_agree (pkt : Bytes) (hlen : 4 ≤ pkt.length)
    (hfield : pkt.view 2 = 0 ∧ pkt.view 3 = 0) :
    (Even pkt.length → icmpChecksum pkt = probeChecksum pkt) ∧
      (pkt.length ≤ 131076 → Verifies (storeChecksum pkt (icmpChecksum pkt))) := by
  refine ⟨fun heven => ?_, fun hmax => verifies_store hlen hfield hmax (icmpChecksum_toNat pkt)⟩
  apply UInt16.toNat_inj.mp
  rw [icmpChecksum_toNat, probeChecksum_toNat heven]

/-- An echo request's header and one odd byte. -/
theorem checksums_agree_odd :
    (Even [8, 0, 0, 0, 0x12, 0x34, 0, 1, 0xFF].length →
      icmpChecksum [8, 0, 0, 0, 0x12, 0x34, 0, 1, 0xFF] =
        probeChecksum [8, 0, 0, 0, 0x12, 0x34, 0, 1, 0xFF]) ∧
    ([8, 0, 0, 0, 0x12, 0x34, 0, 1, 0xFF].length ≤ 131076 →
      Verifies (storeChecksum [8, 0, 0, 0, 0x12, 0x34, 0, 1, 0xFF]
        (icmpChecksum [8, 0, 0, 0, 0x12, 0x34, 0, 1, 0xFF]))) :=
  checksums_agree [8, 0, 0, 0, 0x12, 0x34, 0, 1, 0xFF] (by decide) ⟨rfl, rfl⟩

/-- The words of `2 * n + 1` bytes of ones. -/
theorem words_ones (n : Nat) : (words (List.replicate (2 * n + 1) 0xFF)).sum = 65535 * n + 255 := by
  induction n with
  | zero => rfl
  | succ n ih =>
    rw [show 2 * (n + 1) + 1 = 2 * n + 1 + 1 + 1 by omega, List.replicate_succ,
      List.replicate_succ, words, List.sum_cons, ih]
    show 255 + 256 * 255 + _ = _
    omega

/-- One byte more, all ones: the sum has lost a carry. -/
theorem overflow_unverified : ¬ ∀ pkt : Bytes, 4 ≤ pkt.length →
    pkt.view 2 = 0 ∧ pkt.view 3 = 0 →
      (Even pkt.length → pkt.length ≤ 65534 → icmpChecksum pkt = probeChecksum pkt) ∧
        Verifies (storeChecksum pkt (icmpChecksum pkt)) := by
  intro h
  obtain ⟨rest, hlen, hrest⟩ : ∃ rest : Bytes, rest.length = 131073 ∧
      (words rest).sum = 65535 * 65536 + 255 :=
    ⟨List.replicate 131073 0xFF, List.length_replicate, words_ones 65536⟩
  have hfour : 4 ≤ (0xFF :: 0xFF :: 0 :: 0 :: rest).length := by
    simp only [List.length_cons, hlen]
    decide
  have hsum : (words (0xFF :: 0xFF :: 0 :: 0 :: rest)).sum = 4294967550 := by
    rw [words, words, List.sum_cons, List.sum_cons, hrest]
    rfl
  have hbad := (h _ hfour ⟨rfl, rfl⟩).2
  rw [verifies_iff hfour ⟨rfl, rfl⟩, icmpChecksum_toNat, hsum] at hbad
  revert hbad
  decide

/-! ## The requests -/

/-- `ICMP_ECHO` -/
def icmpEcho : UInt8 := 8

/-- The request of `net_ping` but for its checksum: identifier and sequence number in network
order, and the payload's pattern behind `struct icmp`. -/
def pingPkt (id seq : UInt16) : Bytes :=
  [icmpEcho, 0, 0, 0] ++ (u16Bytes id).reverse ++ (u16Bytes seq).reverse ++
    List.replicate 20 0 ++ (List.range 32).map UInt8.ofNat

def pingRequest (id seq : UInt16) : Bytes :=
  storeChecksum (pingPkt id seq) (icmpChecksum (pingPkt id seq))

/-- The request of `probe_ttl` but for its checksum, in the order of the machine. -/
def probePkt (pid ttl : UInt16) : Bytes :=
  [icmpEcho, 0, 0, 0] ++ u16Bytes pid ++ u16Bytes ttl ++ List.replicate 8 0

def probeRequest (pid ttl : UInt16) : Bytes :=
  storeChecksum (probePkt pid ttl) (probeChecksum (probePkt pid ttl))

/-- Both requests go out with a checksum that verifies. -/
theorem pingRequest_verifies (id seq : UInt16) : Verifies (pingRequest id seq) :=
  verifies_store (by simp [pingPkt]) ⟨rfl, rfl⟩ (by simp [pingPkt]) (icmpChecksum_toNat _)

theorem probeRequest_verifies (pid ttl : UInt16) : Verifies (probeRequest pid ttl) :=
  verifies_store (by simp [probePkt]) ⟨rfl, rfl⟩ (by simp [probePkt])
    (probeChecksum_toNat ⟨8, by simp [probePkt]⟩)

end NetMon.Net
