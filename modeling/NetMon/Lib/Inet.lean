import NetMon.Lib.CNum

/-!
# IPv4 addresses

`inet_pton` and `inet_ntoa`. An address is the 32-bit word of a `struct in_addr`; its bytes
are in network order, so the first number is the lowest byte.
-/

namespace NetMon.Lib

/-- `s_addr` -/
def inAddr (a b c d : UInt8) : UInt32 :=
  UInt32.ofNat (a.toNat + 256 * b.toNat + 65536 * c.toNat + 16777216 * d.toNat)

/-- One of the four numbers: digits without needless zeros, up to 255. -/
def octet (ds : Bytes) : Option UInt8 :=
  if ds ≠ [] ∧ ds.all isdigit ∧ (ds.head? = some 48 → ds.length = 1) ∧ digitsVal ds ≤ 255 then
    some (UInt8.ofNat (digitsVal ds))
  else none

/-- `inet_pton(AF_INET, s, ..)`; `none` where it leaves its result alone. -/
def inetPton (s : CStr) : Option UInt32 :=
  match (s.bytes.splitOn 46).map octet with
  | [some a, some b, some c, some d] => some (inAddr a b c d)
  | _ => none

def inetNtoa (addr : UInt32) : CStr :=
  let n := addr.toNat
  CStr.lit s!"{n % 256}.{n / 256 % 256}.{n / 65536 % 256}.{n / 16777216}"

example : inetPton (CStr.lit "10.0.0.1") = some 0x0100000A := by decide

/-! ## Addresses as text -/

/-- A byte of an address, the first one being the lowest. -/
def addrByte (addr : UInt32) (i : Nat) : Nat := addr.toNat / 256 ^ i % 256

/-- The four numbers of an address with dots in between. -/
def dotted (addr : UInt32) : Bytes :=
  decimal (addrByte addr 0) ++ 46 :: (decimal (addrByte addr 1) ++ 46 ::
    (decimal (addrByte addr 2) ++ 46 :: decimal (addrByte addr 3)))

theorem addrByte_lt (addr : UInt32) (i : Nat) : addrByte addr i < 256 :=
  Nat.mod_lt _ (by decide)

theorem octet_decimal : ∀ n < 256, octet (decimal n) = some (UInt8.ofNat n) := by decide +kernel

theorem inAddr_addrByte (addr : UInt32) :
    inAddr (UInt8.ofNat (addrByte addr 0)) (UInt8.ofNat (addrByte addr 1))
      (UInt8.ofNat (addrByte addr 2)) (UInt8.ofNat (addrByte addr 3)) = addr := by
  have hlt := addr.toNat_lt
  have hbyte : ∀ i, (UInt8.ofNat (addrByte addr i)).toNat = addr.toNat / 256 ^ i % 256 :=
    fun i => UInt8.toNat_ofNat_of_lt' (addrByte_lt addr i)
  apply UInt32.toNat_inj.mp
  simp only [inAddr, hbyte]
  rw [UInt32.toNat_ofNat']
  omega

theorem dot_notMem (n : Nat) : 46 ∉ decimal n := fun h =>
  absurd (isdigit_decimal n 46 h) (by decide)

/-- The text of an address is read back as the address. -/
theorem inetPton_dotted {s : CStr} {addr : UInt32} (h : s.bytes = dotted addr) :
    inetPton s = some addr := by
  have hsplit : s.bytes.splitOn 46 = [decimal (addrByte addr 0), decimal (addrByte addr 1),
      decimal (addrByte addr 2), decimal (addrByte addr 3)] := by
    rw [h, dotted, List.splitOn_append_cons_self_of_not_mem (dot_notMem _),
      List.splitOn_append_cons_self_of_not_mem (dot_notMem _),
      List.splitOn_append_cons_self_of_not_mem (dot_notMem _),
      List.splitOn_eq_singleton (dot_notMem _)]
  rw [inetPton, hsplit]
  simp only [List.map_cons, List.map_nil, octet_decimal _ (addrByte_lt addr _), inAddr_addrByte]

theorem dotted_visible (addr : UInt32) : ∀ b ∈ dotted addr, b = 46 ∨ isdigit b = true := by
  intro b hb
  simp only [dotted, List.mem_append, List.mem_cons] at hb
  rcases hb with hb | rfl | hb | rfl | hb | rfl | hb
  · exact .inr (isdigit_decimal _ b hb)
  · exact .inl rfl
  · exact .inr (isdigit_decimal _ b hb)
  · exact .inl rfl
  · exact .inr (isdigit_decimal _ b hb)
  · exact .inl rfl
  · exact .inr (isdigit_decimal _ b hb)

theorem dotted_length_le (addr : UInt32) : (dotted addr).length ≤ 15 := by
  have hlen : ∀ i, (decimal (addrByte addr i)).length ≤ 3 := fun i =>
    decimal_length_le (by decide) ((addrByte_lt addr i).trans (by decide))
  have h0 := hlen 0
  have h1 := hlen 1
  have h2 := hlen 2
  have h3 := hlen 3
  simp only [dotted, List.length_append, List.length_cons]
  omega

/-! ## Numbers with dots in between -/

/-- One `%d` of a `sscanf`, and what is left. -/
def scanInt (s : Bytes) : Option (Int × Bytes) :=
  (scanNumber s).map fun (neg, n, rest) =>
    (max (-2147483648) (min 2147483647 (if neg then -(n : Int) else n)), rest)

/-- What `n` conversions `%d` with dots in between store. -/
def scanDotted : Nat → Bytes → List Int
  | 0, _ => []
  | n + 1, s =>
    match scanInt s with
    | none => []
    | some (z, s) => z :: (if s.head? = some 46 then scanDotted n s.tail else [])

/-- Numbers as they are printed, with dots in between. -/
def dottedText : List Nat → Bytes
  | [] => []
  | [n] => decimal n
  | n :: m :: ns => decimal n ++ 46 :: dottedText (m :: ns)

theorem scanInt_decimal {n : Nat} (hn : n < 2 ^ 31) (rest : Bytes)
    (hrest : ∀ b ∈ rest.head?, isdigit b = false) :
    scanInt (decimal n ++ rest) = some ((n : Int), rest) := by
  have hscan := scanNumber_parts (List.forall_mem_nil _) (.inl rfl) (isdigit_decimal n)
    (decimal_ne_nil n) hrest
  rw [List.nil_append, List.nil_append, digitsVal_decimal] at hscan
  have hrange : max (-2147483648) (min 2147483647 (n : Int)) = n := by omega
  rw [scanInt, hscan]
  exact congrArg (fun z => some (z, rest)) hrange

/-- What is printed is read back. -/
theorem scanDotted_dottedText {ns : List Nat} (h : ∀ n ∈ ns, n < 2 ^ 31) :
    scanDotted ns.length (dottedText ns) = ns.map Int.ofNat := by
  induction ns with
  | nil => rfl
  | cons n ns ih =>
    rw [List.forall_mem_cons] at h
    cases ns with
    | nil =>
      have hscan := scanInt_decimal h.1 [] fun b hb => absurd hb (Option.not_mem_none b)
      rw [List.append_nil] at hscan
      rw [dottedText, List.length_singleton, scanDotted, hscan]
      rfl
    | cons m ns =>
      have hscan := scanInt_decimal h.1 (46 :: dottedText (m :: ns)) fun b hb => by
        rw [List.head?_cons, Option.mem_some_iff] at hb
        exact hb ▸ rfl
      rw [dottedText, List.length_cons, scanDotted, hscan]
      dsimp only
      rw [List.head?_cons, if_pos rfl, List.tail_cons, ih h.2]
      rfl

end NetMon.Lib
