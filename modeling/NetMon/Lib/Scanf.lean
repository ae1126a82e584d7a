import NetMon.Lib.CNum

/-!
# Texts a scanf format reads

A format is a list of `Directive`s, and `scan` is what `sscanf` stores for it: the values of the
conversions up to the first that fails, so their number is what it returns. `Reads` is the grammar
of the texts a format reads to its end, directive by directive (`scan_reads`). `hexPad` is what
`%0wX` prints, a text that `%X` reads back (`Reads.hexPad`).
-/

namespace NetMon.Lib.Scanf

/-- `%u`, `%X` or `%x`, and `%ns`; a blank stands for any number of blanks, another byte for
itself. -/
inductive Directive where
  | blanks
  | byte (b : UInt8)
  | unsigned
  | hex
  | word (n : Nat)
  deriving DecidableEq

inductive Stored where
  | number (n : Nat)
  | text (s : Bytes)
  deriving DecidableEq

def isxdigit (b : UInt8) : Bool := isdigit b || (65 ≤ b && b ≤ 70) || (97 ≤ b && b ≤ 102)

def xdigitVal (b : UInt8) : Nat :=
  if b ≤ 57 then b.toNat - 48 else if b ≤ 70 then b.toNat - 55 else b.toNat - 87

/-- The value of a run of hexadecimal digits. -/
def hexVal (ds : Bytes) : Nat := ds.foldl (fun n b => 16 * n + xdigitVal b) 0

/-- What `%X` reads of an unsigned 32-bit number: blanks, a sign, `0x` and digits. The value
saturates, and a minus sign wraps it. -/
def scanHex (s : Bytes) : Option (Nat × Bytes) :=
  let s := s.dropWhile isspace
  let (neg, s) := match s with
    | 45 :: r => (true, r)
    | 43 :: r => (false, r)
    | r => (false, r)
  let s := match s with
    | 48 :: 120 :: r => r
    | 48 :: 88 :: r => r
    | r => r
  let n := hexVal (s.takeWhile isxdigit)
  if s.takeWhile isxdigit = [] then none
  else some (if n < 2 ^ 32 then (if neg then (2 ^ 32 - n) % 2 ^ 32 else n) else 2 ^ 32 - 1,
    s.dropWhile isxdigit)

/-- What a `%ns` reads: the bytes up to a blank, `n` at most. -/
def scanWord (n : Nat) (s : Bytes) : Option (Bytes × Bytes) :=
  let s := s.dropWhile isspace
  let w := (s.takeWhile fun b => !isspace b).take n
  if w = [] then none else some (w, s.drop w.length)

def scan : List Directive → Bytes → List Stored
  | [], _ => []
  | .blanks :: fs, s => scan fs (s.dropWhile isspace)
  | .byte b :: fs, s => if s.head? = some b then scan fs s.tail else []
  | .unsigned :: fs, s =>
    match scanUnsigned 32 s with
    | none => []
    | some (n, s) => .number n :: scan fs s
  | .hex :: fs, s =>
    match scanHex s with
    | none => []
    | some (n, s) => .number n :: scan fs s
  | .word n :: fs, s =>
    match scanWord n s with
    | none => []
    | some (w, s) => .text w :: scan fs s

/-! ## The grammar -/

def Blank (gap : Bytes) : Prop := ∀ b ∈ gap, isspace b = true

/-- The text is what the format asks for, and these are its values. -/
inductive Reads : List Directive → Bytes → List Stored → Prop
  | nil (s : Bytes) : Reads [] s []
  | blanks {fs : List Directive} (gap : Bytes) {s : Bytes} {vs : List Stored} (hgap : Blank gap)
      (hend : ∀ b ∈ s.head?, isspace b = false) (h : Reads fs s vs) :
      Reads (.blanks :: fs) (gap ++ s) vs
  | byte {fs : List Directive} (b : UInt8) {s : Bytes} {vs : List Stored} (h : Reads fs s vs) :
      Reads (.byte b :: fs) (b :: s) vs
  | unsigned {fs : List Directive} (gap : Bytes) {ds s : Bytes} {vs : List Stored}
      (hgap : Blank gap) (hds : ∀ b ∈ ds, isdigit b = true) (hne : ds ≠ [])
      (hsmall : digitsVal ds < 2 ^ 32)
      (hend : ∀ b ∈ s.head?, isdigit b = false) (h : Reads fs s vs) :
      Reads (.unsigned :: fs) (gap ++ (ds ++ s)) (.number (digitsVal ds) :: vs)
  | hex {fs : List Directive} (gap : Bytes) {ds s : Bytes} {vs : List Stored} (hgap : Blank gap)
      (hds : ∀ b ∈ ds, isxdigit b = true) (hne : ds ≠ []) (hsmall : hexVal ds < 2 ^ 32)
      (hend : ∀ b ∈ s.head?, isxdigit b = false ∧ b ≠ 120 ∧ b ≠ 88) (h : Reads fs s vs) :
      Reads (.hex :: fs) (gap ++ (ds ++ s)) (.number (hexVal ds) :: vs)
  | word {fs : List Directive} {n : Nat} (gap : Bytes) {w s : Bytes} {vs : List Stored}
      (hgap : Blank gap) (hw : ∀ b ∈ w, isspace b = false) (hne : w ≠ []) (hfits : w.length ≤ n)
      (hend : ∀ b ∈ s.head?, isspace b = true) (h : Reads fs s vs) :
      Reads (.word n :: fs) (gap ++ (w ++ s)) (.text w :: vs)

/-- Blanks in front of a text that does not begin with one. -/
theorem dropWhile_gap {gap s : Bytes} (hgap : Blank gap) (hs : ∀ b ∈ s.head?, isspace b = false) :
    (gap ++ s).dropWhile isspace = s := by
  rw [List.dropWhile_append_of_pos hgap, CStr.dropWhile_isspace_of_head? hs]

theorem isxdigit_iff {b : UInt8} : isxdigit b = true ↔
    (48 ≤ b.toNat ∧ b.toNat ≤ 57) ∨ (65 ≤ b.toNat ∧ b.toNat ≤ 70) ∨
      97 ≤ b.toNat ∧ b.toNat ≤ 102 := by
  simp only [isxdigit, Bool.or_eq_true, Bool.and_eq_true, decide_eq_true_eq, isdigit_iff,
    UInt8.le_iff_toNat_le, or_assoc]
  rfl

theorem not_isspace_of_isxdigit {b : UInt8} (h : isxdigit b = true) : isspace b = false := by
  have hb := isxdigit_iff.mp h
  simp only [isspace, Bool.or_eq_false_iff, Bool.and_eq_false_iff, decide_eq_false_iff_not,
    beq_eq_false_iff_ne, UInt8.le_iff_toNat_le, not_le, Ne, ← UInt8.toNat_inj]
  refine ⟨.inr (lt_of_lt_of_le (by decide) (show 48 ≤ b.toNat by omega)), fun h32 => ?_⟩
  rw [show (32 : UInt8).toNat = 32 from rfl] at h32
  omega

/-- A prefix ends where the first byte without the property stands. -/
theorem takeWhile_run {p : UInt8 → Bool} {ds s : Bytes} (hds : ∀ b ∈ ds, p b = true)
    (hend : ∀ b ∈ s.head?, p b = false) :
    (ds ++ s).takeWhile p = ds ∧ (ds ++ s).dropWhile p = s := by
  rw [List.takeWhile_append_of_pos hds, List.dropWhile_append_of_pos hds]
  cases s with
  | nil => exact ⟨List.append_nil ds, rfl⟩
  | cons b s =>
    have hb := hend b rfl
    rw [List.takeWhile_cons_of_neg (by simp [hb]), List.dropWhile_cons_of_neg (by simp [hb])]
    exact ⟨List.append_nil ds, rfl⟩

theorem scanUnsigned_parts {gap ds s : Bytes} (hgap : Blank gap)
    (hds : ∀ b ∈ ds, isdigit b = true) (hne : ds ≠ []) (hsmall : digitsVal ds < 2 ^ 32)
    (hend : ∀ b ∈ s.head?, isdigit b = false) :
    scanUnsigned 32 (gap ++ (ds ++ s)) = some (digitsVal ds, s) := by
  have hscan := scanNumber_parts hgap (.inl rfl) hds hne hend
  rw [List.nil_append] at hscan
  rw [scanUnsigned, hscan]
  simp only [Option.map_some, if_pos hsmall]
  rfl

theorem scanHex_parts {gap ds s : Bytes} (hgap : Blank gap) (hds : ∀ b ∈ ds, isxdigit b = true)
    (hne : ds ≠ []) (hsmall : hexVal ds < 2 ^ 32)
    (hend : ∀ b ∈ s.head?, isxdigit b = false ∧ b ≠ 120 ∧ b ≠ 88) :
    scanHex (gap ++ (ds ++ s)) = some (hexVal ds, s) := by
  obtain ⟨d, l, rfl⟩ := List.exists_cons_of_ne_nil hne
  have hd := isxdigit_iff.mp (hds d List.mem_cons_self)
  have hskip : (gap ++ ((d :: l) ++ s)).dropWhile isspace = (d :: l) ++ s :=
    dropWhile_gap hgap fun b hb => by
      rw [List.cons_append, List.head?_cons, Option.mem_some_iff] at hb
      exact hb ▸ not_isspace_of_isxdigit (hds d List.mem_cons_self)
  -- The first digit is no sign, and what is behind a zero is no `x`.
  have hsign : (match (d :: l) ++ s with
      | 45 :: r => (true, r)
      | 43 :: r => (false, r)
      | r => (false, r)) = (false, (d :: l) ++ s) := by
    split
    · next h =>
      rw [(List.cons.inj h).1] at hd
      exact absurd hd (by decide)
    · next h =>
      rw [(List.cons.inj h).1] at hd
      exact absurd hd (by decide)
    · rfl
  have hprefix : (match (d :: l) ++ s with
      | 48 :: 120 :: r => r
      | 48 :: 88 :: r => r
      | r => r) = (d :: l) ++ s := by
    have hsecond : ∀ b ∈ (l ++ s).head?, b ≠ 120 ∧ b ≠ 88 := by
      intro b hb
      cases l with
      | nil => exact (hend b hb).2
      | cons c l =>
        rw [List.cons_append, List.head?_cons, Option.mem_some_iff] at hb
        have hc := isxdigit_iff.mp (hds c (by simp))
        rw [hb] at hc
        constructor <;> rintro rfl <;> exact absurd hc (by decide)
    split
    · next h =>
      have htail : l ++ s = 120 :: _ := (List.cons.inj h).2
      exact absurd rfl (hsecond 120 (by rw [htail]; rfl)).1
    · next h =>
      have htail : l ++ s = 88 :: _ := (List.cons.inj h).2
      exact absurd rfl (hsecond 88 (by rw [htail]; rfl)).2
    · rfl
  obtain ⟨htake, hdrop⟩ := takeWhile_run hds fun b hb => (hend b hb).1
  unfold scanHex
  simp only [hskip, hsign, hprefix, htake, hdrop]
  rw [if_neg hne, if_pos hsmall]
  rfl

theorem scanWord_parts {n : Nat} {gap w s : Bytes} (hgap : Blank gap)
    (hw : ∀ b ∈ w, isspace b = false) (hne : w ≠ []) (hfits : w.length ≤ n)
    (hend : ∀ b ∈ s.head?, isspace b = true) : scanWord n (gap ++ (w ++ s)) = some (w, s) := by
  obtain ⟨c, l, rfl⟩ := List.exists_cons_of_ne_nil hne
  have hskip : (gap ++ ((c :: l) ++ s)).dropWhile isspace = (c :: l) ++ s :=
    dropWhile_gap hgap fun b hb => by
      rw [List.cons_append, List.head?_cons, Option.mem_some_iff] at hb
      exact hb ▸ hw c List.mem_cons_self
  have htake := (takeWhile_run (p := fun b => !isspace b) (s := s)
    (fun b (hb : b ∈ c :: l) => by rw [hw b hb]; rfl) fun b hb => by rw [hend b hb]; rfl).1
  unfold scanWord
  simp only [hskip, htake, List.take_of_length_le hfits]
  rw [if_neg hne, List.drop_left]

/-- **What a format reads.** On a text of its grammar `sscanf` gets to the end of the format. -/
theorem scan_reads {fs : List Directive} {s : Bytes} {vs : List Stored} (h : Reads fs s vs) :
    scan fs s = vs := by
  induction h with
  | nil s => rfl
  | blanks gap hgap hend _ ih => rw [scan, dropWhile_gap hgap hend, ih]
  | byte b _ ih => rw [scan, List.head?_cons, if_pos rfl, List.tail_cons, ih]
  | unsigned gap hgap hds hne hsmall hend _ ih =>
    rw [scan, scanUnsigned_parts hgap hds hne hsmall hend]
    simp only [ih]
  | hex gap hgap hds hne hsmall hend _ ih =>
    rw [scan, scanHex_parts hgap hds hne hsmall hend]
    simp only [ih]
  | word gap hgap hw hne hfits hend _ ih =>
    rw [scan, scanWord_parts hgap hw hne hfits hend]
    simp only [ih]

/-! ## Printed numbers -/

/-- A hexadecimal digit, with the letters of `%x` or of `%X`. -/
def xdigit (upper : Bool) (n : Nat) : UInt8 :=
  UInt8.ofNat (if n < 10 then 48 + n else if upper then 55 + n else 87 + n)

/-- The last `w` digits of a number. -/
def hexPad (upper : Bool) : Nat → Nat → Bytes
  | 0, _ => []
  | w + 1, n => hexPad upper w (n / 16) ++ [xdigit upper (n % 16)]

theorem xdigit_spec : ∀ upper, ∀ n < 16, isxdigit (xdigit upper n) = true ∧
    xdigitVal (xdigit upper n) = n := by
  decide

section Printed

variable {upper : Bool}

theorem hexPad_isxdigit (w n : Nat) : ∀ b ∈ hexPad upper w n, isxdigit b = true := by
  induction w generalizing n with
  | zero => exact List.forall_mem_nil _
  | succ w ih =>
    rw [hexPad, List.forall_mem_append, List.forall_mem_singleton]
    exact ⟨ih _, (xdigit_spec upper _ (Nat.mod_lt n (by decide))).1⟩

theorem hexPad_length (w n : Nat) : (hexPad upper w n).length = w := by
  induction w generalizing n with
  | zero => rfl
  | succ w ih => rw [hexPad, List.length_append, ih, List.length_singleton]

theorem hexPad_ne_nil {w : Nat} (hw : 0 < w) (n : Nat) : hexPad upper w n ≠ [] := by
  rw [← List.length_pos_iff, hexPad_length]
  exact hw

theorem hexVal_hexPad {w n : Nat} (h : n < 16 ^ w) : hexVal (hexPad upper w n) = n := by
  induction w generalizing n with
  | zero => rw [hexPad, Nat.lt_one_iff.mp h]; rfl
  | succ w ih =>
    have hdigit := (xdigit_spec upper _ (Nat.mod_lt n (by decide))).2
    have hrest := ih (n := n / 16) (by rw [Nat.pow_succ] at h; omega)
    rw [hexVal] at hrest
    rw [hexPad, hexVal, List.foldl_append, hrest, List.foldl_cons, List.foldl_nil, hdigit]
    omega

variable {fs : List Directive} (gap : Bytes) {s : Bytes} {vs : List Stored} {n : Nat}

theorem Reads.hexPad (w : Nat) (hgap : Blank gap) (hw : 0 < w) (hw8 : w ≤ 8) (hn : n < 16 ^ w)
    (hend : ∀ b ∈ s.head?, isxdigit b = false ∧ b ≠ 120 ∧ b ≠ 88) (h : Reads fs s vs) :
    Reads (.hex :: fs) (gap ++ (hexPad upper w n ++ s)) (.number n :: vs) := by
  have hval : hexVal (Scanf.hexPad upper w n) = n := hexVal_hexPad hn
  have hsmall : hexVal (Scanf.hexPad upper w n) < 2 ^ 32 := by
    rw [hval]
    exact hn.trans_le ((Nat.pow_le_pow_right (by decide) hw8).trans (by decide))
  have := Reads.hex gap hgap (hexPad_isxdigit w n) (hexPad_ne_nil hw n) hsmall hend h
  rwa [hval] at this

theorem Reads.decimal (hgap : Blank gap) (hn : n < 2 ^ 32)
    (hend : ∀ b ∈ s.head?, isdigit b = false) (h : Reads fs s vs) :
    Reads (.unsigned :: fs) (gap ++ (decimal n ++ s)) (.number n :: vs) := by
  have hval := digitsVal_decimal n
  have hsmall : digitsVal (Lib.decimal n) < 2 ^ 32 := by
    rw [hval]
    exact hn
  have := Reads.unsigned gap hgap (isdigit_decimal n) (decimal_ne_nil n) hsmall hend h
  rwa [hval] at this

end Printed

/-- A byte that ends a number. -/
theorem ends_number {c : UInt8} (hc : isxdigit c = false ∧ c ≠ 120 ∧ c ≠ 88) (t : Bytes) :
    ∀ b ∈ (c :: t).head?, isxdigit b = false ∧ b ≠ 120 ∧ b ≠ 88 := by
  intro b hb
  rw [List.head?_cons, Option.mem_some_iff] at hb
  exact hb ▸ hc

/-- Behind a blank stands what is no blank. -/
theorem visible_front {w t : Bytes} (hw : ∀ b ∈ w, isspace b = false) (hne : w ≠ []) :
    ∀ b ∈ (w ++ t).head?, isspace b = false := by
  intro b hb
  rw [List.head?_append_of_ne_nil _ hne] at hb
  exact hw b (List.mem_of_mem_head? hb)

theorem blank_singleton : Blank [32] := List.forall_mem_singleton.mpr rfl

theorem blank_nil : Blank [] := List.forall_mem_nil _

end NetMon.Lib.Scanf
