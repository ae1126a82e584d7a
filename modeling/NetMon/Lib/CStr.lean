import Mathlib.Data.List.DropRight
import NetMon.Lib.Bytes

/-!
# C strings and text files

* `CStr`: the bytes before the terminating NUL. `CharArray n` is a `char[n]` that
  holds one; `copy` is `snprintf(dst, n, "%s", src)`, which truncates.
* `trim` and `split` are the usual in-place scanners; each result is a part of its
  argument (`trim_sublist`, `split_eq_some`).
* `textLines n` is what successive `fgets` calls with room for `n` bytes return.
  Together they return the whole text (`textLines_flatten`), and where no line of the
  text outgrows the room they return its lines (`textLines_cons`, `textLines_isLine`).
-/

namespace NetMon.Lib

/-- A C string: no NUL before its end. -/
@[ext]
structure CStr where
  bytes : Bytes
  nonul : 0 ∉ bytes
  deriving DecidableEq

namespace CStr

/-- A part of a C string is one. -/
def part (s : CStr) (l : Bytes) (h : l.Sublist s.bytes) : CStr :=
  ⟨l, fun h0 => s.nonul (h.subset h0)⟩

/-- What a pointer to these bytes reads as. -/
def ofBytes (l : Bytes) : CStr where
  bytes := l.takeWhile (· != 0)
  nonul h := by simpa using List.mem_takeWhile_imp h

/-- A string literal. -/
def lit (s : String) : CStr := ofBytes (s.toList.map fun c => UInt8.ofNat c.toNat)

def empty : CStr := ⟨[], by simp⟩

instance : Inhabited CStr := ⟨empty⟩

theorem ofBytes_of_nonul {l : Bytes} (h : 0 ∉ l) : (ofBytes l).bytes = l :=
  List.takeWhile_eq_self_iff.mpr fun b hb => by
    rw [bne_iff_ne]
    rintro rfl
    exact h hb

theorem ofBytes_bytes (s : CStr) : ofBytes s.bytes = s := by
  ext1
  exact ofBytes_of_nonul s.nonul

/-- `strlen` -/
def length (s : CStr) : Nat := s.bytes.length

/-- The first `n` bytes. -/
def trunc (s : CStr) (n : Nat) : CStr := s.part (s.bytes.take n) (List.take_sublist n s.bytes)

theorem trunc_of_le {s : CStr} {n : Nat} (h : s.length ≤ n) : s.trunc n = s := by
  ext1
  exact List.take_of_length_le h

/-- Two strings one after the other. -/
protected def append (s t : CStr) : CStr :=
  ⟨s.bytes ++ t.bytes, fun h => (List.mem_append.mp h).elim s.nonul t.nonul⟩

instance : Append CStr := ⟨CStr.append⟩

@[simp] theorem append_bytes (s t : CStr) : (s ++ t).bytes = s.bytes ++ t.bytes := rfl

end CStr

/-! ## Character arrays -/

/-- A `char[n]` holding a C string, with room for its terminator. -/
@[ext]
structure CharArray (n : Nat) where
  str : CStr
  fits : str.length ≤ n - 1
  deriving DecidableEq

namespace CharArray

/-- `snprintf(dst, n, "%s", src)`: what does not fit is cut off. -/
def copy (n : Nat) (s : CStr) : CharArray n where
  str := s.trunc (n - 1)
  fits := by
    simp only [CStr.length, CStr.trunc, CStr.part, List.length_take]
    omega

/-- The empty string, also what `memset` to zero leaves. -/
def blank (n : Nat) : CharArray n := ⟨CStr.empty, Nat.zero_le _⟩

instance (n : Nat) : Inhabited (CharArray n) := ⟨blank n⟩

variable {n : Nat}

def bytes (a : CharArray n) : Bytes := a.str.bytes

theorem bytes_length_le (a : CharArray n) : a.bytes.length ≤ n - 1 := a.fits

theorem copy_length_le (s : CStr) : (copy n s).bytes.length ≤ s.length := by
  simp only [bytes, copy, CStr.trunc, CStr.part, CStr.length, List.length_take]
  omega

theorem copy_str (a : CharArray n) : copy n a.str = a := by
  ext1
  exact CStr.trunc_of_le a.fits

/-- A copy as long as its source is all of it. -/
theorem copy_eq_of_length {s : CStr} (h : (copy n s).bytes.length = s.length) :
    (copy n s).str = s := by
  apply CStr.trunc_of_le
  have := (copy n s).fits
  rwa [show (copy n s).str.length = s.length from h] at this

end CharArray

/-! ## Printing into memory -/

/-- `snprintf(dst, n, …)` of a text into the memory behind `dst`. -/
def View.snprintf (m : View) (n : Nat) (s : CStr) : View :=
  m.store (((CharArray.copy n s).bytes ++ [0]).zipIdx 0)

/-- It prints what a copy into `n` bytes keeps, and its terminator. -/
theorem View.slice_snprintf (m : View) (n : Nat) (s : CStr) :
    (m.snprintf n s).slice 0 ((s.bytes.take (n - 1)).length + 1) = s.bytes.take (n - 1) ++ [0] := by
  have hall := View.slice_store m (s.bytes.take (n - 1) ++ [0]) 0
  rwa [List.length_append, List.length_singleton] at hall

theorem View.slice_snprintf_of_lt (m : View) {n : Nat} {s : CStr} (h : s.length < n) :
    (m.snprintf n s).slice 0 s.length = s.bytes := by
  have hwhole : s.bytes.take (n - 1) = s.bytes := List.take_of_length_le (Nat.le_sub_one_of_lt h)
  have hfront := congrArg (List.take s.bytes.length) (m.slice_snprintf n s)
  rw [hwhole, View.take_slice _ _ (Nat.le_succ _)] at hfront
  exact hfront.trans List.take_left

/-- The terminator stands where a longer text goes on. -/
theorem View.snprintf_terminator (m : View) {n : Nat} {s : CStr} (h : n - 1 < s.length) :
    m.snprintf n s (0 + (n - 1)) = 0 := by
  have hall := m.slice_snprintf n s
  have hlen : (s.bytes.take (n - 1)).length = n - 1 := by
    rw [CStr.length] at h
    rw [List.length_take]
    omega
  apply Option.some.inj
  rw [← View.slice_getElem? (n := (s.bytes.take (n - 1)).length + 1) _ 0 (by omega), hall,
    List.getElem?_append_right hlen.le, hlen, Nat.sub_self]
  rfl

/-- The memory has as many bytes of the text as the text is long exactly when none was cut
off. -/
theorem View.slice_snprintf_iff (m : View) {n : Nat} (hn : 0 < n) (s : CStr) :
    (m.snprintf n s).slice 0 s.length = s.bytes ↔ s.length < n := by
  constructor
  · intro h
    by_contra hlong
    have hcut : n - 1 < s.length := by omega
    have hbyte := View.slice_getElem? (m.snprintf n s) 0 hcut
    rw [h, m.snprintf_terminator hcut] at hbyte
    exact s.nonul (List.mem_of_getElem? hbyte)
  · exact m.slice_snprintf_of_lt

/-! ## Scanners -/

/-- `isspace` in the C locale. -/
def isspace (b : UInt8) : Bool := (9 ≤ b && b ≤ 13) || b == 32

def newline : UInt8 := 10

namespace CStr

theorem trimmed_sublist (l : Bytes) : ((l.dropWhile isspace).rdropWhile isspace).Sublist l :=
  ((List.rdropWhile_prefix _ _).sublist).trans (List.dropWhile_sublist _)

/-- `trim` -/
def trim (s : CStr) : CStr :=
  s.part ((s.bytes.dropWhile isspace).rdropWhile isspace) (trimmed_sublist s.bytes)

theorem trim_sublist (s : CStr) : s.trim.bytes.Sublist s.bytes := trimmed_sublist s.bytes

/-- A string that neither starts nor ends with a blank. -/
def Trimmed (s : CStr) : Prop := s.trim = s

instance (s : CStr) : Decidable s.Trimmed := inferInstanceAs (Decidable (s.trim = s))

/-- A string is trimmed when its first and its last byte, if any, are not blanks. -/
theorem trimmed_iff {s : CStr} : s.Trimmed ↔
    (∀ b ∈ s.bytes.head?, isspace b = false) ∧ (∀ b ∈ s.bytes.getLast?, isspace b = false) := by
  have key : ∀ l : Bytes, (l.dropWhile isspace).rdropWhile isspace = l ↔
      (∀ b ∈ l.head?, isspace b = false) ∧ (∀ b ∈ l.getLast?, isspace b = false) := by
    intro l
    cases l with
    | nil => simp
    | cons b l =>
      cases hb : isspace b with
      | true =>
        have hlen : ((b :: l).dropWhile isspace).length ≤ l.length := by
          rw [List.dropWhile_cons_of_pos hb]
          exact (List.dropWhile_sublist _).length_le
        have := (List.rdropWhile_prefix isspace ((b :: l).dropWhile isspace)).length_le
        simp only [List.head?_cons, Option.mem_def, Option.some.injEq, forall_eq', hb,
          Bool.true_eq_false, false_and, iff_false]
        intro h
        rw [h, List.length_cons] at this
        omega
      | false =>
        rw [List.dropWhile_cons_of_neg (by simp [hb]), List.rdropWhile_eq_self_iff,
          List.getLast?_eq_some_getLast (List.cons_ne_nil b l)]
        simp [hb]
  rw [Trimmed, CStr.ext_iff]
  exact key s.bytes

theorem trimmed_of_visible {s : CStr} (h : ∀ b ∈ s.bytes, isspace b = false) : s.Trimmed :=
  trimmed_iff.mpr ⟨fun b hb => h b (List.mem_of_head? hb),
    fun b hb => h b (List.mem_of_getLast? hb)⟩

theorem trim_trimmed (s : CStr) : s.trim.Trimmed := by
  rw [trimmed_iff]
  have hpre : s.trim.bytes <+: s.bytes.dropWhile isspace := List.rdropWhile_prefix _ _
  refine ⟨fun b hb => ?_, fun b hb => ?_⟩
  · obtain ⟨rest, hrest⟩ := hpre
    cases ht : s.trim.bytes with
    | nil => rw [ht] at hb; cases hb
    | cons c l =>
      rw [ht] at hb hrest
      cases hb
      have hnot := List.head?_dropWhile_not isspace s.bytes
      rw [← hrest] at hnot
      simpa using hnot
  · have hne : s.trim.bytes ≠ [] := by rintro h; rw [h] at hb; cases hb
    rw [List.getLast?_eq_some_getLast hne] at hb
    cases hb
    exact Bool.not_eq_true _ ▸ List.rdropWhile_last_not isspace (s.bytes.dropWhile isspace) hne

theorem dropWhile_isspace_of_head? {l : Bytes} (h : ∀ b ∈ l.head?, isspace b = false) :
    l.dropWhile isspace = l := by
  cases l with
  | nil => rfl
  | cons b l => exact List.dropWhile_cons_of_neg (by simp [h b rfl])

/-- Trimming keeps a first byte that is not a blank. -/
theorem trim_head? {s : CStr} (h : ∀ b ∈ s.bytes.head?, isspace b = false)
    (hne : s.trim.bytes ≠ []) : s.trim.bytes.head? = s.bytes.head? := by
  obtain ⟨rest, hrest⟩ : s.trim.bytes <+: s.bytes := by
    conv_rhs => rw [← dropWhile_isspace_of_head? h]
    exact List.rdropWhile_prefix _ _
  rw [← hrest, List.head?_append_of_ne_nil _ hne]

/-- Trimming only removes blanks. -/
theorem mem_trim_iff {s : CStr} {b : UInt8} (hb : isspace b = false) :
    b ∈ s.trim.bytes ↔ b ∈ s.bytes := by
  have hfront : b ∈ s.bytes ↔ b ∈ s.bytes.dropWhile isspace := by
    conv_lhs => rw [← List.takeWhile_append_dropWhile (p := isspace) (l := s.bytes)]
    rw [List.mem_append]
    refine ⟨fun h => h.resolve_left fun ht => ?_, Or.inr⟩
    simp [List.mem_takeWhile_imp ht] at hb
  have hback : b ∈ s.bytes.dropWhile isspace ↔ b ∈ s.trim.bytes := by
    conv_lhs =>
      rw [← List.rdropWhile_append_rtakeWhile (p := isspace) (l := s.bytes.dropWhile isspace)]
    rw [List.mem_append]
    refine ⟨fun h => h.resolve_right fun ht => ?_, Or.inl⟩
    simp [List.mem_rtakeWhile_imp ht] at hb
  exact (hfront.trans hback).symm

theorem rdropWhile_append_cons {p : UInt8 → Bool} {c : UInt8} (hc : ¬ p c = true)
    (a v : Bytes) : (a ++ c :: v).rdropWhile p = a ++ c :: v.rdropWhile p := by
  simp only [List.rdropWhile, List.reverse_append, List.reverse_cons, List.append_assoc,
    List.singleton_append]
  rw [List.dropWhile_append, List.dropWhile_cons_of_neg hc]
  split
  · next hnil => simp [List.isEmpty_iff.mp hnil]
  · simp

/-- Blanks behind the rest of a string that begins visibly are all that trimming removes. -/
theorem trim_append_cons {s : CStr} {a v : Bytes} {c : UInt8} (hs : s.bytes = a ++ c :: v)
    (ha : ∀ b ∈ s.bytes.head?, isspace b = false) (hc : isspace c = false) :
    s.trim.bytes = a ++ c :: v.rdropWhile isspace := by
  show (s.bytes.dropWhile isspace).rdropWhile isspace = _
  rw [dropWhile_isspace_of_head? ha, hs, rdropWhile_append_cons (by simp [hc])]

/-- The blanks at the end may be trimmed off first. -/
theorem trim_of_rdropWhile {s t : CStr} (ht : t.bytes = s.bytes.rdropWhile isspace) :
    t.trim = s.trim := by
  ext1
  show (t.bytes.dropWhile isspace).rdropWhile isspace =
    (s.bytes.dropWhile isspace).rdropWhile isspace
  rw [ht]
  by_cases hall : ∀ b ∈ s.bytes, isspace b = true
  · rw [List.rdropWhile_eq_nil_iff.mpr hall, List.dropWhile_eq_nil_iff.mpr hall]
    rfl
  · have hne : s.bytes.dropWhile isspace ≠ [] := fun h => hall (List.dropWhile_eq_nil_iff.mp h)
    obtain ⟨c, l, hcl⟩ := List.exists_cons_of_ne_nil hne
    have hc : ¬ isspace c = true := by
      have hnot := List.head?_dropWhile_not isspace s.bytes
      rw [hcl] at hnot
      simpa using hnot
    have hsplit : s.bytes = s.bytes.takeWhile isspace ++ c :: l := by
      rw [← hcl, List.takeWhile_append_dropWhile]
    have hblank : ∀ b ∈ s.bytes.takeWhile isspace, isspace b = true :=
      fun b hb => List.mem_takeWhile_imp hb
    rw [hsplit, rdropWhile_append_cons hc, List.dropWhile_append_of_pos hblank,
      List.dropWhile_append_of_pos hblank, List.dropWhile_cons_of_neg hc,
      List.dropWhile_cons_of_neg hc]
    exact (rdropWhile_append_cons hc [] _).trans
      ((congrArg (c :: ·) (List.rdropWhile_idempotent isspace l)).trans
        (rdropWhile_append_cons hc [] l).symm)

/-- Blanks behind a string that ends in none are trimmed off. -/
theorem trim_append_blank {s t : CStr} {b : UInt8} (hs : s.Trimmed) (hne : s.bytes ≠ [])
    (hb : isspace b = true) (ht : t.bytes = s.bytes ++ [b]) : t.trim = s := by
  obtain ⟨c, l, hcl⟩ := List.exists_cons_of_ne_nil hne
  have hc : isspace c = false := (trimmed_iff.mp hs).1 c (by rw [hcl]; rfl)
  ext1
  show ((t.bytes.dropWhile isspace).rdropWhile isspace) = _
  rw [ht, hcl, List.cons_append, List.dropWhile_cons_of_neg (by simp [hc]), ← List.cons_append,
    ← hcl, List.rdropWhile_concat_pos isspace _ _ hb, List.rdropWhile_eq_self_iff]
  intro h
  have := (trimmed_iff.mp hs).2 _ (List.getLast?_eq_some_getLast h)
  simp [this]

/-- A trimmed part of a text with a blank at its end does without that blank. -/
theorem sublist_of_blank {t : CStr} {s : Bytes} {b : UInt8} (ht : t.Trimmed)
    (hb : isspace b = true) (h : t.bytes.Sublist (s ++ [b])) : t.bytes.Sublist s := by
  obtain ⟨l, r, hlr, hl, hr⟩ := List.sublist_append_iff.mp h
  rcases List.sublist_singleton.mp hr with rfl | rfl
  · rwa [hlr, List.append_nil]
  · have := (trimmed_iff.mp ht).2 b (by rw [hlr, List.getLast?_concat]; rfl)
    rw [hb] at this
    cases this

/-- `strchr`: what stands before the first `c` and what stands after it. -/
def split (c : UInt8) (s : CStr) : Option (CStr × CStr) :=
  if c ∈ s.bytes then
    some (s.part (s.bytes.takeWhile (· != c)) (List.takeWhile_sublist _),
      s.part (s.bytes.dropWhile (· != c)).tail
        ((List.tail_sublist _).trans (List.dropWhile_sublist _)))
  else none

private theorem takeWhile_ne_append (c : UInt8) {a : Bytes} (b : Bytes) (h : c ∉ a) :
    (a ++ c :: b).takeWhile (· != c) = a ∧ (a ++ c :: b).dropWhile (· != c) = c :: b := by
  have hall : ∀ x ∈ a, (x != c) = true := fun x hx => by
    rw [bne_iff_ne]; rintro rfl; exact h hx
  refine ⟨?_, ?_⟩
  · rw [List.takeWhile_append_of_pos hall]; simp
  · rw [List.dropWhile_append_of_pos hall]; simp

/-- `strchr` finds the first `c`. -/
theorem split_eq_some {c : UInt8} {s a b : CStr} :
    s.split c = some (a, b) ↔ s.bytes = a.bytes ++ c :: b.bytes ∧ c ∉ a.bytes := by
  constructor
  · intro h
    unfold split at h
    split at h
    · next hc =>
      obtain ⟨rfl, rfl⟩ := Prod.mk.inj (Option.some.inj h)
      refine ⟨?_, fun hmem => by simpa using List.mem_takeWhile_imp hmem⟩
      have hne : s.bytes.dropWhile (· != c) ≠ [] := fun hd => by
        simpa using List.dropWhile_eq_nil_iff.mp hd c hc
      obtain ⟨x, xs, hd⟩ := List.exists_cons_of_ne_nil hne
      have hx := List.head?_dropWhile_not (· != c) s.bytes
      rw [hd] at hx
      obtain rfl : x = c := by simpa using hx
      calc s.bytes = s.bytes.takeWhile (· != x) ++ s.bytes.dropWhile (· != x) :=
            List.takeWhile_append_dropWhile.symm
        _ = s.bytes.takeWhile (· != x) ++ x :: (s.bytes.dropWhile (· != x)).tail := by
            rw [hd, List.tail_cons]
    · cases h
  · rintro ⟨hs, hc⟩
    obtain ⟨ht, hd⟩ := takeWhile_ne_append c b.bytes hc
    unfold split
    rw [if_pos (by rw [hs]; simp)]
    congr 2
    · ext1; exact (congrArg _ hs).trans ht
    · ext1
      show (s.bytes.dropWhile (· != c)).tail = b.bytes
      rw [hs, hd, List.tail_cons]

end CStr

/-! ## Lines of a text -/

/-- The lines `fgets` returns, `cur` being the part of a line already read: a line ends
behind a newline, at `n` bytes, or where the text does. -/
def fgetsLines (n : Nat) (cur : Bytes) : Bytes → List Bytes
  | [] => if cur = [] then [] else [cur]
  | b :: bs =>
    if b = newline ∨ cur.length + 1 = n then (cur ++ [b]) :: fgetsLines n [] bs
    else fgetsLines n (cur ++ [b]) bs

def textLines (n : Nat) (text : Bytes) : List Bytes := fgetsLines n [] text

theorem fgetsLines_flatten (n : Nat) (cur text : Bytes) :
    (fgetsLines n cur text).flatten = cur ++ text := by
  induction text generalizing cur with
  | nil =>
    unfold fgetsLines
    split
    · next h => rw [h]; rfl
    · simp
  | cons b bs ih =>
    unfold fgetsLines
    split
    · rw [List.flatten_cons, ih, List.nil_append, List.append_assoc, List.singleton_append]
    · rw [ih, List.append_assoc, List.singleton_append]

/-- Nothing of the text is lost or returned twice. -/
theorem textLines_flatten (n : Nat) (text : Bytes) : (textLines n text).flatten = text :=
  fgetsLines_flatten n [] text

/-- A line with its newline, and no other. -/
def IsLine (l : Bytes) : Prop := ∃ s, l = s ++ [newline] ∧ newline ∉ s

/-- Every line of the text, `c` bytes of the first one already read, fits the room `n`. -/
def LinesFit (n : Nat) : Nat → Bytes → Prop
  | c, [] => c = 0
  | c, b :: bs => if b = newline then LinesFit n 0 bs else c + 1 < n ∧ LinesFit n (c + 1) bs

theorem linesFit_append {n : Nat} {s rest : Bytes} {c : Nat} (h : c + s.length < n)
    (hrest : LinesFit n 0 rest) : LinesFit n c (s ++ newline :: rest) := by
  induction s generalizing c with
  | nil => simpa [LinesFit] using hrest
  | cons b s ih =>
    rw [List.length_cons] at h
    rw [List.cons_append, LinesFit]
    split
    · exact ih (by omega)
    · exact ⟨by omega, ih (by omega)⟩

theorem fgetsLines_isLine {n : Nat} {cur text : Bytes} (hcur : newline ∉ cur)
    (h : LinesFit n cur.length text) : ∀ l ∈ fgetsLines n cur text, IsLine l := by
  induction text generalizing cur with
  | nil =>
    unfold fgetsLines
    rw [if_pos (List.eq_nil_of_length_eq_zero h)]
    simp
  | cons b bs ih =>
    rw [LinesFit] at h
    unfold fgetsLines
    split at h
    · next hb =>
      rw [if_pos (Or.inl hb), List.forall_mem_cons]
      exact ⟨⟨cur, by rw [hb], hcur⟩, ih (by simp) h⟩
    · next hb =>
      rw [if_neg (by rintro (h1 | h1); exacts [hb h1, by omega])]
      refine ih ?_ (by simpa using h.2)
      simpa using ⟨hcur, fun h' => hb h'.symm⟩

theorem textLines_isLine {n : Nat} {text : Bytes} (h : LinesFit n 0 text) :
    ∀ l ∈ textLines n text, IsLine l := fgetsLines_isLine (by simp) h

private theorem fgetsLines_cons {n : Nat} {cur s : Bytes} (rest : Bytes) (hs : newline ∉ s)
    (h : cur.length + s.length < n) :
    fgetsLines n cur (s ++ newline :: rest) = (cur ++ s ++ [newline]) :: textLines n rest := by
  induction s generalizing cur with
  | nil =>
    rw [List.nil_append, fgetsLines, if_pos (Or.inl rfl), List.append_nil]
    rfl
  | cons b s ih =>
    rw [List.mem_cons, not_or] at hs
    rw [List.length_cons] at h
    rw [List.cons_append, fgetsLines, if_neg (by rintro (h1 | h1); exacts [hs.1 h1.symm, by omega]),
      ih hs.2 (by rw [List.length_append, List.length_singleton]; omega)]
    simp

/-- A line that fits is returned as it stands. -/
theorem textLines_cons {n : Nat} {s : Bytes} (rest : Bytes) (hs : newline ∉ s) (h : s.length < n) :
    textLines n (s ++ newline :: rest) = (s ++ [newline]) :: textLines n rest :=
  fgetsLines_cons rest hs (by simpa using h)

/-- After a newline the reader starts afresh. -/
theorem fgetsLines_append (n : Nat) (cur s rest : Bytes) :
    fgetsLines n cur (s ++ newline :: rest) =
      fgetsLines n cur (s ++ [newline]) ++ textLines n rest := by
  induction s generalizing cur with
  | nil =>
    rw [List.nil_append, List.nil_append, fgetsLines, fgetsLines, if_pos (Or.inl rfl),
      if_pos (Or.inl rfl)]
    rfl
  | cons b s ih =>
    rw [List.cons_append, List.cons_append, fgetsLines, fgetsLines]
    split
    · rw [ih, List.cons_append]
    · exact ih _

theorem textLines_append (n : Nat) (s rest : Bytes) :
    textLines n (s ++ newline :: rest) = textLines n (s ++ [newline]) ++ textLines n rest :=
  fgetsLines_append n [] s rest

private theorem fgetsLines_short {n : Nat} {cur s : Bytes} (hcur : cur.length < n)
    (hs : newline ∉ s) (h : cur.length + s.length ≤ n) :
    fgetsLines n cur s = if cur ++ s = [] then [] else [cur ++ s] := by
  induction s generalizing cur with
  | nil => rw [fgetsLines, List.append_nil]
  | cons b s ih =>
    rw [List.mem_cons, not_or] at hs
    rw [List.length_cons] at h
    rw [if_neg (by simp), fgetsLines]
    by_cases hfull : cur.length + 1 = n
    · have hnil : s = [] := List.eq_nil_of_length_eq_zero (by omega)
      rw [if_pos (Or.inr hfull), hnil]
      rfl
    · rw [if_neg (by rintro (h1 | h1); exacts [hs.1 h1.symm, hfull h1]), ih (by simp; omega) hs.2
        (by simp; omega), if_neg (by simp), List.append_assoc, List.singleton_append]

/-- The last line of a text, if it fits. -/
theorem textLines_short {n : Nat} {s : Bytes} (hn : 0 < n) (hs : newline ∉ s) (h : s.length ≤ n) :
    textLines n s = if s = [] then [] else [s] :=
  fgetsLines_short hn hs (by simpa using h)

/-- A text of these lines, and what stands behind the last newline. -/
def unlines (ls : List Bytes) (last : Bytes) : Bytes :=
  (ls.flatMap fun l => l ++ [newline]) ++ last

/-- The lines of a text all of whose lines fit. -/
theorem textLines_unlines {n : Nat} (hn : 0 < n) {ls : List Bytes} {last : Bytes}
    (hls : ∀ l ∈ ls, newline ∉ l ∧ l.length < n) (hlast : newline ∉ last)
    (hfits : last.length ≤ n) : textLines n (unlines ls last) =
      (ls.map fun l => l ++ [newline]) ++ if last = [] then [] else [last] := by
  induction ls with
  | nil => exact textLines_short hn hlast hfits
  | cons l ls ih =>
    rw [List.forall_mem_cons] at hls
    have hsplit : unlines (l :: ls) last = l ++ newline :: unlines ls last := by simp [unlines]
    rw [hsplit, textLines_cons _ hls.1.1 hls.1.2, ih hls.2]
    rfl

end NetMon.Lib
