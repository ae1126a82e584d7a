import Mathlib.Algebra.Order.BigOperators.Group.List
import Mathlib.Algebra.GroupWithZero.Nat
import NetMon.Lib.CNum
import NetMon.Lib.Machine

/-!
# The printf utility with a format and no operands

A format falls into `Piece`s: bytes that are printed as they are, escapes, and conversions.
`printf` fails on whatever leaves the result unspecified. A run of plain bytes prints itself
(`runs_plain`).

The other pieces cost something. Count `%`, `\` and newlines: no piece prints more of them than it
is made of (`piece_cost`). Where a format prints as many, it is made of plain bytes and of escapes
of these three, so it is longer than its output (`printf_tight`).
-/

namespace NetMon.Lib.Printf

def isOctal (b : UInt8) : Bool := 48 ≤ b && b ≤ 55

/-- What a backslash and this letter print: `\a`, `\b`, `\f`, `\n`, `\r`, `\t`, `\v` or `\\`. -/
def escapeValue (b : UInt8) : Option UInt8 :=
  if b = 97 then some 7 else if b = 98 then some 8 else if b = 102 then some 12
  else if b = 110 then some 10 else if b = 114 then some 13 else if b = 116 then some 9
  else if b = 118 then some 11 else if b = 92 then some 92 else none

/-- The byte with these octal digits. -/
def octalValue (ds : Bytes) : UInt8 := ds.foldl (fun v d => 8 * v + (d - 48)) 0

/-- What may stand between `%` and its letter: `#`, space, `+`, `-`, `.` and digits. -/
def isFlag (b : UInt8) : Bool := isdigit b || b ∈ [32, 35, 43, 45, 46]

/-- The letters `EGXbcdefgiosux`. -/
def isConversion (b : UInt8) : Bool :=
  b ∈ [69, 71, 88, 98, 99, 100, 101, 102, 103, 105, 111, 115, 117, 120]

/-- What a conversion prints when there is no operand for it: a zero or nothing, and padding. -/
structure Conversions where
  output : Bytes → UInt8 → Bytes
  quiet : ∀ flags c, ∀ b ∈ output flags c, b ≠ 37 ∧ b ≠ 92 ∧ b ≠ 10

inductive Piece where
  | plain (b : UInt8)
  | percent
  | escape (letter : UInt8)
  | octal (ds : Bytes)
  | conversion (flags : Bytes) (c : UInt8)
  deriving DecidableEq

namespace Piece

def source : Piece → Bytes
  | plain b => [b]
  | percent => [37, 37]
  | escape letter => [92, letter]
  | octal ds => 92 :: ds
  | conversion flags c => 37 :: (flags ++ [c])

def output (conv : Conversions) : Piece → Bytes
  | plain b => [b]
  | percent => [37]
  | escape letter => [(escapeValue letter).getD 0]
  | octal ds => [octalValue ds]
  | conversion flags c => conv.output flags c

def Valid : Piece → Prop
  | plain b => b ≠ 37 ∧ b ≠ 92
  | percent => True
  | escape letter => (escapeValue letter).isSome
  | octal ds => (∀ d ∈ ds, isOctal d = true) ∧ 1 ≤ ds.length ∧ ds.length ≤ 3
  | conversion flags c => (∀ f ∈ flags, isFlag f = true) ∧ isConversion c = true

end Piece

/-! ## Reading a format -/

inductive Reading where
  | plain
  | escape
  | octal (ds : Bytes)
  | spec (flags : Bytes)
  | failed
  deriving DecidableEq

namespace Reading

/-- Outside escapes and conversions. -/
def start (b : UInt8) : Reading × List Piece :=
  if b = 92 then (escape, []) else if b = 37 then (spec [], []) else (plain, [.plain b])

def read : Reading → UInt8 → Reading × List Piece
  | plain, b => start b
  | escape, b =>
    if isOctal b then (octal [b], [])
    else if (escapeValue b).isSome then (plain, [.escape b]) else (failed, [])
  | octal ds, b =>
    if isOctal b ∧ ds.length < 3 then (octal (ds ++ [b]), [])
    else ((start b).1, .octal ds :: (start b).2)
  | spec flags, b =>
    if b = 37 ∧ flags = [] then (plain, [.percent])
    else if isFlag b then (spec (flags ++ [b]), [])
    else if isConversion b then (plain, [.conversion flags b]) else (failed, [])
  | failed, _ => (failed, [])

/-- What is read but not a piece yet. -/
def pending : Reading → Bytes
  | plain => []
  | escape => [92]
  | octal ds => 92 :: ds
  | spec flags => 37 :: flags
  | failed => []

/-- What the end of the format makes of it. -/
def finish : Reading → Option (List Piece)
  | plain => some []
  | octal ds => some [.octal ds]
  | _ => none

def Valid : Reading → Prop
  | octal ds => (∀ d ∈ ds, isOctal d = true) ∧ 1 ≤ ds.length ∧ ds.length ≤ 3
  | spec flags => ∀ f ∈ flags, isFlag f = true
  | _ => True

end Reading

def reader : Machine Reading UInt8 Piece where
  step r b := (r.read b).1
  out r b := (r.read b).2

/-- The pieces of a format, unless its result is unspecified. -/
def pieces (format : Bytes) : Option (List Piece) :=
  (reader.exec .plain format).finish.map (reader.trace .plain format ++ ·)

/-- `printf` of a format and nothing else. -/
def printf (conv : Conversions) (format : Bytes) : Option Bytes :=
  (pieces format).map fun ps => ps.flatMap (Piece.output conv)

/-! ## Pieces -/

theorem start_source (b : UInt8) :
    (Reading.start b).2.flatMap Piece.source ++ (Reading.start b).1.pending = [b] := by
  unfold Reading.start
  split_ifs <;> simp_all [Piece.source, Reading.pending]

theorem read_source (r : Reading) (b : UInt8) : (r.read b).1 = .failed ∨
    (r.read b).2.flatMap Piece.source ++ (r.read b).1.pending = r.pending ++ [b] := by
  cases r with
  | plain => exact .inr (start_source b)
  | escape =>
    simp only [Reading.read]
    split_ifs <;> simp [Piece.source, Reading.pending]
  | octal ds =>
    simp only [Reading.read]
    split_ifs
    · simp [Reading.pending]
    · refine .inr ?_
      rw [List.flatMap_cons, List.append_assoc, start_source]
      rfl
  | spec flags =>
    simp only [Reading.read]
    split_ifs <;> simp_all [Piece.source, Reading.pending]
  | failed => exact .inl rfl

theorem exec_failed (w : Bytes) : reader.exec .failed w = .failed :=
  reader.exec_inv (P := (· = .failed)) (fun r b hr => by rw [hr]; rfl) rfl w

/-- The pieces are the format. -/
theorem trace_source {r : Reading} {w : Bytes} (h : reader.exec r w ≠ .failed) :
    (reader.trace r w).flatMap Piece.source ++ (reader.exec r w).pending = r.pending ++ w := by
  induction w generalizing r with
  | nil => simp
  | cons b w ih =>
    have hnext : (r.read b).1 ≠ .failed := fun hfail => h (by
      show reader.exec (r.read b).1 w = _
      rw [hfail, exec_failed])
    have hread := (read_source r b).resolve_left hnext
    rw [Machine.trace_cons, List.flatMap_append, List.append_assoc, Machine.exec_cons, ih h,
      ← List.append_assoc]
    show (r.read b).2.flatMap Piece.source ++ (r.read b).1.pending ++ w = _
    rw [hread, List.append_assoc, List.singleton_append]

theorem pieces_source {format : Bytes} {ps : List Piece} (h : pieces format = some ps) :
    ps.flatMap Piece.source = format := by
  obtain ⟨rest, hrest, rfl⟩ := Option.map_eq_some_iff.mp h
  have hfail : reader.exec .plain format ≠ .failed := by
    intro hfail
    rw [hfail] at hrest
    cases hrest
  have hsource : (reader.trace .plain format).flatMap Piece.source ++
      (reader.exec .plain format).pending = format := trace_source hfail
  have hend : rest.flatMap Piece.source = (reader.exec .plain format).pending := by
    cases hexec : reader.exec .plain format <;> rw [hexec] at hrest <;>
      simp_all [Reading.finish, Reading.pending]
    subst hrest
    simp [Piece.source]
  rw [List.flatMap_append, hend, hsource]

theorem start_valid (b : UInt8) :
    (Reading.start b).1.Valid ∧ ∀ p ∈ (Reading.start b).2, p.Valid := by
  unfold Reading.start
  split_ifs <;> simp_all [Reading.Valid, Piece.Valid]

theorem read_valid {r : Reading} (h : r.Valid) (b : UInt8) :
    (r.read b).1.Valid ∧ ∀ p ∈ (r.read b).2, p.Valid := by
  cases r with
  | plain => exact start_valid b
  | escape =>
    simp only [Reading.read]
    split_ifs <;> simp_all [Reading.Valid, Piece.Valid]
  | octal ds =>
    simp only [Reading.read]
    split_ifs with hb
    · refine ⟨⟨?_, ?_, ?_⟩, List.forall_mem_nil _⟩
      · exact List.forall_mem_append.mpr ⟨h.1, by simpa using hb.1⟩
      · simp
      · simpa [Nat.lt_succ_iff] using hb.2
    · exact ⟨(start_valid b).1, List.forall_mem_cons.mpr ⟨h, (start_valid b).2⟩⟩
  | spec flags =>
    simp only [Reading.read]
    split_ifs with hb hflag hconv
    · exact ⟨trivial, by simp [Piece.Valid]⟩
    · exact ⟨List.forall_mem_append.mpr ⟨h, by simpa using hflag⟩, List.forall_mem_nil _⟩
    · exact ⟨trivial, by simpa [Piece.Valid] using ⟨h, hconv⟩⟩
    · exact ⟨trivial, List.forall_mem_nil _⟩
  | failed => exact ⟨trivial, List.forall_mem_nil _⟩

theorem pieces_valid {format : Bytes} {ps : List Piece} (h : pieces format = some ps) :
    ∀ p ∈ ps, p.Valid := by
  obtain ⟨rest, hrest, rfl⟩ := Option.map_eq_some_iff.mp h
  have hstep : ∀ r b, Reading.Valid r → Reading.Valid (reader.step r b) :=
    fun r b hr => (read_valid hr b).1
  have hlast : (reader.exec .plain format).Valid := reader.exec_inv hstep (by trivial) format
  refine List.forall_mem_append.mpr
    ⟨reader.trace_inv hstep (fun r b hr => (read_valid hr b).2) (by trivial) format, ?_⟩
  cases hexec : reader.exec .plain format <;> rw [hexec] at hrest hlast <;> cases hrest
  · exact List.forall_mem_nil _
  · exact List.forall_mem_singleton.mpr hlast

/-! ## What a format costs -/

/-- Newline, `%` and `\`. -/
def isCostly (b : UInt8) : Bool := b ∈ [10, 37, 92]

/-- How many there are of them. -/
def cost (s : Bytes) : Nat := s.countP isCostly

/-- A byte that no escape of a costly byte is written with, and that is not costly itself. -/
def isBystander (b : UInt8) : Bool := !isCostly b && b ≠ 110 && !isOctal b

/-- The output is no longer than its source, and shorter by one for each newline the source is
not, and by two for each `%` and `\`. -/
def Tight (source output : Bytes) : Prop :=
  output.length + output.count 10 + 2 * (output.count 37 + output.count 92) ≤
      source.length + source.count 10 ∧
    ∀ b, isBystander b = true → output.count b = source.count b

theorem cost_cons_of_not {b : UInt8} (h : isCostly b = false) (s : Bytes) :
    cost (b :: s) = cost s :=
  List.countP_cons_of_neg (by simp [h])

theorem cost_eq_zero {s : Bytes} (h : ∀ b ∈ s, isCostly b = false) : cost s = 0 :=
  List.countP_eq_zero.mpr fun b hb => by simp [h b hb]

theorem octal_not_costly {d : UInt8} (h : isOctal d = true) : isCostly d = false :=
  forall_byte (P := fun d => isOctal d = true → isCostly d = false) (by decide +kernel) d h

/-- No costly byte has an escape of one digit. -/
theorem octal_single {d : UInt8} (h : isOctal d = true) : isCostly (octalValue [d]) = false :=
  forall_byte (P := fun d => isOctal d = true → isCostly (octalValue [d]) = false)
    (by decide +kernel) d h

/-- Only `\n` prints as many costly bytes as it is made of. -/
theorem escape_cost {letter v : UInt8} (h : escapeValue letter = some v) :
    letter = 110 ∧ v = 10 ∨ cost [v] < cost [92, letter] :=
  forall_byte (P := fun letter => ∀ v ∈ escapeValue letter,
    letter = 110 ∧ v = 10 ∨ cost [v] < cost [92, letter]) (by decide +kernel) letter v h

/-- A costly byte takes two octal digits, so its escape is long enough for it. -/
theorem octal_tight {ds : Bytes} (hds : ∀ d ∈ ds, isOctal d = true) (hpos : 1 ≤ ds.length)
    (hv : isCostly (octalValue ds) = true) : Tight (92 :: ds) [octalValue ds] := by
  have hlong : 2 ≤ ds.length := by
    by_contra hshort
    obtain ⟨d, rfl⟩ := List.length_eq_one_iff.mp (show ds.length = 1 by omega)
    rw [octal_single (hds d List.mem_cons_self)] at hv
    cases hv
  refine ⟨?_, fun b hb => ?_⟩
  · have hone : octalValue ds = 10 ∨ octalValue ds = 37 ∨ octalValue ds = 92 := by
      simpa [isCostly] using hv
    rcases hone with h | h | h <;> rw [h, List.length_cons] <;> simp <;> omega
  · have hmem : b ∉ 92 :: ds := by
      rw [List.mem_cons, not_or]
      refine ⟨?_, fun hd => ?_⟩
      · rintro rfl
        exact absurd hb (by decide)
      · simp [isBystander, hds b hd] at hb
    have hne : b ≠ octalValue ds := by
      rintro rfl
      simp [isBystander, hv] at hb
    rw [List.count_eq_zero.mpr hmem, List.count_eq_zero.mpr (by simpa using hne)]

theorem piece_cost (conv : Conversions) {p : Piece} (h : p.Valid) :
    cost (p.output conv) < cost p.source ∨
      cost (p.output conv) = cost p.source ∧ Tight p.source (p.output conv) := by
  cases p with
  | plain b =>
    refine .inr ⟨rfl, ?_, fun _ _ => rfl⟩
    obtain ⟨h37, h92⟩ := h
    simp [Piece.output, Piece.source, h37, h92]
  | percent =>
    refine .inl ?_
    show cost [37] < cost [37, 37]
    decide
  | escape letter =>
    obtain ⟨v, hv⟩ := Option.isSome_iff_exists.mp h
    rw [Piece.output, hv, Option.getD_some, Piece.source]
    rcases escape_cost hv with ⟨rfl, rfl⟩ | hlt
    · refine .inr ⟨by decide, by decide, fun b hb => ?_⟩
      simp [isBystander, isCostly] at hb
      simp [eq_comm, hb]
    · exact .inl hlt
  | octal ds =>
    obtain ⟨hds, hpos, -⟩ := h
    have hcost : cost (92 :: ds) = 1 := by
      rw [cost, List.countP_cons_of_pos (by decide)]
      exact congrArg (· + 1) (cost_eq_zero fun d hd => octal_not_costly (hds d hd))
    rw [Piece.output, Piece.source, hcost]
    cases hv : isCostly (octalValue ds) with
    | false => exact .inl (by rw [cost_cons_of_not hv]; decide)
    | true => exact .inr ⟨by simp [cost, hv], octal_tight hds hpos hv⟩
  | conversion flags c =>
    refine .inl ?_
    have hout : cost (Piece.output conv (.conversion flags c)) = 0 := cost_eq_zero fun b hb => by
      obtain ⟨h37, h92, h10⟩ := conv.quiet flags c b hb
      simp [isCostly, h37, h92, h10]
    rw [hout, cost, Piece.source, List.countP_cons_of_pos (by decide)]
    exact Nat.succ_pos _

theorem cost_flatMap {α : Type*} (f : α → Bytes) (l : List α) :
    cost (l.flatMap f) = (l.map fun a => cost (f a)).sum := List.countP_flatMap

theorem Tight.append {a b c d : Bytes} (h : Tight a b) (h' : Tight c d) :
    Tight (a ++ c) (b ++ d) := by
  obtain ⟨hlen, hcount⟩ := h
  obtain ⟨hlen', hcount'⟩ := h'
  refine ⟨?_, fun b hb => by rw [List.count_append, List.count_append, hcount b hb, hcount' b hb]⟩
  simp only [List.length_append, List.count_append]
  omega

theorem tight_flatMap {α : Type*} {f g : α → Bytes} {l : List α} (h : ∀ a ∈ l, Tight (f a) (g a)) :
    Tight (l.flatMap f) (l.flatMap g) := by
  induction l with
  | nil => exact ⟨Nat.le_refl 0, fun _ _ => rfl⟩
  | cons a l ih =>
    rw [List.forall_mem_cons] at h
    exact h.1.append (ih h.2)

variable {conv : Conversions} {format out : Bytes}

/-- What prints as many as it is made of is plain, or escapes of these three. -/
theorem printf_tight (h : printf conv format = some out) (hcost : cost format ≤ cost out) :
    Tight format out := by
  obtain ⟨ps, hps, rfl⟩ := Option.map_eq_some_iff.mp h
  have hpiece := fun p hp => piece_cost conv (pieces_valid hps p hp)
  rw [← pieces_source hps] at hcost ⊢
  refine tight_flatMap fun p hp => ((hpiece p hp).resolve_left fun hlt => ?_).2
  rw [cost_flatMap, cost_flatMap] at hcost
  exact absurd hcost (Nat.not_le.mpr (List.sum_lt_sum _ _
    (fun p hp => (hpiece p hp).elim Nat.le_of_lt fun h => h.1.le) ⟨p, hp, hlt⟩))

/-! ## Plain text -/

/-- Plain bytes print themselves. -/
theorem runs_plain {v : Bytes} (h : ∀ b ∈ v, b ≠ 37 ∧ b ≠ 92) :
    reader.Runs .plain v .plain (v.map .plain) := by
  induction v with
  | nil => exact .refl _
  | cons b v ih =>
    rw [List.forall_mem_cons] at h
    have hread : Reading.read .plain b = (.plain, [.plain b]) := by
      rw [Reading.read, Reading.start, if_neg h.1.2, if_neg h.1.1]
    have hb : reader.Runs .plain [b] .plain [.plain b] :=
      .single (congrArg Prod.fst hread) (congrArg Prod.snd hread)
    exact hb.trans (ih h.2)

theorem runs_newline : reader.Runs .plain [92, 110] .plain [.escape 110] := ⟨rfl, rfl⟩

/-- A check of a literal. -/
theorem runs_literal (v : Bytes) (h : (v.all fun b => b != 37 && b != 92) = true) :
    reader.Runs .plain v .plain (v.map .plain) := runs_plain (by simpa using h)

theorem output_plain (conv : Conversions) (v : Bytes) :
    (v.map Piece.plain).flatMap (Piece.output conv) = v := by
  rw [List.flatMap_map]
  exact List.flatMap_singleton' v

theorem printf_of_runs {format : Bytes} {ps : List Piece}
    (h : reader.Runs .plain format .plain ps) (conv : Conversions) :
    printf conv format = some (ps.flatMap (Piece.output conv)) := by
  rw [printf, pieces, h.1, h.2, Reading.finish, Option.map_some, Option.map_some, List.append_nil]

end NetMon.Lib.Printf
