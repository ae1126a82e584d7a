import NetMon.Lib.CNum

/-!
# Columns of numbers

`LeadingNumbers n s` is the grammar of what `n` integer conversions of `sscanf` read: blanks,
a sign and digits, `n` times over, each run of digits as long as it can be
(`scanUnsigneds_isSome_iff`). A row of `Column`s, unsigned numbers with blanks between them, is
read as their values (`scanUnsigneds_columns`).
-/

namespace NetMon.Lib

/-- The text begins with `n` numbers. -/
inductive LeadingNumbers : Nat → Bytes → Prop
  | zero (s : Bytes) : LeadingNumbers 0 s
  | succ {n : Nat} {gap sign ds rest : Bytes} (hgap : ∀ b ∈ gap, isspace b = true)
      (hsign : IsSign sign) (hds : ∀ b ∈ ds, isdigit b = true) (hne : ds ≠ [])
      (hend : ∀ b ∈ rest.head?, isdigit b = false) (hrest : LeadingNumbers n rest) :
      LeadingNumbers (n + 1) (gap ++ (sign ++ (ds ++ rest)))

/-- A number that is read stands at the front. -/
theorem scanNumber_eq_some {s rest : Bytes} {neg : Bool} {v : Nat}
    (h : scanNumber s = some (neg, v, rest)) : ∃ gap sign ds, s = gap ++ (sign ++ (ds ++ rest)) ∧
      (∀ b ∈ gap, isspace b = true) ∧ IsSign sign ∧ (∀ b ∈ ds, isdigit b = true) ∧ ds ≠ [] ∧
      ∀ b ∈ rest.head?, isdigit b = false := by
  have hfront : ∀ (sign t : Bytes) (neg' : Bool), IsSign sign → s.dropWhile isspace = sign ++ t →
      (if t.takeWhile isdigit = [] then none
        else some (neg', digitsVal (t.takeWhile isdigit), t.dropWhile isdigit)) =
          some (neg, v, rest) →
      ∃ gap sign ds, s = gap ++ (sign ++ (ds ++ rest)) ∧ (∀ b ∈ gap, isspace b = true) ∧
        IsSign sign ∧ (∀ b ∈ ds, isdigit b = true) ∧ ds ≠ [] ∧
        ∀ b ∈ rest.head?, isdigit b = false := by
    intro sign t neg' hsign hs h
    split at h
    · cases h
    · rename_i hne
      cases h
      refine ⟨s.takeWhile isspace, sign, t.takeWhile isdigit, ?_,
        fun b => List.mem_takeWhile_imp, hsign, fun b => List.mem_takeWhile_imp, hne,
        fun b hb => ?_⟩
      · rw [List.takeWhile_append_dropWhile, ← hs, List.takeWhile_append_dropWhile]
      · have hnot := List.head?_dropWhile_not isdigit t
        rw [hb] at hnot
        simpa using hnot
  unfold scanNumber at h
  dsimp only at h
  split at h
  · rename_i t hs
    exact hfront [45] t true (.inr (.inr rfl)) hs h
  · rename_i t hs
    exact hfront [43] t false (.inr (.inl rfl)) hs h
  · exact hfront [] _ false (.inl rfl) rfl h

theorem scanUnsigneds_succ {w n : Nat} {s : Bytes} : (scanUnsigneds w (n + 1) s).isSome ↔
    ∃ neg v rest, scanNumber s = some (neg, v, rest) ∧ (scanUnsigneds w n rest).isSome := by
  rw [scanUnsigneds, scanUnsigned]
  cases scanNumber s with
  | none => simp
  | some r =>
    obtain ⟨neg, v, rest⟩ := r
    rw [Option.map_some]
    have hrest : (if v < 2 ^ w then (if neg = true then (2 ^ w - v) % 2 ^ w else v, rest)
        else (2 ^ w - 1, rest)).2 = rest := by split <;> rfl
    cases h : scanUnsigneds w n rest <;> simp [hrest, h]

/-- The conversions of `sscanf` succeed on the texts of the grammar. -/
theorem scanUnsigneds_isSome_iff {w n : Nat} {s : Bytes} :
    (scanUnsigneds w n s).isSome ↔ LeadingNumbers n s := by
  induction n generalizing s with
  | zero => exact iff_of_true rfl (.zero s)
  | succ n ih =>
    rw [scanUnsigneds_succ]
    constructor
    · rintro ⟨neg, v, rest, hscan, hrest⟩
      obtain ⟨gap, sign, ds, rfl, hgap, hsign, hds, hne, hend⟩ := scanNumber_eq_some hscan
      exact .succ hgap hsign hds hne hend (ih.mp hrest)
    · rintro (_ | ⟨hgap, hsign, hds, hne, hend, hrest⟩)
      exact ⟨_, _, _, scanNumber_parts hgap hsign hds hne hend, ih.mpr hrest⟩

/-- Numbers at the front of a text are at the front of a longer one. -/
theorem LeadingNumbers.append {n : Nat} {s t : Bytes} (h : LeadingNumbers n s)
    (ht : ∀ b ∈ t.head?, isdigit b = false) : LeadingNumbers n (s ++ t) := by
  induction h with
  | zero => exact .zero _
  | @succ n gap sign ds rest hgap hsign hds hne hend _ ih =>
    simp only [List.append_assoc]
    refine .succ hgap hsign hds hne (fun b hb => ?_) ih
    cases rest with
    | nil => exact ht b hb
    | cons r rest => exact hend b hb

/-- A blank behind the text adds no number. -/
theorem LeadingNumbers.of_concat {n : Nat} {s : Bytes} {b : UInt8} (hb : isdigit b = false)
    (h : LeadingNumbers n (s ++ [b])) : LeadingNumbers n s := by
  generalize ht : s ++ [b] = t at h
  induction h generalizing s with
  | zero => exact .zero s
  | @succ n gap sign ds rest hgap hsign hds hne hend _ ih =>
    rcases List.eq_nil_or_concat rest with rfl | ⟨rest, c, rfl⟩
    · obtain ⟨ds, d, rfl⟩ := (List.eq_nil_or_concat ds).resolve_left hne
      rw [List.concat_eq_append, List.append_nil, ← List.append_assoc, ← List.append_assoc] at ht
      have hd := hds d (by simp)
      rw [← List.singleton_inj.mp (List.append_inj_right' ht rfl), hb] at hd
      cases hd
    · rw [List.concat_eq_append, ← List.append_assoc, ← List.append_assoc,
        ← List.append_assoc] at ht
      obtain ⟨rfl, hc⟩ := List.append_inj' ht rfl
      rw [List.append_assoc, List.append_assoc]
      refine .succ hgap hsign hds hne (fun d hd => hend d ?_)
        (ih (by rw [hc, List.concat_eq_append]))
      cases rest with
      | nil => cases hd
      | cons r rest => exact hd

/-! ## Rows -/

/-- An unsigned number below `2 ^ w` and the blanks in front of it. -/
structure Column (w : Nat) where
  gap : Bytes
  digits : Bytes
  gap_blank : ∀ b ∈ gap, isspace b = true
  digits_digit : ∀ b ∈ digits, isdigit b = true
  digits_ne : digits ≠ []
  small : digitsVal digits < 2 ^ w

namespace Column

variable {w : Nat}

def text (c : Column w) : Bytes := c.gap ++ c.digits

def val (c : Column w) : Nat := digitsVal c.digits

end Column

/-- Numbers with blanks between them and behind them are read one by one. -/
theorem scanUnsigneds_columns {w : Nat} {cs : List (Column w)} {trail : Bytes}
    (hcs : ∀ c ∈ cs.tail, c.gap ≠ []) (htrail : ∀ b ∈ trail, isspace b = true) :
    scanUnsigneds w cs.length (cs.flatMap Column.text ++ trail) = some (cs.map Column.val) := by
  induction cs with
  | nil => rfl
  | cons c cs ih =>
    have hrest := ih fun c' hc' => hcs c' (List.mem_of_mem_tail hc')
    have hend : ∀ b ∈ (cs.flatMap Column.text ++ trail).head?, isdigit b = false := by
      intro b hb
      have hblank : isspace b = true := by
        cases cs with
        | nil => exact htrail b (List.mem_of_mem_head? hb)
        | cons c' cs =>
          obtain ⟨g, gap, hgap⟩ := List.exists_cons_of_ne_nil (hcs c' List.mem_cons_self)
          apply c'.gap_blank b
          rw [List.flatMap_cons, Column.text, hgap] at hb
          rw [hgap, ← Option.mem_some_iff.mp hb]
          exact List.mem_cons_self
      by_contra hd
      rw [Bool.not_eq_false] at hd
      rw [isspace_digit hd] at hblank
      cases hblank
    have hscan := scanNumber_parts c.gap_blank (.inl rfl) c.digits_digit c.digits_ne hend
    rw [List.flatMap_cons, Column.text, List.append_assoc, List.append_assoc, List.length_cons,
      scanUnsigneds, scanUnsigned, ← List.nil_append (c.digits ++ _), hscan, Option.map_some]
    simp only [if_pos c.small, Option.bind_eq_bind, Option.bind_some, hrest]
    rfl

end NetMon.Lib
