import NetMon.Core.ConfigLoad

/-!
# Comments

The shipped configuration file begins a comment with `#` or `;`. `config_load` only knows
the `#`, and it knows it of what one `fgets` returns: the later pieces of a line longer than
the buffer are read as lines of their own. A comment line is `Inert` when none of its pieces
holds an assignment; `comments_iff` says that these are the lines that have no effect.
-/

namespace NetMon.Core

open NetMon.Lib

/-- `';'` -/
def semicolon : UInt8 := 59

/-- A line whose first character that is not a blank is `c`. -/
def FirstIs (c : UInt8) (l : Bytes) : Prop := (l.dropWhile isspace).head? = some c

instance (c : UInt8) (l : Bytes) : Decidable (FirstIs c l) := inferInstanceAs (Decidable (_ = _))

/-- A comment line, as the shipped file and the manuals define it. -/
def IsComment (l : Bytes) : Prop := FirstIs hash l ∨ FirstIs semicolon l

instance (l : Bytes) : Decidable (IsComment l) := inferInstanceAs (Decidable (_ ∨ _))

/-- A file without its comment lines. -/
def stripComments (text : Bytes) : Bytes :=
  [newline].intercalate ((fileLines text).filter fun l => ¬ IsComment l)

/-- A line in which `config_load` finds no assignment. -/
def Inert (l : Bytes) : Prop := assignments l = []

instance (l : Bytes) : Decidable (Inert l) := inferInstanceAs (Decidable (_ = _))

/-! ## Short comment lines -/

/-- The first character that is not a blank heads the trimmed line. -/
theorem trim_head_of_first {c : UInt8} {l : Bytes} (h : FirstIs c l) (hc : isspace c = false)
    (h0 : c ≠ 0) : (CStr.ofBytes l).trim.bytes.head? = some c := by
  obtain ⟨rest, hrest⟩ : ∃ rest, l.dropWhile isspace = c :: rest := by
    cases hd : l.dropWhile isspace with
    | nil => rw [FirstIs, hd] at h; cases h
    | cons b rest => rw [FirstIs, hd] at h; cases h; exact ⟨rest, rfl⟩
  have hblank : ∀ b ∈ l.takeWhile isspace, (b != 0) = true := fun b hb => by
    have hb := List.mem_takeWhile_imp hb
    rw [bne_iff_ne]
    rintro rfl
    exact absurd hb (by decide)
  have hbytes : (CStr.ofBytes l).bytes.dropWhile isspace = c :: rest.takeWhile (· != 0) := by
    show (l.takeWhile (· != 0)).dropWhile isspace = _
    rw [← List.takeWhile_append_dropWhile (p := isspace) (l := l), hrest,
      List.takeWhile_append_of_pos hblank, List.takeWhile_cons_of_pos (by simpa using h0),
      List.dropWhile_append_of_pos fun b hb => List.mem_takeWhile_imp hb,
      List.dropWhile_cons_of_neg (by simp [hc])]
  show (((CStr.ofBytes l).bytes.dropWhile isspace).rdropWhile isspace).head? = _
  rw [hbytes]
  obtain ⟨tail, htail⟩ := List.rdropWhile_prefix isspace (c :: rest.takeWhile (· != 0))
  have hne : (c :: rest.takeWhile (· != 0)).rdropWhile isspace ≠ [] := fun hnil => by
    have := List.rdropWhile_eq_nil_iff.mp hnil c List.mem_cons_self
    simp [hc] at this
  rw [← List.head?_append_of_ne_nil _ hne, htail]
  rfl

/-- A short comment with `#` is skipped. -/
theorem inert_of_hash {l : Bytes} (hnl : newline ∉ l) (hlen : l.length ≤ lineMax)
    (h : FirstIs hash l) : Inert l := by
  have hhead := trim_head_of_first h (by decide) (by decide)
  rw [Inert, assignments_short hnl hlen, parseLine]
  simp only [hhead, or_true, if_true, Option.toList_none]

/-- A short comment with `;` is skipped if there is no `=` in it. -/
theorem inert_semicolon_iff {l : Bytes} (hnl : newline ∉ l) (hlen : l.length ≤ lineMax)
    (h : FirstIs semicolon l) : Inert l ↔ equals ∉ (CStr.ofBytes l).bytes := by
  have hhead := trim_head_of_first h (by decide) (by decide)
  rw [Inert, assignments_short hnl hlen, Option.toList_eq_nil_iff, ← CStr.mem_trim_iff (by decide)]
  have hne : (CStr.ofBytes l).trim.bytes ≠ [] := fun hnil => by simp [hnil] at hhead
  have hnothash : (CStr.ofBytes l).trim.bytes.head? ≠ some hash := by rw [hhead]; decide
  unfold parseLine
  simp only [hne, hnothash, or_self, if_false]
  cases hsplit : (CStr.ofBytes l).trim.split equals with
  | none =>
    apply iff_of_true rfl
    intro hmem
    simp only [CStr.split, if_pos hmem] at hsplit
    cases hsplit
  | some ab =>
    obtain ⟨a, b⟩ := ab
    obtain ⟨hab, ha⟩ := CStr.split_eq_some.mp hsplit
    refine iff_of_false ?_ (by rw [hab]; simp)
    -- the key begins with the semicolon
    have hmem : semicolon ∈ a.trim.bytes := by
      rw [CStr.mem_trim_iff (by decide)]
      rw [hab] at hhead
      cases hbytes : a.bytes with
      | nil =>
        rw [hbytes] at hhead
        exact absurd (Option.some.inj hhead) (by decide)
      | cons c cs => rw [hbytes] at hhead; cases hhead; exact List.mem_cons_self
    simp only [if_neg (List.ne_nil_of_mem hmem)]
    intro h
    cases h

/-! ## Deleting comments -/

theorem assignments_stripComments {text : Bytes}
    (h : ∀ l ∈ fileLines text, IsComment l → Inert l) :
    assignments (stripComments text) = assignments text := by
  rw [stripComments, assignments_intercalate, assignments_fileLines text]
  generalize fileLines text = ls at h ⊢
  induction ls with
  | nil => rfl
  | cons l ls ih =>
    rw [List.forall_mem_cons] at h
    rw [List.flatMap_cons, ← ih h.2, List.filter_cons]
    by_cases hl : IsComment l
    · have hinert : assignments l = [] := h.1 hl
      simp [hl, hinert]
    · simp [hl]

theorem count_le_untilFull (cfg : Config) (sets : List (CStr × CStr)) :
    cfg.count ≤ (untilFull cfg sets).1.count := by
  induction sets generalizing cfg with
  | nil => exact Nat.le_refl _
  | cons kv rest ih =>
    rw [untilFull]
    split
    · exact Nat.le_refl _
    · exact (count_configSetStr cfg kv.1 kv.2).1.trans (ih _)

/-- Any assignment leaves something in the table. -/
theorem configLoad_ne_empty {text : Bytes} (h : assignments text ≠ []) :
    (configLoad (some text)).2 ≠ Config.empty := by
  obtain ⟨kv, rest, hsets⟩ := List.exists_cons_of_ne_nil h
  have hone : (configSetStr Config.empty kv.1 kv.2).count = 1 :=
    congrArg List.length (configSetStr_new kv.2 (by simp [Config.empty]) (by decide))
  have hcount : 1 ≤ (configLoad (some text)).2.count := by
    rw [configLoad_eq, hsets, untilFull, if_neg (by decide), ← hone]
    exact count_le_untilFull _ rest
  intro hempty
  rw [hempty] at hcount
  exact absurd hcount (by decide)

/-- **Comment lines have no effect**, whatever file they are in, exactly when they are inert. -/
theorem comments_iff (C : Bytes → Prop) :
    (∀ text, (∀ l ∈ fileLines text, IsComment l → C l) →
      (configLoad (some text)).2 = (configLoad (some (stripComments text))).2) ↔
    ∀ l, newline ∉ l → IsComment l → C l → Inert l := by
  constructor
  · intro h l hnl hcomment hC
    -- the line as a file of its own
    have hlines : fileLines l = [l] := List.splitOn_eq_singleton hnl
    by_contra hnot
    apply configLoad_ne_empty hnot
    rw [h l (by rw [hlines]; intro l' hl' _; rw [List.mem_singleton.mp hl']; exact hC),
      stripComments, hlines, List.filter_cons_of_neg (by simpa using hcomment)]
    rfl
  · intro h text hC
    rw [configLoad_eq, configLoad_eq, assignments_stripComments fun l hl hcomment =>
      h l (newline_notMem_fileLines hl) hcomment (hC l hl hcomment)]

/-- A setting that was commented out with `;`. -/
theorem comment_loaded : ¬ ∀ text,
    (configLoad (some text)).2 = (configLoad (some (stripComments text))).2 := by
  intro h
  have hcount := congrArg Config.count (h (CStr.lit ";a=1\n").bytes)
  revert hcount
  decide +kernel

end NetMon.Core
