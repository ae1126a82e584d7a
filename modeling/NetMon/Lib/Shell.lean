import Mathlib.Data.List.Perm.Basic
import NetMon.Lib.CNum
import NetMon.Lib.Machine

/-!
# Simple commands of the shell

`lexer` is the shell's quoting as a machine: every byte becomes an `Item` that says what the shell
takes it for, and `trace_bytes` says that the items are the input, byte for byte. `parse` reads a
command of words and output redirections from them. It refuses whatever the shell would do more
with: an expansion, a second command, a comment, a quote that stays open.

* `parse_perm`: a command's input is, up to order, its words and file names, the digits in front
  of a redirection, and the `signs`, the bytes that are not text.
* `calm_of_parse`: without a `"` or a `\` among the signs the shell only ever reads unquoted text
  and text between single quotes. So no `'` is in a word (`quote_notMem`).
-/

namespace NetMon.Lib.Shell

/-- How the next byte is quoted. -/
inductive Quoting where
  | none
  | single
  | double
  | escaped
  | doubleEscaped
  deriving DecidableEq

/-- What the shell takes a byte for. -/
inductive Role where
  /-- It stands for itself. -/
  | text (quoted : Bool)
  /-- It quotes, and is removed. -/
  | mark
  /-- It continues the line, and is removed. -/
  | gone
  | blank
  | redirect
  | special
  deriving DecidableEq

structure Item where
  role : Role
  byte : UInt8
  deriving DecidableEq

def Item.isText (i : Item) : Bool :=
  match i.role with
  | .text _ => true
  | _ => false

/-- `"`, `'` and `\`. -/
def isQuote (b : UInt8) : Bool := b ∈ [34, 39, 92]

/-- Newline and ``$&()*;<?[`|``. -/
def isSpecial (b : UInt8) : Bool := b ∈ [10, 36, 38, 40, 41, 42, 59, 60, 63, 91, 96, 124]

/-- What a byte is outside quotes. -/
def unquoted (b : UInt8) : Item where
  role := if b = 32 ∨ b = 9 then .blank else if b = 62 then .redirect
    else if isSpecial b then .special else .text false
  byte := b

def quoted (b : UInt8) : Item := ⟨.text true, b⟩

/-- A byte the shell takes for itself outside quotes. -/
def isPlain (b : UInt8) : Bool := !isQuote b && (unquoted b).isText

theorem isQuote_of_isPlain {v : Bytes} (h : ∀ b ∈ v, isPlain b = true) :
    v.any isQuote = false := by
  apply List.any_eq_false.mpr
  intro b hb hquote
  have hplain := h b hb
  rw [isPlain, hquote] at hplain
  cases hplain

/-! ## Quoting -/

def Quoting.next : Quoting → UInt8 → Quoting
  | .none, b =>
    if b = 39 then .single else if b = 34 then .double else if b = 92 then .escaped else .none
  | .single, b => if b = 39 then .none else .single
  | .double, b => if b = 34 then .none else if b = 92 then .doubleEscaped else .double
  | .escaped, _ => .none
  | .doubleEscaped, _ => .double

/-- A backslash is not an item before the byte behind it is known. -/
def Quoting.items : Quoting → UInt8 → List Item
  | .none, b => if b = 39 ∨ b = 34 then [⟨.mark, b⟩] else if b = 92 then [] else [unquoted b]
  | .single, b => if b = 39 then [⟨.mark, b⟩] else [quoted b]
  | .double, b =>
    if b = 34 then [⟨.mark, b⟩] else if b = 92 then []
    else if b = 36 ∨ b = 96 then [⟨.special, b⟩] else [quoted b]
  | .escaped, b => if b = 10 then [⟨.gone, 92⟩, ⟨.gone, b⟩] else [⟨.mark, 92⟩, quoted b]
  | .doubleEscaped, b =>
    if b = 10 then [⟨.gone, 92⟩, ⟨.gone, b⟩]
    else if b = 36 ∨ b = 96 ∨ b = 34 ∨ b = 92 then [⟨.mark, 92⟩, quoted b]
    else [quoted 92, quoted b]

def lexer : Machine Quoting UInt8 Item where
  step := Quoting.next
  out := Quoting.items

def items (w : Bytes) : List Item := lexer.trace .none w

/-- The backslash that is read but not an item yet. -/
def Quoting.pending : Quoting → Bytes
  | .escaped => [92]
  | .doubleEscaped => [92]
  | _ => []

theorem items_bytes (q : Quoting) (b : UInt8) :
    (q.items b).map Item.byte ++ (q.next b).pending = q.pending ++ [b] := by
  cases q <;> simp only [Quoting.items, Quoting.next] <;> split_ifs <;>
    simp_all [Quoting.pending, unquoted, quoted]

/-- The items are the bytes that were read. -/
theorem trace_bytes (q : Quoting) (w : Bytes) :
    (lexer.trace q w).map Item.byte ++ (lexer.exec q w).pending = q.pending ++ w := by
  induction w generalizing q with
  | nil => simp
  | cons b w ih =>
    rw [Machine.trace_cons, Machine.exec_cons, List.map_append, List.append_assoc, ih,
      ← List.append_assoc]
    show (q.items b).map Item.byte ++ (q.next b).pending ++ w = _
    rw [items_bytes, List.append_assoc, List.singleton_append]

/-! ## Tokens -/

/-- The text of the items, without what only quotes it. -/
def textOf (is : List Item) : Bytes := (is.filter Item.isText).map Item.byte

theorem textOf_append (a b : List Item) : textOf (a ++ b) = textOf a ++ textOf b := by
  rw [textOf, List.filter_append, List.map_append]
  rfl

inductive Token where
  | word (text : Bytes)
  /-- `>` and the number in front of it. -/
  | redirect (digits : Bytes)
  deriving DecidableEq

def Token.text : Token → Bytes
  | .word text => text
  | .redirect digits => digits

/-- The items in front of a `>` are the number it redirects. -/
def isNumber (group : List Item) : Bool := group.all fun i => i.role = .text false ∧ isdigit i.byte

/-- The end of a word; one with an unquoted `#` or `~` in front is not only a word. -/
def endWord : List Item → Option (List Token)
  | [] => some []
  | i :: is => if i = unquoted 35 ∨ i = unquoted 126 then none else some [.word (textOf (i :: is))]

/-- The tokens behind the word at hand, whose items are `group`. -/
def tokenize (group : List Item) : List Item → Option (List Token)
  | [] => endWord group
  | i :: is =>
    match i.role with
    | .text _ => tokenize (group ++ [i]) is
    | .mark => tokenize (group ++ [i]) is
    | .gone => tokenize group is
    | .blank => (endWord group).bind fun ts => (tokenize [] is).map (ts ++ ·)
    | .redirect =>
      if isNumber group then (tokenize [] is).map (.redirect (textOf group) :: ·)
      else (endWord group).bind fun ts => (tokenize [] is).map (ts ++ .redirect [] :: ·)
    | .special => none

/-- A command's words, and its redirections: each a file descriptor and a file name. -/
structure Command where
  words : List Bytes
  redirects : List (Nat × Bytes)
  deriving DecidableEq

/-- The descriptor a `>` redirects. -/
def descriptor (digits : Bytes) : Nat := if digits = [] then 1 else digitsVal digits

def build : List Token → Option Command
  | [] => some ⟨[], []⟩
  | .word text :: ts => (build ts).map fun c => { c with words := text :: c.words }
  | .redirect digits :: .word file :: ts =>
    (build ts).map fun c => { c with redirects := (descriptor digits, file) :: c.redirects }
  | .redirect _ :: _ => none

/-- The simple command of words and output redirections that the input is, if it is one. -/
def parse (w : Bytes) : Option Command :=
  if lexer.exec .none w = .none then (tokenize [] (items w)).bind build else none

/-! ## What a command is made of -/

/-- The words and file names of a command. -/
def Command.bytes (c : Command) : Bytes := c.words.flatten ++ c.redirects.flatMap Prod.snd

/-- What is not text. -/
def signsOf (is : List Item) : Bytes := (is.filter (!·.isText)).map Item.byte

def signs (w : Bytes) : Bytes := signsOf (items w)

theorem signsOf_append (a b : List Item) : signsOf (a ++ b) = signsOf a ++ signsOf b := by
  rw [signsOf, List.filter_append, List.map_append]
  rfl

theorem text_perm_signs (is : List Item) : (textOf is ++ signsOf is).Perm (is.map Item.byte) := by
  rw [textOf, signsOf, ← List.map_append]
  exact (List.filter_append_perm Item.isText is).map Item.byte

/-- The tokens are this text, and the numbers among them are digits. -/
structure Spells (ts : List Token) (text : Bytes) : Prop where
  text_eq : ts.flatMap Token.text = text
  digits : ∀ ds, .redirect ds ∈ ts → ∀ d ∈ ds, isdigit d = true

theorem Spells.nil : Spells [] [] := ⟨rfl, fun _ h => absurd h List.not_mem_nil⟩

theorem Spells.word (text : Bytes) : Spells [.word text] text := ⟨by simp [Token.text], by simp⟩

theorem Spells.redirect {ds : Bytes} (h : ∀ d ∈ ds, isdigit d = true) :
    Spells [.redirect ds] ds :=
  ⟨by simp [Token.text], fun ds' hmem => by
    obtain rfl := Token.redirect.inj (List.mem_singleton.mp hmem)
    exact h⟩

theorem Spells.append {ts ts' : List Token} {text text' : Bytes} (h : Spells ts text)
    (h' : Spells ts' text') : Spells (ts ++ ts') (text ++ text') :=
  ⟨by rw [List.flatMap_append, h.text_eq, h'.text_eq],
    fun ds hmem => (List.mem_append.mp hmem).elim (h.digits ds) (h'.digits ds)⟩

theorem isNumber_digits {group : List Item} (h : isNumber group = true) :
    ∀ d ∈ textOf group, isdigit d = true := by
  intro d hd
  obtain ⟨i, hi, rfl⟩ := List.mem_map.mp hd
  exact (of_decide_eq_true (List.all_eq_true.mp h i (List.mem_of_mem_filter hi))).2

theorem endWord_spells {group : List Item} {ts : List Token} (h : endWord group = some ts) :
    Spells ts (textOf group) := by
  cases group with
  | nil =>
    obtain rfl := Option.some.inj h
    exact .nil
  | cons i is =>
    rw [endWord, Option.ite_none_left_eq_some] at h
    obtain rfl := Option.some.inj h.2
    exact .word _

/-- The tokens are all the text there is. -/
theorem tokenize_spells {group is : List Item} {ts : List Token}
    (h : tokenize group is = some ts) : Spells ts (textOf group ++ textOf is) := by
  induction is generalizing group ts with
  | nil =>
    have hnil : textOf [] = [] := rfl
    rw [hnil, List.append_nil]
    exact endWord_spells h
  | cons i is ih =>
    have hsplit : textOf (i :: is) = textOf [i] ++ textOf is := textOf_append [i] is
    have hsilent : i.isText = false → textOf [i] = [] := fun hi => by simp [textOf, hi]
    unfold tokenize at h
    rw [hsplit]
    split at h
    next hrole =>
      rw [← List.append_assoc, ← textOf_append]
      exact ih h
    next hrole =>
      rw [← List.append_assoc, ← textOf_append]
      exact ih h
    next hrole =>
      rw [hsilent (by simp [Item.isText, hrole])]
      exact ih h
    next hrole =>
      obtain ⟨word, hword, h⟩ := Option.bind_eq_some_iff.mp h
      obtain ⟨rest, hrest, rfl⟩ := Option.map_eq_some_iff.mp h
      rw [hsilent (by simp [Item.isText, hrole])]
      exact (endWord_spells hword).append (ih hrest)
    next hrole =>
      rw [hsilent (by simp [Item.isText, hrole])]
      split at h
      next hnum =>
        obtain ⟨rest, hrest, rfl⟩ := Option.map_eq_some_iff.mp h
        exact (Spells.redirect (isNumber_digits hnum)).append (ih hrest)
      next hnum =>
        obtain ⟨word, hword, h⟩ := Option.bind_eq_some_iff.mp h
        obtain ⟨rest, hrest, rfl⟩ := Option.map_eq_some_iff.mp h
        exact (endWord_spells hword).append
          ((Spells.redirect (List.forall_mem_nil _)).append (ih hrest))
    next hrole => cases h

/-- A command leaves out only the digits of its tokens. -/
theorem build_perm {ts : List Token} {c : Command} (h : build ts = some c)
    (hdigits : ∀ ds, .redirect ds ∈ ts → ∀ d ∈ ds, isdigit d = true) :
    ∃ ds : Bytes, (∀ d ∈ ds, isdigit d = true) ∧ (ts.flatMap Token.text).Perm (c.bytes ++ ds) := by
  induction ts using build.induct generalizing c with
  | case1 =>
    obtain rfl := Option.some.inj h
    exact ⟨[], List.forall_mem_nil _, .refl _⟩
  | case2 text ts ih =>
    rw [build] at h
    obtain ⟨c', hc', rfl⟩ := Option.map_eq_some_iff.mp h
    obtain ⟨ds, hds, hperm⟩ := ih hc' fun ds hmem => hdigits ds (List.mem_cons_of_mem _ hmem)
    refine ⟨ds, hds, ?_⟩
    rw [List.flatMap_cons, Command.bytes, List.flatten_cons, List.append_assoc, List.append_assoc,
      ← List.append_assoc _ _ ds]
    exact hperm.append_left text
  | case3 digits file ts ih =>
    rw [build] at h
    obtain ⟨c', hc', rfl⟩ := Option.map_eq_some_iff.mp h
    obtain ⟨ds, hds, hperm⟩ := ih hc' fun ds hmem =>
      hdigits ds (List.mem_cons_of_mem _ (List.mem_cons_of_mem _ hmem))
    refine ⟨ds ++ digits,
      List.forall_mem_append.mpr ⟨hds, hdigits digits List.mem_cons_self⟩, ?_⟩
    have hfile : (file ++ c'.bytes).Perm
        (Command.bytes { c' with redirects := (descriptor digits, file) :: c'.redirects }) := by
      rw [Command.bytes, Command.bytes, List.flatMap_cons]
      exact List.perm_append_comm_assoc _ _ _
    rw [List.flatMap_cons, List.flatMap_cons]
    calc (digits ++ (file ++ ts.flatMap Token.text)).Perm (digits ++ (file ++ (c'.bytes ++ ds))) :=
          (hperm.append_left file).append_left digits
      _ |>.Perm ((file ++ (c'.bytes ++ ds)) ++ digits) := List.perm_append_comm
      _ = (file ++ c'.bytes) ++ (ds ++ digits) := by simp only [List.append_assoc]
      _ |>.Perm _ := hfile.append_right _
  | case4 => simp [build] at h

theorem parse_eq_some {w : Bytes} {c : Command} : parse w = some c ↔
    lexer.exec .none w = .none ∧ ∃ ts, tokenize [] (items w) = some ts ∧ build ts = some c := by
  rw [parse, Option.ite_none_right_eq_some, Option.bind_eq_some_iff]

/-- A command's text is its words and file names, and digits. -/
theorem text_perm {w : Bytes} {c : Command} (h : parse w = some c) :
    ∃ ds : Bytes, (∀ d ∈ ds, isdigit d = true) ∧ (textOf (items w)).Perm (c.bytes ++ ds) := by
  obtain ⟨-, ts, hts, hbuild⟩ := parse_eq_some.mp h
  have hspells := tokenize_spells hts
  have htext : ts.flatMap Token.text = textOf (items w) := hspells.text_eq
  rw [← htext]
  exact build_perm hbuild hspells.digits

theorem parse_perm {w : Bytes} {c : Command} (h : parse w = some c) :
    ∃ ds : Bytes, (∀ d ∈ ds, isdigit d = true) ∧ w.Perm (c.bytes ++ (ds ++ signs w)) := by
  obtain ⟨ds, hds, hperm⟩ := text_perm h
  refine ⟨ds, hds, ?_⟩
  have hbytes : (items w).map Item.byte = w := by
    have hall := trace_bytes .none w
    rw [(parse_eq_some.mp h).1] at hall
    simpa [Quoting.pending, items] using hall
  rw [← List.append_assoc]
  calc w = (items w).map Item.byte := hbytes.symm
    _ |>.Perm (textOf (items w) ++ signs w) := (text_perm_signs _).symm
    _ |>.Perm _ := hperm.append_right _

/-! ## Only single quotes -/

/-- The byte is between single quotes, or outside and opens no other quotation. -/
def Calm (q : Quoting) (b : UInt8) : Prop := q = .single ∨ q = .none ∧ b ≠ 34 ∧ b ≠ 92

/-- The other quotations leave a sign. -/
theorem calm_of_signs {q : Quoting} {w : Bytes} (hq : q = .none ∨ q = .single)
    (hend : lexer.exec q w = .none) (h34 : 34 ∉ signsOf (lexer.trace q w))
    (h92 : 92 ∉ signsOf (lexer.trace q w)) : lexer.Along Calm q w := by
  induction w generalizing q with
  | nil => trivial
  | cons b w ih =>
    rw [Machine.trace_cons, signsOf_append, List.mem_append, not_or] at h34 h92
    have hrest : q.next b = .none ∨ q.next b = .single → lexer.Along Calm (q.next b) w :=
      fun hnext => ih hnext hend h34.2 h92.2
    rcases hq with rfl | rfl
    · have hb34 : b ≠ 34 := by
        rintro rfl
        exact absurd h34.1 (by decide)
      have hb92 : b ≠ 92 := by
        rintro rfl
        cases w with
        | nil => exact absurd hend (by decide)
        | cons b w =>
          have hsign : 92 ∈ signsOf (Quoting.items .escaped b) := by
            simp only [Quoting.items]
            split <;> simp [signsOf, Item.isText, quoted]
          have hnone := h92.2
          rw [Machine.trace_cons, signsOf_append, List.mem_append, not_or] at hnone
          exact hnone.1 hsign
      refine ⟨.inr ⟨rfl, hb34, hb92⟩, hrest ?_⟩
      rw [Quoting.next, if_neg hb34, if_neg hb92]
      exact (ite_eq_or_eq _ _ _).symm
    · exact ⟨.inl rfl, hrest (ite_eq_or_eq _ _ _)⟩

theorem calm_of_parse {w : Bytes} {c : Command} (h : parse w = some c) (h34 : 34 ∉ signs w)
    (h92 : 92 ∉ signs w) : lexer.Along Calm .none w :=
  calm_of_signs (.inl rfl) (parse_eq_some.mp h).1 h34 h92

/-- A `'` that is not text leaves none in the words. -/
theorem quote_notMem {w : Bytes} {c : Command} (h : parse w = some c) (h34 : 34 ∉ signs w)
    (h92 : 92 ∉ signs w) : 39 ∉ c.bytes := by
  have hstep : ∀ q b, Calm q b → ∀ i ∈ q.items b, i.isText = true → i.byte ≠ 39 := by
    rintro q b hcalm i hi htext h39
    rcases hcalm with rfl | ⟨rfl, hb34, hb92⟩
    · rw [Quoting.items] at hi
      split at hi
      next =>
        obtain rfl := List.mem_singleton.mp hi
        cases htext
      next hb =>
        obtain rfl := List.mem_singleton.mp hi
        exact hb h39
    · rw [Quoting.items, if_neg hb92] at hi
      split at hi
      next =>
        obtain rfl := List.mem_singleton.mp hi
        cases htext
      next hb =>
        obtain rfl := List.mem_singleton.mp hi
        exact hb (.inl h39)
  have htrace := lexer.forall_trace_iff.mpr ((calm_of_parse h h34 h92).mono hstep)
  intro hmem
  obtain ⟨ds, -, hperm⟩ := text_perm h
  obtain ⟨i, hi, hbyte⟩ := List.mem_map.mp (hperm.mem_iff.mpr (List.mem_append_left ds hmem))
  rw [List.mem_filter] at hi
  exact htrace i hi.1 hi.2 hbyte

/-- The same for a command whose signs are known. -/
theorem calm_of_subset {w sig : Bytes} {c : Command} (h : parse w = some c) (hsub : signs w ⊆ sig)
    (h34 : 34 ∉ sig) (h92 : 92 ∉ sig) : lexer.Along Calm .none w ∧ 39 ∉ c.bytes :=
  ⟨calm_of_parse h (fun hb => h34 (hsub hb)) fun hb => h92 (hsub hb),
    quote_notMem h (fun hb => h34 (hsub hb)) fun hb => h92 (hsub hb)⟩

/-! ## Stretches of a command line -/

theorem runs_single {v : Bytes} (h : 39 ∉ v) : lexer.Runs .single v .single (v.map quoted) := by
  induction v with
  | nil => exact .refl _
  | cons b v ih =>
    rw [List.mem_cons, not_or] at h
    have hb : lexer.Runs .single [b] .single [quoted b] := by
      refine .single ?_ ?_
      · exact if_neg (Ne.symm h.1)
      · exact if_neg (Ne.symm h.1)
    exact hb.trans (ih h.2)

/-- Bytes outside quotes. -/
theorem runs_none {v : Bytes} (h : v.any isQuote = false) :
    lexer.Runs .none v .none (v.map unquoted) := by
  induction v with
  | nil => exact .refl _
  | cons b v ih =>
    rw [List.any_cons, Bool.or_eq_false_iff] at h
    have hb : b ≠ 34 ∧ b ≠ 39 ∧ b ≠ 92 := by simpa [isQuote] using h.1
    have hrun : lexer.Runs .none [b] .none [unquoted b] := by
      refine .single ?_ ?_
      · show Quoting.next .none b = _
        rw [Quoting.next, if_neg hb.2.1, if_neg hb.1, if_neg hb.2.2]
      · show Quoting.items .none b = _
        rw [Quoting.items, if_neg (by simp [hb]), if_neg hb.2.2]
    exact hrun.trans (ih h.2)

/-- Without a `'` a calm stretch outside quotes has no quotes at all. -/
theorem isQuote_of_calm {v : Bytes} (h : lexer.Along Calm .none v) (h39 : 39 ∉ v) :
    v.any isQuote = false := by
  induction v with
  | nil => rfl
  | cons b v ih =>
    rw [List.mem_cons, not_or] at h39
    obtain ⟨hb34, hb92⟩ : b ≠ 34 ∧ b ≠ 92 := h.1.elim (fun h' => by cases h') And.right
    have hb : isQuote b = false := by simp [isQuote, hb34, hb92, Ne.symm h39.1]
    have hnext : Quoting.next .none b = .none := by
      rw [Quoting.next, if_neg (Ne.symm h39.1), if_neg hb34, if_neg hb92]
    have hrest : lexer.Along Calm (Quoting.next .none b) v := h.2
    rw [hnext] at hrest
    rw [List.any_cons, hb, ih hrest h39.2]
    rfl

theorem signsOf_quoted (v : Bytes) : signsOf (v.map quoted) = [] := by
  simp [signsOf, quoted, Item.isText]

theorem textOf_quoted (v : Bytes) : textOf (v.map quoted) = v := by
  rw [textOf, List.filter_eq_self.mpr (by simp [quoted, Item.isText]), List.map_map]
  exact List.map_id v

/-- A stretch without quotes is plain if none of its bytes is a sign. -/
theorem isPlain_of_signs {v : Bytes} (hquote : v.any isQuote = false)
    (h : signsOf (v.map unquoted) = []) : ∀ b ∈ v, isPlain b = true := by
  intro b hb
  rw [signsOf, List.map_eq_nil_iff, List.filter_eq_nil_iff] at h
  have htext := h (unquoted b) (List.mem_map_of_mem hb)
  have hbyte := Bool.eq_false_of_not_eq_true (List.any_eq_false.mp hquote b hb)
  simp only [isPlain, hbyte]
  simpa using htext

theorem unquoted_text {v : Bytes} (h : ∀ b ∈ v, isPlain b = true) :
    ∀ i ∈ v.map unquoted, i.isText = true := by
  rw [List.forall_mem_map]
  intro b hb
  have hplain := h b hb
  rw [isPlain, Bool.and_eq_true] at hplain
  exact hplain.2

theorem textOf_unquoted {v : Bytes} (h : ∀ b ∈ v, isPlain b = true) :
    textOf (v.map unquoted) = v := by
  rw [textOf, List.filter_eq_self.mpr (unquoted_text h), List.map_map]
  exact List.map_id v

/-! ## Reading a command line -/

/-- The items, whatever follows them, are these tokens. -/
def Splits (is : List Item) (ts : List Token) : Prop :=
  ∀ rest, tokenize [] (is ++ rest) = (tokenize [] rest).map (ts ++ ·)

theorem Splits.append {a b : List Item} {ts ts' : List Token} (ha : Splits a ts)
    (hb : Splits b ts') : Splits (a ++ b) (ts ++ ts') := by
  intro rest
  rw [List.append_assoc, ha, hb, Option.map_map]
  exact congrArg (Option.map · _) (funext fun _ => (List.append_assoc _ _ _).symm)

/-- Text and marks extend the word at hand. -/
theorem tokenize_word {word : List Item} (h : ∀ i ∈ word, i.isText = true ∨ i.role = .mark)
    (group rest : List Item) : tokenize group (word ++ rest) = tokenize (group ++ word) rest := by
  induction word generalizing group with
  | nil => rw [List.nil_append, List.append_nil]
  | cons i word ih =>
    rw [List.forall_mem_cons] at h
    have hstep : tokenize group (i :: (word ++ rest)) = tokenize (group ++ [i]) (word ++ rest) := by
      rw [tokenize]
      obtain ⟨role, b⟩ := i
      cases role <;> simp_all [Item.isText]
    rw [List.cons_append, hstep, ih h.2, List.append_assoc, List.singleton_append]

/-- The items are one word. -/
structure IsWord (word : List Item) (text : Bytes) : Prop where
  items : ∀ i ∈ word, i.isText = true ∨ i.role = .mark
  ends : endWord word = some [.word text]

theorem Splits.blank : Splits [unquoted 32] [] := fun _ => rfl

/-- A blank ends a word. -/
theorem Splits.word {word : List Item} {text : Bytes} (h : IsWord word text) :
    Splits (word ++ [unquoted 32]) [.word text] := by
  intro rest
  rw [List.append_assoc, tokenize_word h.items, List.nil_append, List.singleton_append]
  show (endWord word).bind _ = _
  rw [h.ends, Option.bind_some]

theorem unquoted_digit {d : UInt8} (h : isdigit d = true) : unquoted d = ⟨.text false, d⟩ :=
  forall_byte (P := fun d => isdigit d = true → unquoted d = ⟨.text false, d⟩)
    (by decide +kernel) d h

theorem digit_notMem_signsOf {d : UInt8} (h : isdigit d = true) (v : Bytes) :
    d ∉ signsOf (v.map unquoted) := by
  intro hmem
  obtain ⟨i, hi, rfl⟩ := List.mem_map.mp hmem
  obtain ⟨hv, hsign⟩ := List.mem_filter.mp hi
  obtain ⟨b, -, rfl⟩ := List.mem_map.mp hv
  have hbyte : unquoted b = ⟨.text false, b⟩ := unquoted_digit h
  rw [hbyte] at hsign
  cases hsign

/-- A number, or nothing, and a `>`. -/
theorem Splits.redirect {ds : Bytes} (h : ∀ d ∈ ds, isdigit d = true) :
    Splits (ds.map unquoted ++ [unquoted 62]) [.redirect ds] := by
  have hitems : ∀ i ∈ ds.map unquoted, i.role = .text false ∧ isdigit i.byte = true := by
    rw [List.forall_mem_map]
    intro d hd
    rw [unquoted_digit (h d hd)]
    exact ⟨rfl, h d hd⟩
  have hword : ∀ i ∈ ds.map unquoted, i.isText = true ∨ i.role = .mark := fun i hi => by
    simp [Item.isText, (hitems i hi).1]
  have hnumber : isNumber (ds.map unquoted) = true :=
    List.all_eq_true.mpr fun i hi => decide_eq_true (hitems i hi)
  have htext : textOf (ds.map unquoted) = ds := by
    rw [textOf, List.filter_eq_self.mpr fun i hi => by simp [Item.isText, (hitems i hi).1],
      List.map_map]
    exact List.map_id ds
  intro rest
  rw [List.append_assoc, tokenize_word hword, List.nil_append, List.singleton_append]
  show (if isNumber (ds.map unquoted) then _ else _) = _
  rw [if_pos hnumber, htext]
  rfl

/-- The last word needs no blank behind it. -/
theorem Splits.last {is last : List Item} {ts : List Token} {text : Bytes} (h : Splits is ts)
    (hlast : IsWord last text) : tokenize [] (is ++ last) = some (ts ++ [.word text]) := by
  have htok := tokenize_word hlast.items [] []
  rw [List.append_nil, List.nil_append] at htok
  rw [h, htok, tokenize, hlast.ends, Option.map_some]

/-- Plain bytes, of which the first is neither `#` nor `~`. -/
theorem IsWord.plain {b : UInt8} {v : Bytes} (h : ∀ c ∈ b :: v, isPlain c = true)
    (hb : b ≠ 35 ∧ b ≠ 126) : IsWord ((b :: v).map unquoted) (b :: v) := by
  refine ⟨fun i hi => .inl (unquoted_text h i hi), ?_⟩
  have htext := textOf_unquoted h
  rw [List.map_cons] at htext ⊢
  rw [endWord, if_neg, htext]
  rintro (h35 | h126)
  · exact hb.1 (congrArg Item.byte h35)
  · exact hb.2 (congrArg Item.byte h126)

/-- `'v'` -/
def quote (v : Bytes) : Bytes := 39 :: (v ++ [39])

/-- Its items, if there is no `'` in it. -/
def singleQuoted (v : Bytes) : List Item := ⟨.mark, 39⟩ :: (v.map quoted ++ [⟨.mark, 39⟩])

theorem count_quote (b : UInt8) (v : Bytes) :
    (quote v).count b = v.count b + [39, 39].count b := by
  have hquote : quote v = [39] ++ (v ++ [39]) := rfl
  have hpair : ([39, 39] : Bytes) = [39] ++ [39] := rfl
  rw [hquote, hpair, List.count_append, List.count_append, List.count_append]
  omega

theorem runs_quote {v : Bytes} (h : 39 ∉ v) :
    lexer.Runs .none (quote v) .none (singleQuoted v) := by
  have hopen : lexer.Runs .none [39] .single [⟨.mark, 39⟩] := .single rfl rfl
  have hclose : lexer.Runs .single [39] .none [⟨.mark, 39⟩] := .single rfl rfl
  exact hopen.trans ((runs_single h).trans hclose)

theorem signsOf_singleQuoted (v : Bytes) : signsOf (singleQuoted v) = [39, 39] := by
  have hsplit : signsOf (singleQuoted v) = signsOf [⟨.mark, 39⟩] ++
      (signsOf (v.map quoted) ++ signsOf [⟨.mark, 39⟩]) := by
    rw [← signsOf_append, ← signsOf_append]
    rfl
  rw [hsplit, signsOf_quoted]
  rfl

theorem IsWord.singleQuoted (v : Bytes) : IsWord (singleQuoted v) v := by
  have htext : textOf (Shell.singleQuoted v) = v := by
    have hsplit : textOf (Shell.singleQuoted v) = textOf [⟨.mark, 39⟩] ++
        (textOf (v.map quoted) ++ textOf [⟨.mark, 39⟩]) := by
      rw [← textOf_append, ← textOf_append]
      rfl
    have hmark : textOf [⟨.mark, 39⟩] = [] := rfl
    rw [hsplit, hmark, textOf_quoted, List.nil_append, List.append_nil]
  constructor
  · rw [Shell.singleQuoted, List.forall_mem_cons, List.forall_mem_append, List.forall_mem_map]
    exact ⟨.inr rfl, fun _ _ => .inl rfl, fun i hi => .inr (by rw [List.mem_singleton.mp hi])⟩
  · rw [Shell.singleQuoted] at htext ⊢
    rw [endWord, if_neg (by decide), htext]

end NetMon.Lib.Shell
