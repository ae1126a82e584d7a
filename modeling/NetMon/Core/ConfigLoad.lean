import NetMon.Core.ConfigFile
import NetMon.Core.ConfigMap

/-!
# Loading as a run of insertions

`assignments` is what `config_load` finds in a text. For lines that fit the buffer these
are the assignments on the lines of the text (`assignments_eq_lines`), and loading is one
`config_set_str` after the other (`loadLines_eq`), except that it stops at the first
assignment that meets a full table, though it be one to a stored key. `load_iff` says when
that makes no difference.
-/

namespace NetMon.Core

open NetMon.Lib

/-- The assignments `config_load` finds, in order. -/
def assignments (text : Bytes) : List (CStr × CStr) :=
  (textLines lineMax text).filterMap fun l => parseLine (CStr.ofBytes l)

/-- The lines of a text. -/
def fileLines (text : Bytes) : List Bytes := text.splitOn newline

/-- The assignments on the lines of a text. -/
def lineAssignments (text : Bytes) : List (CStr × CStr) :=
  (fileLines text).filterMap fun l => parseLine (CStr.ofBytes l)

/-- One `config_set_str` after the other. -/
def setAll (cfg : Config) (sets : List (CStr × CStr)) : Config :=
  sets.foldl (fun cfg kv => configSetStr cfg kv.1 kv.2) cfg

theorem setAll_append (cfg : Config) (sets rest : List (CStr × CStr)) :
    setAll cfg (sets ++ rest) = setAll (setAll cfg sets) rest := List.foldl_append

/-! ## The text -/

theorem takeWhile_append_of_neg {α : Type*} {p : α → Bool} {l : List α} (r : List α) {x : α}
    (hx : x ∈ l) (hp : ¬ p x = true) : (l ++ r).takeWhile p = l.takeWhile p := by
  induction l with
  | nil => simp at hx
  | cons a l ih =>
    rw [List.cons_append, List.takeWhile_cons, List.takeWhile_cons]
    split
    · rename_i ha
      rcases List.mem_cons.mp hx with rfl | hx
      · exact absurd ha hp
      · rw [ih hx]
    · rfl

/-- A newline at the end of a line is trimmed off. -/
theorem trim_newline (l : Bytes) :
    (CStr.ofBytes (l ++ [newline])).trim = (CStr.ofBytes l).trim := by
  by_cases h0 : 0 ∈ l
  · -- the string ends before the newline
    have hcut : CStr.ofBytes (l ++ [newline]) = CStr.ofBytes l := by
      ext1
      obtain ⟨b, hb, hb0⟩ : ∃ b ∈ l, ¬ (b != 0) = true := ⟨0, h0, by simp⟩
      exact takeWhile_append_of_neg _ hb hb0
    rw [hcut]
  · have hbytes : (CStr.ofBytes (l ++ [newline])).bytes = l ++ [newline] :=
      CStr.ofBytes_of_nonul (by simp [h0]; decide)
    ext1
    show ((CStr.ofBytes (l ++ [newline])).bytes.dropWhile isspace).rdropWhile isspace =
      ((CStr.ofBytes l).bytes.dropWhile isspace).rdropWhile isspace
    rw [hbytes, CStr.ofBytes_of_nonul h0]
    by_cases hall : ∀ b ∈ l, isspace b = true
    · rw [List.dropWhile_eq_nil_iff.mpr hall, List.dropWhile_append_of_pos hall]
      rfl
    · have hne : l.dropWhile isspace ≠ [] := fun h => hall (List.dropWhile_eq_nil_iff.mp h)
      rw [List.dropWhile_append, if_neg (by simpa using hne)]
      exact List.rdropWhile_concat_pos isspace _ _ (by decide)

theorem parseLine_newline (l : Bytes) :
    parseLine (CStr.ofBytes (l ++ [newline])) = parseLine (CStr.ofBytes l) := by
  unfold parseLine
  rw [trim_newline]

theorem fgetsLines_newline (n : Nat) (cur s : Bytes) :
    (fgetsLines n cur (s ++ [newline])).filterMap (fun l => parseLine (CStr.ofBytes l)) =
      (fgetsLines n cur s).filterMap fun l => parseLine (CStr.ofBytes l) := by
  induction s generalizing cur with
  | nil =>
    have hlast : fgetsLines n cur [newline] = [cur ++ [newline]] := by
      rw [fgetsLines, if_pos (Or.inl rfl)]
      rfl
    rw [List.nil_append, hlast, fgetsLines]
    by_cases hcur : cur = []
    · subst hcur
      rfl
    · rw [if_neg hcur, List.filterMap_cons, List.filterMap_cons, parseLine_newline]
  | cons b s ih =>
    rw [List.cons_append, fgetsLines, fgetsLines]
    split
    · rw [List.filterMap_cons, List.filterMap_cons, ih]
    · exact ih _

theorem assignments_newline (s : Bytes) : assignments (s ++ [newline]) = assignments s :=
  fgetsLines_newline lineMax [] s

theorem assignments_append (s rest : Bytes) :
    assignments (s ++ newline :: rest) = assignments s ++ assignments rest := by
  rw [← assignments_newline s, assignments, textLines_append, List.filterMap_append]
  rfl

/-- A text's assignments are those of its lines, one line after the other. -/
theorem assignments_intercalate (ls : List Bytes) :
    assignments ([newline].intercalate ls) = ls.flatMap assignments := by
  induction ls with
  | nil => rfl
  | cons l ls ih =>
    cases ls with
    | nil => simp [List.intercalate]
    | cons l' ls =>
      rw [List.flatMap_cons, ← ih, ← assignments_append]
      simp [List.intercalate]

theorem assignments_fileLines (text : Bytes) :
    assignments text = (fileLines text).flatMap assignments := by
  rw [← assignments_intercalate, fileLines, List.intercalate_splitOn]

/-- A line that fits the buffer is read in one piece. -/
theorem assignments_short {l : Bytes} (hl : newline ∉ l) (h : l.length ≤ lineMax) :
    assignments l = (parseLine (CStr.ofBytes l)).toList := by
  rw [assignments, textLines_short (by decide) hl h]
  split
  · next hnil =>
    subst hnil
    rfl
  · rw [List.filterMap_cons]
    cases parseLine (CStr.ofBytes l) <;> rfl

theorem newline_notMem_fileLines {text l : Bytes} (hl : l ∈ fileLines text) : newline ∉ l := by
  unfold fileLines at hl
  induction text generalizing l with
  | nil =>
    rw [List.splitOn_nil, List.mem_singleton] at hl
    simp [hl]
  | cons b text ih =>
    rw [List.splitOn_cons_eq_if_modifyHead] at hl
    split at hl
    · rcases List.mem_cons.mp hl with rfl | hl
      · simp
      · exact ih hl
    · rename_i hb
      obtain ⟨first, rest, hsplit⟩ := List.exists_cons_of_ne_nil (List.splitOn_ne_nil newline text)
      rw [hsplit] at hl ih
      rcases List.mem_cons.mp hl with rfl | hl
      · rw [List.mem_cons, not_or]
        exact ⟨fun h => hb (by simp [h]), ih List.mem_cons_self⟩
      · exact ih (List.mem_cons_of_mem _ hl)

theorem assignments_eq_lines {text : Bytes} (h : ∀ l ∈ fileLines text, l.length < 255) :
    assignments text = lineAssignments text := by
  rw [assignments_fileLines, lineAssignments, List.filterMap_eq_flatMap_toList]
  apply List.flatMap_congr
  intro l hl
  exact assignments_short (newline_notMem_fileLines hl) (Nat.le_of_lt (h l hl))

/-! ## The reading loop -/

/-- The table when it is first full, and the assignments from there on. -/
def untilFull (cfg : Config) : List (CStr × CStr) → Config × List (CStr × CStr)
  | [] => (cfg, [])
  | kv :: rest =>
    if cfg.count ≥ configMaxEntries then (cfg, kv :: rest)
    else untilFull (configSetStr cfg kv.1 kv.2) rest

/-- Loading stops at the first assignment that meets a full table. -/
theorem loadLines_eq (cfg : Config) (ls : List Bytes) : loadLines cfg ls =
    (untilFull cfg (ls.filterMap fun l => parseLine (CStr.ofBytes l))).1 := by
  induction ls generalizing cfg with
  | nil => rfl
  | cons l ls ih =>
    rw [loadLines, List.filterMap_cons]
    cases parseLine (CStr.ofBytes l) with
    | none => exact ih cfg
    | some kv =>
      simp only [untilFull]
      split
      · rfl
      · exact ih _

theorem configLoad_eq (text : Bytes) :
    (configLoad (some text)).2 = (untilFull Config.empty (assignments text)).1 :=
  loadLines_eq Config.empty _

theorem count_configSetStr (cfg : Config) (key value : CStr) :
    cfg.count ≤ (configSetStr cfg key value).count ∧
      (configSetStr cfg key value).count ≤ cfg.count + 1 := by
  unfold Config.count
  rcases configSetStr_cases cfg key value with ⟨idx, hset⟩ | ⟨_, _, hset⟩ | ⟨_, hset⟩
  · rw [hset, List.length_modify]
    exact ⟨Nat.le_refl _, Nat.le_succ _⟩
  · rw [hset, List.length_append, List.length_singleton]
    exact ⟨Nat.le_succ _, Nat.le_refl _⟩
  · rw [hset]
    exact ⟨Nat.le_refl _, Nat.le_succ _⟩

theorem setAll_untilFull (cfg : Config) (sets : List (CStr × CStr)) :
    setAll cfg sets = setAll (untilFull cfg sets).1 (untilFull cfg sets).2 := by
  induction sets generalizing cfg with
  | nil => rfl
  | cons kv rest ih =>
    rw [untilFull]
    split
    · rfl
    · exact ih _

theorem untilFull_full (cfg : Config) (sets : List (CStr × CStr)) :
    (untilFull cfg sets).2 = [] ∨ (untilFull cfg sets).1.count = configMaxEntries := by
  induction sets generalizing cfg with
  | nil => exact Or.inl rfl
  | cons kv rest ih =>
    rw [untilFull]
    split
    · rename_i hfull
      exact Or.inr (Nat.le_antisymm cfg.bound hfull)
    · exact ih _

/-! ## Insertions into a full table -/

/-- The value last assigned to a key. -/
def lastAssigned (key : CStr) (sets : List (CStr × CStr)) : Option CStr :=
  (sets.reverse.find? fun kv => kv.1 = key).map Prod.snd

theorem lastAssigned_concat (key : CStr) (sets : List (CStr × CStr)) (kv : CStr × CStr) :
    lastAssigned key (sets ++ [kv]) = if kv.1 = key then some kv.2 else lastAssigned key sets := by
  unfold lastAssigned
  rw [List.reverse_append, List.reverse_singleton, List.singleton_append, List.find?_cons]
  by_cases h : kv.1 = key
  · simp [h]
  · simp [h]

/-- `G` is `F` with other values in entries that a lookup can find. -/
structure Overlay (F G : Config) : Prop where
  keys : G.entries.map ConfigEntry.key = F.entries.map ConfigEntry.key
  shadowed : ∀ (i : Nat) (e : ConfigEntry), F.entries[i]? = some e →
    configFind F e.key.str ≠ some i → G.entries[i]? = some e

theorem Overlay.refl (F : Config) : Overlay F F := ⟨rfl, fun _ _ h _ => h⟩

theorem Overlay.count {F G : Config} (h : Overlay F G) : G.count = F.count := by
  have hlen := congrArg List.length h.keys
  rwa [List.length_map, List.length_map] at hlen

/-- A lookup only looks at the keys. -/
theorem configFind_congr {F G : Config}
    (h : G.entries.map ConfigEntry.key = F.entries.map ConfigEntry.key) (key : CStr) :
    configFind G key = configFind F key := by
  have hmap : ∀ cfg : Config, configFind cfg key =
      (cfg.entries.map ConfigEntry.key).findIdx? fun k => k.str = key := fun cfg => by
    rw [List.findIdx?_map]
    rfl
  rw [hmap, hmap, h]

theorem stored_iff_configFind {cfg : Config} {key : CStr} :
    cfg.Stored key ↔ configFind cfg key ≠ none := by
  rw [ne_eq, configFind_eq_none, not_not]

theorem Overlay.stored {F G : Config} (h : Overlay F G) (key : CStr) :
    G.Stored key ↔ F.Stored key := by
  rw [stored_iff_configFind, stored_iff_configFind, configFind_congr h.keys]

/-- The entry a lookup finds has the key. -/
theorem key_of_configFind {cfg : Config} {key : CStr} {idx : Nat} {e : ConfigEntry}
    (h : configFind cfg key = some idx) (he : cfg.entries[idx]? = some e) : e.key.str = key := by
  obtain ⟨hlt, hkey, _⟩ := List.findIdx?_eq_some_iff_getElem.mp h
  rw [List.getElem?_eq_getElem hlt, Option.some.injEq] at he
  rw [he] at hkey
  exact of_decide_eq_true hkey

theorem Overlay.set {F G : Config} (h : Overlay F G) (hfull : F.count = configMaxEntries)
    (key value : CStr) : Overlay F (configSetStr G key value) := by
  by_cases hst : G.Stored key
  · obtain ⟨idx, hidx, hset⟩ := configSetStr_stored value hst
    rw [configFind_congr h.keys] at hidx
    refine ⟨by rw [hset, ConfigEntry.keys_modify, h.keys], fun i e he hshadow => ?_⟩
    have hi := h.shadowed i e he hshadow
    have hne : idx ≠ i := by
      rintro rfl
      exact hshadow (key_of_configFind hidx he ▸ hidx)
    rw [hset, List.getElem?_modify_ne _ _ hne, hi]
  · rw [configSetStr_full value hst (h.count.trans hfull)]
    exact h

theorem Overlay.setAll {F : Config} (hfull : F.count = configMaxEntries)
    (sets : List (CStr × CStr)) : Overlay F (setAll F sets) := by
  induction sets using List.reverseRecOn with
  | nil => exact Overlay.refl F
  | append_singleton sets kv ih =>
    rw [setAll_append]
    exact ih.set hfull kv.1 kv.2

theorem Overlay.entry {F G : Config} (h : Overlay F G) {i : Nat} {e : ConfigEntry}
    (he : F.entries[i]? = some e) : ∃ e', G.entries[i]? = some e' ∧ e'.key = e.key := by
  have hi := congrArg (·[i]?) h.keys
  simp only [List.getElem?_map, he, Option.map_some] at hi
  exact Option.map_eq_some_iff.mp hi

theorem configGetStr_of_find {cfg : Config} {key : CStr} {i : Nat} {e : ConfigEntry}
    (hfind : configFind cfg key = some i) (he : cfg.entries[i]? = some e) (dflt : CStr) :
    configGetStr cfg key dflt = e.value.str := by
  simp only [configGetStr, hfind, he, Option.map_some, Option.getD_some]

/-- A table laid over another is that one if every key reads the same. -/
theorem Overlay.ext {F G : Config} (h : Overlay F G)
    (hget : ∀ key, F.Stored key → configGetStr G key CStr.empty = configGetStr F key CStr.empty) :
    G = F := by
  ext1
  refine List.ext_getElem? fun i => ?_
  cases he : F.entries[i]? with
  | none =>
    rw [List.getElem?_eq_none_iff] at he ⊢
    have := h.count
    unfold Config.count at this
    omega
  | some e =>
    by_cases hfind : configFind F e.key.str = some i
    · obtain ⟨e', he', hkey⟩ := h.entry he
      have hF := configGetStr_of_find hfind he CStr.empty
      have hG := configGetStr_of_find ((configFind_congr h.keys _).trans hfind) he' CStr.empty
      rw [hget _ (stored_iff_configFind.mpr (by rw [hfind]; simp)), hF] at hG
      have hvalue : e'.value = e.value := CharArray.ext hG.symm
      rw [he']
      exact congrArg some (congr (congrArg ConfigEntry.mk hkey) hvalue)
    · exact h.shadowed i e he hfind

/-- Inserting into a full table leaves each stored key at what was last assigned to it. -/
theorem get_setAll {F : Config} (hfull : F.count = configMaxEntries)
    (sets : List (CStr × CStr)) {key : CStr} (hst : F.Stored key) (dflt : CStr) :
    configGetStr (setAll F sets) key dflt =
      ((lastAssigned key sets).map (·.trunc 127)).getD (configGetStr F key dflt) := by
  induction sets using List.reverseRecOn with
  | nil => rfl
  | append_singleton sets kv ih =>
    have hlaw : MapLaw (setAll F sets) kv.1 kv.2 :=
      mapLaw_iff.mpr (Or.inr ((Overlay.setAll hfull sets).count.trans hfull))
    have hkept := ((Overlay.setAll hfull (sets ++ [kv])).stored key).mpr hst
    have hconcat : setAll F (sets ++ [kv]) = configSetStr (setAll F sets) kv.1 kv.2 :=
      setAll_append F sets [kv]
    rw [hconcat] at hkept ⊢
    rw [hlaw.get (Or.inl hkept), lastAssigned_concat, ih]
    split <;> rfl

/-- Every stored key has the value that is last assigned to it. -/
def Settled (F : Config) (sets : List (CStr × CStr)) : Prop :=
  ∀ key v, F.Stored key → lastAssigned key sets = some v →
    v.trunc 127 = configGetStr F key CStr.empty

theorem setAll_eq_self_iff {F : Config} (hfull : F.count = configMaxEntries)
    (sets : List (CStr × CStr)) : setAll F sets = F ↔ Settled F sets := by
  constructor
  · intro heq key v hst hlast
    have hget := get_setAll hfull sets hst CStr.empty
    rw [heq, hlast] at hget
    exact hget.symm
  · intro hsettled
    apply (Overlay.setAll hfull sets).ext
    intro key hst
    rw [get_setAll hfull sets hst]
    cases hlast : lastAssigned key sets with
    | none => rfl
    | some v => exact hsettled key v hst hlast

theorem settled_nil (F : Config) : Settled F [] := fun _ _ _ h => nomatch h

/-- **Loading** a file of short lines gives the table its assignments give one by one exactly when
those from the point on at which the table is full leave every stored key at its value. -/
theorem load_iff (text : Bytes) (h : ∀ l ∈ fileLines text, l.length < 255) :
    (configLoad (some text)).2 = setAll Config.empty (lineAssignments text) ↔
      Settled (untilFull Config.empty (lineAssignments text)).1
        (untilFull Config.empty (lineAssignments text)).2 := by
  have hload : (configLoad (some text)).2 =
      (untilFull Config.empty (lineAssignments text)).1 := by
    rw [← assignments_eq_lines h, configLoad_eq]
  rw [hload, setAll_untilFull, eq_comm]
  rcases untilFull_full Config.empty (lineAssignments text) with hnil | hfull
  · rw [hnil]
    exact iff_of_true rfl (settled_nil _)
  · exact setAll_eq_self_iff hfull _

/-- One key assigned twice. -/
theorem load_twice :
    (configLoad (some (CStr.lit "a=1\na = 2\n").bytes)).2 =
        setAll Config.empty (lineAssignments (CStr.lit "a=1\na = 2\n").bytes) ↔
      Settled (untilFull Config.empty (lineAssignments (CStr.lit "a=1\na = 2\n").bytes)).1
        (untilFull Config.empty (lineAssignments (CStr.lit "a=1\na = 2\n").bytes)).2 :=
  load_iff _ (by decide +kernel)

/-- 64 keys of one byte each, then the first of them again with another value. -/
def fullThenRepeated : Bytes :=
  (List.range 64).flatMap (fun i => [UInt8.ofNat (65 + i), equals, 49, newline]) ++
    [65, equals, 50, newline]

/-- The last line is not loaded. -/
theorem repeated_key_lost : ¬ ∀ text, (∀ l ∈ fileLines text, l.length < 255) →
    (configLoad (some text)).2 = setAll Config.empty (lineAssignments text) := by
  intro h
  have hget := congrArg (configGetStr · (CStr.lit "A") CStr.empty)
    (h fullThenRepeated (by decide +kernel))
  revert hget
  decide +kernel

end NetMon.Core
