import NetMon.Core.Config

/-!
# The configuration file

`config.c`: the text form of the table and its reader. `config_load` empties the table
first, so the model takes the file alone (`none` when it cannot be opened).

`Storable` says which tables the text form can carry: `configLoad_configSave` reads
those back, and by `storable_of_roundTrip` no other table comes back from its own text.
-/

namespace NetMon.Core

open NetMon.Lib

/-- `'#'` -/
def hash : UInt8 := 35

/-- `'='` -/
def equals : UInt8 := 61

/-- `char line[256]` leaves room for 255 bytes. -/
def lineMax : Nat := 255

/-- The assignment on a line, if it holds one. -/
def parseLine (line : CStr) : Option (CStr × CStr) :=
  let p := line.trim
  if p.bytes = [] ∨ p.bytes.head? = some hash then none
  else match p.split equals with
    | none => none
    | some (a, b) =>
      let key := a.trim
      let val := b.trim
      if key.bytes = [] then none else some (key, val)

/-- The reading loop. The source repeats the body of `config_set_str` in place. -/
def loadLines (cfg : Config) : List Bytes → Config
  | [] => cfg
  | line :: rest =>
    match parseLine (CStr.ofBytes line) with
    | none => loadLines cfg rest
    | some (key, val) =>
      if cfg.count ≥ configMaxEntries then cfg
      else loadLines (configSetStr cfg key val) rest

/-- The return code and the table. -/
def configLoad (file : Option Bytes) : Int × Config :=
  match file with
  | none => (-1, Config.empty)
  | some text => (0, loadLines Config.empty (textLines lineMax text))

/-- `"%s=%s\n"` -/
def ConfigEntry.line (e : ConfigEntry) : Bytes :=
  e.key.bytes ++ equals :: e.value.bytes ++ [newline]

/-- What `config_save` writes. -/
def configSave (cfg : Config) : Bytes := cfg.entries.flatMap ConfigEntry.line

/-! ## One line -/

/-- A key and a value that one line of text can carry. -/
structure Clean (key value : CStr) : Prop where
  key_ne_nil : key.bytes ≠ []
  key_trimmed : key.Trimmed
  key_head : key.bytes.head? ≠ some hash
  key_equals : equals ∉ key.bytes
  key_newline : newline ∉ key.bytes
  value_trimmed : value.Trimmed
  value_newline : newline ∉ value.bytes

instance (key value : CStr) : Decidable (Clean key value) :=
  decidable_of_iff (key.bytes ≠ [] ∧ key.Trimmed ∧ key.bytes.head? ≠ some hash ∧
      equals ∉ key.bytes ∧ newline ∉ key.bytes ∧ value.Trimmed ∧ newline ∉ value.bytes)
    ⟨fun ⟨h1, h2, h3, h4, h5, h6, h7⟩ => ⟨h1, h2, h3, h4, h5, h6, h7⟩,
      fun h => ⟨h.1, h.2, h.3, h.4, h.5, h.6, h.7⟩⟩

/-- A clean assignment is read back from its line. -/
theorem parseLine_of_clean {key value line : CStr} (h : Clean key value)
    (hl : line.bytes = key.bytes ++ equals :: value.bytes ++ [newline]) :
    parseLine line = some (key, value) := by
  obtain ⟨c, k, hk⟩ := List.exists_cons_of_ne_nil h.key_ne_nil
  let p : CStr := ⟨key.bytes ++ equals :: value.bytes, fun h0 => by
    rcases List.mem_append.mp h0 with h0 | h0
    · exact key.nonul h0
    · rcases List.mem_cons.mp h0 with h0 | h0
      · exact absurd h0 (by decide)
      · exact value.nonul h0⟩
  have hp : p.Trimmed := by
    rw [CStr.trimmed_iff]
    refine ⟨fun b hb => (CStr.trimmed_iff.mp h.key_trimmed).1 b ?_, fun b hb => ?_⟩
    · rwa [List.head?_append_of_ne_nil _ h.key_ne_nil] at hb
    · cases hv : value.bytes with
      | nil =>
        have : b = equals := by simpa [p, hv] using hb.symm
        rw [this]
        decide
      | cons c v =>
        apply (CStr.trimmed_iff.mp h.value_trimmed).2 b
        rwa [show p.bytes = (key.bytes ++ [equals]) ++ value.bytes by simp [p],
          List.getLast?_append_of_ne_nil _ (by simp [hv])] at hb
  have hpne : p.bytes ≠ [] := by simp [p]
  have htrim : line.trim = p := CStr.trim_append_blank hp hpne (by decide) hl
  have hsplit : p.split equals = some (key, value) :=
    CStr.split_eq_some.mpr ⟨rfl, h.key_equals⟩
  have hhead : p.bytes.head? ≠ some hash := by
    have := h.key_head
    simpa [p, hk] using this
  unfold parseLine
  simp only [htrim, hpne, hhead, or_self, if_false, hsplit]
  rw [show key.trim = key from h.key_trimmed, show value.trim = value from h.value_trimmed,
    if_neg h.key_ne_nil]

/-- What a line yields is part of it, and clean if there is no newline in it. -/
theorem parseLine_part {line key value : CStr} (h : parseLine line = some (key, value)) :
    (key.bytes ++ equals :: value.bytes).Sublist line.trim.bytes ∧
      (newline ∉ key.bytes → newline ∉ value.bytes → Clean key value) := by
  unfold parseLine at h
  simp only at h
  split at h
  · cases h
  · next hp =>
    split at h
    · cases h
    · next a b hsplit =>
      obtain ⟨hab, ha⟩ := CStr.split_eq_some.mp hsplit
      split at h
      · cases h
      · next hkey =>
        obtain ⟨rfl, rfl⟩ := Prod.mk.inj (Option.some.inj h)
        rw [not_or] at hp
        refine ⟨?_, fun hkn hvn => ?_⟩
        · rw [hab]
          exact a.trim_sublist.append (b.trim_sublist.cons_cons _)
        · refine ⟨hkey, a.trim_trimmed, ?_, fun hm => ha (a.trim_sublist.subset hm), hkn,
            b.trim_trimmed, hvn⟩
          have hane : a.bytes ≠ [] := fun h0 => hkey (by
            have := a.trim_sublist
            rwa [h0, List.sublist_nil] at this)
          have hhead : line.trim.bytes.head? = a.bytes.head? := by
            rw [hab, List.head?_append_of_ne_nil _ hane]
          rw [CStr.trim_head? (fun c hc => ?_) hkey, ← hhead]
          · exact hp.2
          · exact (CStr.trimmed_iff.mp line.trim_trimmed).1 c (hhead ▸ hc)

/-! ## Reading back what was written -/

/-- The tables the text form can carry: clean assignments under different keys. -/
structure Storable (cfg : Config) : Prop where
  clean : ∀ e ∈ cfg.entries, Clean e.key.str e.value.str
  nodup : (cfg.entries.map ConfigEntry.key).Nodup

instance (cfg : Config) : Decidable (Storable cfg) :=
  decidable_of_iff ((∀ e ∈ cfg.entries, Clean e.key.str e.value.str) ∧
    (cfg.entries.map ConfigEntry.key).Nodup) ⟨fun ⟨h1, h2⟩ => ⟨h1, h2⟩, fun h => ⟨h.1, h.2⟩⟩

theorem ConfigEntry.line_length (e : ConfigEntry) :
    e.line.length = e.key.bytes.length + e.value.bytes.length + 2 := by
  simp only [ConfigEntry.line, List.length_append, List.length_cons, List.length_nil]
  omega

theorem ConfigEntry.ofBytes_line (e : ConfigEntry) : (CStr.ofBytes e.line).bytes = e.line := by
  have hnul : 0 ∉ e.line := by
    simp only [ConfigEntry.line, List.mem_append, List.mem_cons, List.not_mem_nil, or_false]
    rintro ((h | h | h) | h)
    · exact e.key.str.nonul h
    · exact absurd h (by decide)
    · exact e.value.str.nonul h
    · exact absurd h (by decide)
  exact congrArg CStr.bytes (CStr.ofBytes_bytes ⟨e.line, hnul⟩)

/-- A clean table is written as one line an entry. -/
theorem textLines_save {es : List ConfigEntry} (h : ∀ e ∈ es, Clean e.key.str e.value.str) :
    textLines lineMax (es.flatMap ConfigEntry.line) = es.map ConfigEntry.line := by
  induction es with
  | nil => rfl
  | cons e es ih =>
    rw [List.forall_mem_cons] at h
    have hnl : newline ∉ e.key.bytes ++ equals :: e.value.bytes := by
      simp only [List.mem_append, List.mem_cons, not_or]
      exact ⟨h.1.key_newline, by decide, h.1.value_newline⟩
    have hlen : (e.key.bytes ++ equals :: e.value.bytes).length < lineMax := by
      have h1 := e.key.bytes_length_le
      have h2 := e.value.bytes_length_le
      simp only [List.length_append, List.length_cons, lineMax]
      omega
    rw [List.flatMap_cons, List.map_cons, ← ih h.2, ConfigEntry.line, List.append_assoc,
      List.singleton_append, textLines_cons _ hnl hlen]

theorem loadLines_lines {cfg : Config} {es : List ConfigEntry}
    (hclean : ∀ e ∈ es, Clean e.key.str e.value.str)
    (hnodup : ((cfg.entries ++ es).map ConfigEntry.key).Nodup)
    (hbound : (cfg.entries ++ es).length ≤ configMaxEntries) :
    (loadLines cfg (es.map ConfigEntry.line)).entries = cfg.entries ++ es := by
  induction es generalizing cfg with
  | nil => simp [loadLines]
  | cons e es ih =>
    rw [List.forall_mem_cons] at hclean
    have hparse : parseLine (CStr.ofBytes e.line) = some (e.key.str, e.value.str) :=
      parseLine_of_clean hclean.1 e.ofBytes_line
    have hroom : cfg.count < configMaxEntries := by
      simp only [List.length_append, List.length_cons, Config.count] at hbound ⊢
      omega
    have hnew : ∀ x ∈ cfg.entries, x.key.str ≠ e.key.str := by
      intro x hx hkey
      rw [List.map_append, List.map_cons, List.nodup_append] at hnodup
      exact hnodup.2.2 _ (List.mem_map_of_mem hx) _ List.mem_cons_self (CharArray.ext hkey)
    have hset := configSetStr_new e.value.str hnew hroom
    rw [CharArray.copy_str, CharArray.copy_str] at hset
    have happ : (configSetStr cfg e.key.str e.value.str).entries ++ es =
        cfg.entries ++ e :: es := by
      rw [hset, List.append_assoc, List.singleton_append]
    rw [List.map_cons, loadLines, hparse]
    simp only
    rw [if_neg (by omega), ih hclean.2 (by rw [happ]; exact hnodup) (by rw [happ]; exact hbound),
      happ]

/-- A storable table is read back from its file. -/
theorem configLoad_configSave {cfg : Config} (h : Storable cfg) :
    (configLoad (some (configSave cfg))).2 = cfg := by
  ext1
  show (loadLines Config.empty (textLines lineMax (configSave cfg))).entries = _
  rw [configSave, textLines_save h.clean]
  exact loadLines_lines h.clean h.nodup cfg.bound

/-! ## Only storable tables come back

Loading never makes the text longer. A line that is skipped, that updates an entry or
that is cut adds less than its own length, so a table that comes back from its own text
was built by appending clean assignments alone. -/

theorem ConfigEntry.save_modify_le (es : List ConfigEntry) (idx : Nat) (v : CharArray 128) :
    ((es.modify idx fun e => { e with value := v }).flatMap ConfigEntry.line).length ≤
      (es.flatMap ConfigEntry.line).length + v.bytes.length := by
  induction es generalizing idx with
  | nil => cases idx <;> simp
  | cons e es ih =>
    cases idx with
    | zero =>
      rw [List.modify_zero_cons, List.flatMap_cons, List.flatMap_cons, List.length_append,
        List.length_append, ConfigEntry.line_length, ConfigEntry.line_length]
      show e.key.bytes.length + v.bytes.length + 2 + _ ≤ _
      omega
    | succ idx =>
      rw [List.modify_succ_cons, List.flatMap_cons, List.flatMap_cons, List.length_append,
        List.length_append]
      have := ih idx
      omega

/-- An assignment fits in front of its line's newline. -/
theorem parseLine_sublist {s : Bytes} {key value : CStr}
    (h : parseLine (CStr.ofBytes (s ++ [newline])) = some (key, value)) :
    (key.bytes ++ equals :: value.bytes).Sublist s := by
  apply (parseLine_part h).1.trans
  apply CStr.sublist_of_blank (CStr.trim_trimmed _) (by decide : isspace newline = true)
  exact (CStr.trim_sublist _).trans (List.takeWhile_sublist _)

/-- A clean new entry that is stored whole keeps the table storable. -/
theorem storable_append {cfg cfg' : Config} {key value : CStr} (hcfg : Storable cfg)
    (hclean : Clean key value) (hkey : (CharArray.copy 64 key).str = key)
    (hval : (CharArray.copy 128 value).str = value) (hnew : ∀ e ∈ cfg.entries, e.key.str ≠ key)
    (hset : cfg'.entries = cfg.entries ++ [⟨CharArray.copy 64 key, CharArray.copy 128 value⟩]) :
    Storable cfg' := by
  constructor
  · rw [hset]
    intro e he
    rcases List.mem_append.mp he with he | he
    · exact hcfg.clean e he
    · rw [List.mem_singleton.mp he, hkey, hval]
      exact hclean
  · rw [hset, List.map_append, List.map_singleton, List.nodup_append]
    refine ⟨hcfg.nodup, List.pairwise_singleton _ _, fun a ha b hb hab => ?_⟩
    obtain ⟨e, he, rfl⟩ := List.mem_map.mp ha
    rw [List.mem_singleton.mp hb] at hab
    exact hnew e he (by rw [hab, hkey])

/-- One line adds at most its own length, and all of it only as a clean new entry. -/
theorem configSetStr_grow (cfg : Config) {line : Bytes} {key value : CStr} (hline : IsLine line)
    (h : parseLine (CStr.ofBytes line) = some (key, value)) :
    (configSave (configSetStr cfg key value)).length ≤ (configSave cfg).length + line.length ∧
    ((configSave (configSetStr cfg key value)).length = (configSave cfg).length + line.length →
      Storable cfg → Storable (configSetStr cfg key value)) := by
  obtain ⟨s, rfl, hs⟩ := hline
  have hsub := parseLine_sublist h
  have hlen := hsub.length_le
  have hk : (CharArray.copy 64 key).bytes.length ≤ key.bytes.length := CharArray.copy_length_le key
  have hv : (CharArray.copy 128 value).bytes.length ≤ value.bytes.length :=
    CharArray.copy_length_le value
  simp only [List.length_append, List.length_cons, List.length_nil] at hlen ⊢
  rcases configSetStr_cases cfg key value with ⟨idx, hset⟩ | ⟨hnew, _, hset⟩ | ⟨_, hset⟩
  · have := ConfigEntry.save_modify_le cfg.entries idx (CharArray.copy 128 value)
    rw [← hset] at this
    unfold configSave
    exact ⟨by omega, fun he => by omega⟩
  · have hsize : (configSave (configSetStr cfg key value)).length = (configSave cfg).length +
        ((CharArray.copy 64 key).bytes.length + (CharArray.copy 128 value).bytes.length + 2) := by
      rw [configSave, hset, List.flatMap_append, List.length_append, List.flatMap_cons,
        List.flatMap_nil, List.append_nil, ConfigEntry.line_length]
      rfl
    refine ⟨by omega, fun he hcfg => ?_⟩
    have hfull : key.bytes ++ equals :: value.bytes = s :=
      hsub.eq_of_length (by simp only [List.length_append, List.length_cons]; omega)
    have hkey : (CharArray.copy 64 key).str = key :=
      CharArray.copy_eq_of_length (by unfold CStr.length; omega)
    have hval : (CharArray.copy 128 value).str = value :=
      CharArray.copy_eq_of_length (by unfold CStr.length; omega)
    have hclean : Clean key value := (parseLine_part h).2
      (fun hm => hs (hfull ▸ List.mem_append_left _ hm))
      (fun hm => hs (hfull ▸ List.mem_append_right _ (List.mem_cons_of_mem _ hm)))
    exact storable_append hcfg hclean hkey hval hnew hset
  · rw [hset]
    exact ⟨by omega, fun _ hcfg => hcfg⟩

theorem loadLines_grow (cfg : Config) {lines : List Bytes} (hlines : ∀ l ∈ lines, IsLine l) :
    (configSave (loadLines cfg lines)).length ≤ (configSave cfg).length + lines.flatten.length ∧
    ((configSave (loadLines cfg lines)).length = (configSave cfg).length + lines.flatten.length →
      Storable cfg → Storable (loadLines cfg lines)) := by
  induction lines generalizing cfg with
  | nil => exact ⟨by simp [loadLines], fun _ h => h⟩
  | cons l ls ih =>
    rw [List.forall_mem_cons] at hlines
    have hpos : 0 < l.length := by
      obtain ⟨s, rfl, _⟩ := hlines.1
      simp
    rw [loadLines, List.flatten_cons, List.length_append]
    split
    · obtain ⟨h1, h2⟩ := ih cfg hlines.2
      exact ⟨by omega, fun he => by omega⟩
    · next key value hparse =>
      split
      · exact ⟨by omega, fun he => by omega⟩
      · obtain ⟨h1, h2⟩ := ih (configSetStr cfg key value) hlines.2
        obtain ⟨g1, g2⟩ := configSetStr_grow cfg hlines.1 hparse
        exact ⟨by omega, fun he hcfg => h2 (by omega) (g2 (by omega) hcfg)⟩

/-- Entries are short, so the reader sees whole lines of what was written. -/
theorem linesFit_save (es : List ConfigEntry) :
    LinesFit lineMax 0 (es.flatMap ConfigEntry.line) := by
  induction es with
  | nil => rfl
  | cons e es ih =>
    have h1 := e.key.bytes_length_le
    have h2 := e.value.bytes_length_le
    rw [List.flatMap_cons, ConfigEntry.line, List.append_assoc, List.singleton_append]
    refine linesFit_append ?_ ih
    simp only [List.length_append, List.length_cons, lineMax]
    omega

/-- A table that comes back from its own file is storable. -/
theorem storable_of_roundTrip {cfg : Config} (h : (configLoad (some (configSave cfg))).2 = cfg) :
    Storable cfg := by
  have hgrow := loadLines_grow Config.empty
    (textLines_isLine (linesFit_save cfg.entries))
  rw [textLines_flatten] at hgrow
  have hload : loadLines Config.empty (textLines lineMax (cfg.entries.flatMap ConfigEntry.line)) =
      cfg := h
  rw [hload] at hgrow
  exact hgrow.2 (by simp [configSave, Config.empty])
    ⟨by simp [Config.empty], by simp [Config.empty]⟩

/-- **The tables that survive a save and a load.** -/
theorem roundTrip_iff (cfg : Config) :
    (configLoad (some (configSave cfg))).2 = cfg ↔ Storable cfg :=
  ⟨storable_of_roundTrip, configLoad_configSave⟩

end NetMon.Core
