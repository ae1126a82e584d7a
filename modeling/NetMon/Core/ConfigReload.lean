import NetMon.Core.ConfigLoad

/-!
# The table after a restart

`config_save` writes the entries as they are and `config_load` trims what it reads, so a
table made of `Legible` assignments comes back with its keys and values trimmed
(`reload_eq`). A key that was cut where a blank stands is then another key: `readAs` are
the entries taken for a key, and the last of them counts (`get_reload`).
-/

namespace NetMon.Core

open NetMon.Lib

/-- A key and a value that one line of text can carry, but for blanks at their ends. -/
structure Legible (key value : CStr) : Prop where
  key_head : ∃ c, key.bytes.head? = some c ∧ isspace c = false ∧ c ≠ hash
  key_equals : equals ∉ key.bytes
  key_newline : newline ∉ key.bytes
  value_newline : newline ∉ value.bytes

/-- Every entry can be read from its line. -/
def Config.Legible (cfg : Config) : Prop :=
  ∀ e ∈ cfg.entries, NetMon.Core.Legible e.key.str e.value.str

/-- What the reader makes of an entry's line. -/
def ConfigEntry.reading (e : ConfigEntry) : CStr × CStr := (e.key.str.trim, e.value.str.trim)

/-- The table a restart loads. -/
def reload (cfg : Config) : Config := (configLoad (some (configSave cfg))).2

/-! ## Legible tables -/

theorem Legible.key_ne_nil {key value : CStr} (h : Legible key value) : key.bytes ≠ [] := by
  obtain ⟨c, hc, -⟩ := h.key_head
  rintro hnil
  rw [hnil] at hc
  cases hc

theorem Clean.legible {key value : CStr} (h : Clean key value) : Legible key value := by
  obtain ⟨c, l, hcl⟩ := List.exists_cons_of_ne_nil h.key_ne_nil
  have hc : key.bytes.head? = some c := by rw [hcl]; rfl
  refine ⟨⟨c, hc, (CStr.trimmed_iff.mp h.key_trimmed).1 c hc, ?_⟩, h.key_equals, h.key_newline,
    h.value_newline⟩
  rintro rfl
  exact h.key_head hc

/-- What fits of them is legible too. -/
theorem Legible.trunc {key value : CStr} (h : Legible key value) {k v : Nat} (hk : 0 < k) :
    Legible (key.trunc k) (value.trunc v) := by
  obtain ⟨c, hc, hvisible⟩ := h.key_head
  refine ⟨⟨c, ?_, hvisible⟩, fun hm => h.key_equals (List.mem_of_mem_take hm),
    fun hm => h.key_newline (List.mem_of_mem_take hm),
    fun hm => h.value_newline (List.mem_of_mem_take hm)⟩
  show (key.bytes.take k).head? = some c
  rw [List.head?_take, if_neg hk.ne', hc]

/-- The first entry that has a stored key. -/
theorem Config.Stored.split {cfg : Config} {key : CStr} (h : cfg.Stored key) :
    ∃ es e rest, cfg.entries = es ++ e :: rest ∧ e.key.str = key ∧
      (∀ a ∈ es, a.key.str ≠ key) ∧ configFind cfg key = some es.length := by
  obtain ⟨idx, hidx⟩ := Option.ne_none_iff_exists'.mp (stored_iff_configFind.mp h)
  obtain ⟨hlt, hkey, hfirst⟩ := List.findIdx?_eq_some_iff_getElem.mp hidx
  refine ⟨cfg.entries.take idx, cfg.entries[idx], cfg.entries.drop (idx + 1), ?_,
    of_decide_eq_true hkey, fun a ha => ?_, ?_⟩
  · rw [List.getElem_cons_drop, List.take_append_drop]
  · obtain ⟨j, hj, rfl⟩ := List.mem_take_iff_getElem.mp ha
    exact fun heq => absurd (decide_eq_true heq) (hfirst j (by omega))
  · rw [List.length_take_of_le hlt.le, hidx]

/-- All an insertion can do: it changes the first entry that has the key, adds one behind the
others, or is dropped. -/
theorem configSetStr_inv (cfg : Config) (key value : CStr) :
    (∃ es e rest, cfg.entries = es ++ e :: rest ∧ e.key.str = key ∧ (∀ a ∈ es, a.key.str ≠ key) ∧
      (configSetStr cfg key value).entries =
        es ++ { e with value := CharArray.copy 128 value } :: rest) ∨
    ((∀ a ∈ cfg.entries, a.key.str ≠ key) ∧ (configSetStr cfg key value).entries =
      cfg.entries ++ [⟨CharArray.copy 64 key, CharArray.copy 128 value⟩]) ∨
    configSetStr cfg key value = cfg := by
  by_cases hst : cfg.Stored key
  · obtain ⟨es, e, rest, hentries, he, hes, hfind⟩ := hst.split
    obtain ⟨idx, hidx, hset⟩ := configSetStr_stored value hst
    obtain rfl : idx = es.length := Option.some.inj (hidx.symm.trans hfind)
    refine Or.inl ⟨es, e, rest, hentries, he, hes, ?_⟩
    rw [hset, hentries, List.modify_eq_take_cons_drop (by simp)]
    simp
  · by_cases hfull : cfg.count = configMaxEntries
    · exact Or.inr (Or.inr (configSetStr_full value hst hfull))
    · exact Or.inr (Or.inl ⟨fun a ha heq => hst ⟨a, ha, heq⟩,
        configSetStr_append value hst (lt_of_le_of_ne cfg.bound hfull)⟩)

theorem legible_configSetStr {cfg : Config} {key value : CStr} (hcfg : cfg.Legible)
    (h : Legible key value) : (configSetStr cfg key value).Legible := by
  unfold Config.Legible at hcfg ⊢
  rcases configSetStr_inv cfg key value with
    ⟨es, e, rest, hentries, -, -, hset⟩ | ⟨-, hset⟩ | hset
  · rw [hentries, List.forall_mem_append, List.forall_mem_cons] at hcfg
    rw [hset, List.forall_mem_append, List.forall_mem_cons]
    obtain ⟨hes, he, hrest⟩ := hcfg
    exact ⟨hes, ⟨he.key_head, he.key_equals, he.key_newline,
      (h.trunc (k := 1) Nat.one_pos).value_newline⟩, hrest⟩
  · rw [hset, List.forall_mem_append, List.forall_mem_singleton]
    exact ⟨hcfg, h.trunc (by decide)⟩
  · rwa [hset]

theorem legible_setAll {cfg : Config} {sets : List (CStr × CStr)} (hcfg : cfg.Legible)
    (hsets : ∀ kv ∈ sets, Legible kv.1 kv.2) : (setAll cfg sets).Legible := by
  induction sets generalizing cfg with
  | nil => exact hcfg
  | cons kv sets ih =>
    rw [List.forall_mem_cons] at hsets
    exact ih (legible_configSetStr hcfg hsets.1) hsets.2

/-- An assignment found in a text is clean. -/
theorem clean_of_mem_assignments {text : Bytes} {kv : CStr × CStr} (h : kv ∈ assignments text) :
    Clean kv.1 kv.2 := by
  rw [assignments_fileLines] at h
  obtain ⟨l, hl, hkv⟩ := List.mem_flatMap.mp h
  obtain ⟨p, hp, hparse⟩ := List.mem_filterMap.mp hkv
  have hnl : newline ∉ (CStr.ofBytes p).trim.bytes := fun hm => by
    apply newline_notMem_fileLines hl
    rw [← textLines_flatten lineMax l]
    exact (List.sublist_flatten_of_mem hp).subset
      ((List.takeWhile_sublist _).subset ((CStr.trim_sublist _).subset hm))
  obtain ⟨hsub, hclean⟩ := @parseLine_part _ kv.1 kv.2 hparse
  exact hclean (fun hm => hnl (hsub.subset (List.mem_append_left _ hm)))
    (fun hm => hnl (hsub.subset (List.mem_append_right _ (List.mem_cons_of_mem _ hm))))

/-- The assignments up to a full table are a first part of all. -/
theorem untilFull_setAll (cfg : Config) (sets : List (CStr × CStr)) :
    ∃ done, (untilFull cfg sets).1 = setAll cfg done ∧ done <+: sets := by
  induction sets generalizing cfg with
  | nil => exact ⟨[], rfl, List.nil_prefix⟩
  | cons kv sets ih =>
    rw [untilFull]
    split
    · exact ⟨[], rfl, List.nil_prefix⟩
    · obtain ⟨done, hdone, hpre⟩ := ih (configSetStr cfg kv.1 kv.2)
      exact ⟨kv :: done, hdone, List.cons_prefix_cons.mpr ⟨rfl, hpre⟩⟩

/-- Loaded tables are legible. -/
theorem legible_configLoad (file : Option Bytes) : (configLoad file).2.Legible := by
  have hempty : Config.empty.Legible := fun e he => nomatch he
  cases file with
  | none => exact hempty
  | some text =>
    obtain ⟨done, hdone, hpre⟩ := untilFull_setAll Config.empty (assignments text)
    rw [configLoad_eq, hdone]
    exact legible_setAll hempty fun kv hkv =>
      (clean_of_mem_assignments (hpre.subset hkv)).legible

/-! ## Reading a written table -/

/-- A legible line is read up to blanks. -/
theorem parseLine_of_legible {key value line : CStr} (h : Legible key value)
    (hl : line.bytes = key.bytes ++ equals :: value.bytes) :
    parseLine line = some (key.trim, value.trim) := by
  obtain ⟨c, hc, hvisible, hhash⟩ := h.key_head
  have hhead : line.bytes.head? = some c := by
    rw [hl, List.head?_append_of_ne_nil _ h.key_ne_nil, hc]
  let v : CStr := value.part (value.bytes.rdropWhile isspace)
    (List.rdropWhile_prefix _ _).sublist
  have htrim : line.trim.bytes = key.bytes ++ equals :: v.bytes :=
    CStr.trim_append_cons hl (fun b hb => by rw [hhead] at hb; cases hb; exact hvisible)
      (by decide)
  have hne : line.trim.bytes ≠ [] := by rw [htrim]; simp
  have hfirst : line.trim.bytes.head? ≠ some hash := by
    rw [htrim, List.head?_append_of_ne_nil _ h.key_ne_nil, hc]
    exact fun heq => hhash (Option.some.inj heq)
  have hsplit : line.trim.split equals = some (key, v) :=
    CStr.split_eq_some.mpr ⟨htrim, h.key_equals⟩
  have hkey : key.trim.bytes ≠ [] :=
    List.ne_nil_of_mem ((CStr.mem_trim_iff hvisible).mpr (List.mem_of_head? hc))
  have hvalue : v.trim = value.trim := CStr.trim_of_rdropWhile rfl
  unfold parseLine
  simp only [hne, hfirst, or_self, if_false, hsplit, if_neg hkey, hvalue]

/-- The assignment an entry's line holds. -/
theorem assignments_line {e : ConfigEntry} (h : Legible e.key.str e.value.str) :
    assignments (e.key.bytes ++ equals :: e.value.bytes) = [e.reading] := by
  have hnl : newline ∉ e.key.bytes ++ equals :: e.value.bytes := by
    simp only [List.mem_append, List.mem_cons, not_or]
    exact ⟨h.key_newline, by decide, h.value_newline⟩
  have hnul : 0 ∉ e.key.bytes ++ equals :: e.value.bytes := by
    simp only [List.mem_append, List.mem_cons, not_or]
    exact ⟨e.key.str.nonul, by decide, e.value.str.nonul⟩
  have hlen : (e.key.bytes ++ equals :: e.value.bytes).length ≤ lineMax := by
    have hk := e.key.bytes_length_le
    have hv := e.value.bytes_length_le
    simp only [List.length_append, List.length_cons, lineMax]
    omega
  have hparse : parseLine (CStr.ofBytes (e.key.bytes ++ equals :: e.value.bytes)) =
      some e.reading := parseLine_of_legible h (CStr.ofBytes_of_nonul hnul)
  rw [assignments_short hnl hlen, hparse]
  rfl

theorem assignments_configSave {cfg : Config} (h : cfg.Legible) :
    assignments (configSave cfg) = cfg.entries.map ConfigEntry.reading := by
  unfold Config.Legible at h
  unfold configSave
  generalize cfg.entries = es at h
  induction es with
  | nil => rfl
  | cons e es ih =>
    rw [List.forall_mem_cons] at h
    rw [List.flatMap_cons, ConfigEntry.line, List.append_assoc, List.singleton_append,
      assignments_append, assignments_line h.1, ih h.2]
    rfl

/-- With room for all assignments none of them meets a full table. -/
theorem untilFull_room {cfg : Config} {sets : List (CStr × CStr)}
    (h : cfg.count + sets.length ≤ configMaxEntries) :
    (untilFull cfg sets).1 = setAll cfg sets := by
  induction sets generalizing cfg with
  | nil => rfl
  | cons kv sets ih =>
    rw [List.length_cons] at h
    have hcount := (count_configSetStr cfg kv.1 kv.2).2
    rw [untilFull, if_neg (by omega)]
    exact ih (by omega)

/-- A legible table is read back entry by entry. -/
theorem reload_eq {cfg : Config} (h : cfg.Legible) :
    reload cfg = setAll Config.empty (cfg.entries.map ConfigEntry.reading) := by
  rw [reload, configLoad_eq, assignments_configSave h]
  apply untilFull_room
  rw [List.length_map]
  exact (Nat.zero_add _).trans_le cfg.bound

/-! ## Insertions that are not dropped -/

theorem stored_of_setStr {cfg : Config} {key k value : CStr} (hne : k ≠ key)
    (hk : k.length < 64) (h : (configSetStr cfg k value).Stored key) : cfg.Stored key := by
  rcases configSetStr_inv cfg k value with
    ⟨es, a, rest, hentries, hak, -, hset⟩ | ⟨-, hset⟩ | hset
  · obtain ⟨e, he, hkey⟩ := h
    rw [hset, List.mem_append, List.mem_cons] at he
    rcases he with he | rfl | he
    · exact ⟨e, by rw [hentries]; simp [he], hkey⟩
    · exact absurd (hak.symm.trans hkey) hne
    · exact ⟨e, by rw [hentries]; simp [he], hkey⟩
  · obtain ⟨e, he, hkey⟩ := h
    rw [hset, List.mem_append, List.mem_singleton] at he
    rcases he with he | rfl
    · exact ⟨e, he, hkey⟩
    · exact absurd ((copy_key hk).symm.trans hkey) hne
  · rwa [hset] at h

theorem count_setAll_le (cfg : Config) (sets : List (CStr × CStr)) :
    (setAll cfg sets).count ≤ cfg.count + sets.length := by
  induction sets generalizing cfg with
  | nil => exact Nat.le_refl _
  | cons kv sets ih =>
    have hrest := ih (configSetStr cfg kv.1 kv.2)
    have hone := (count_configSetStr cfg kv.1 kv.2).2
    rw [List.length_cons]
    show (setAll (configSetStr cfg kv.1 kv.2) sets).count ≤ _
    omega

/-- After insertions of keys that fit, a key that is in the table has the value last assigned
to it; with room for all of them every key has. -/
theorem get_setAll_of_kept {cfg : Config} {sets : List (CStr × CStr)}
    (hkeys : ∀ kv ∈ sets, kv.1.length < 64) {key : CStr}
    (hkept : (setAll cfg sets).Stored key ∨ cfg.count + sets.length ≤ configMaxEntries)
    (dflt : CStr) : configGetStr (setAll cfg sets) key dflt =
      ((lastAssigned key sets).map (·.trunc 127)).getD (configGetStr cfg key dflt) := by
  induction sets using List.reverseRecOn with
  | nil => rfl
  | append_singleton sets kv ih =>
    have hconcat : setAll cfg (sets ++ [kv]) = configSetStr (setAll cfg sets) kv.1 kv.2 :=
      setAll_append cfg sets [kv]
    rw [List.forall_mem_append, List.forall_mem_singleton] at hkeys
    have hlaw : MapLaw (setAll cfg sets) kv.1 kv.2 := mapLaw_iff.mpr (Or.inl hkeys.2)
    have hcount := count_setAll_le cfg sets
    rw [List.length_append, List.length_singleton] at hkept
    rw [hconcat] at hkept ⊢
    rw [hlaw.get (hkept.imp_right fun hroom => by omega), lastAssigned_concat]
    by_cases hkey : kv.1 = key
    · rw [if_pos hkey, if_pos hkey]
      rfl
    · rw [if_neg hkey, if_neg hkey]
      exact ih hkeys.1 (hkept.imp (stored_of_setStr hkey hkeys.2) fun hroom => by omega)

/-! ## The entries taken for a key -/

/-- The entries whose lines are read as assignments to the key. -/
def readAs (cfg : Config) (key : CStr) : List ConfigEntry :=
  cfg.entries.filter fun e => e.key.str.trim = key

/-- What the last of some entries is read as. -/
def lastReading (es : List ConfigEntry) : Option CStr := es.getLast?.map fun e => e.value.str.trim

/-- What another entry behind the key's own is read as, in its place. -/
def laterReading (cfg : Config) (key : CStr) : Option CStr :=
  lastReading ((readAs cfg key).dropWhile fun e => e.key.str ≠ key).tail

theorem lastAssigned_readings (key : CStr) (es : List ConfigEntry) :
    lastAssigned key (es.map ConfigEntry.reading) =
      lastReading (es.filter fun e => e.key.str.trim = key) := by
  induction es using List.reverseRecOn with
  | nil => rfl
  | append_singleton es e ih =>
    rw [List.map_append, List.map_singleton, lastAssigned_concat, ih, List.filter_append]
    by_cases he : e.key.str.trim = key
    · simp [ConfigEntry.reading, lastReading, he]
    · simp [ConfigEntry.reading, he]

/-- After a restart the last entry taken for a key counts. -/
theorem get_reload {cfg : Config} (h : cfg.Legible) (key dflt : CStr) :
    configGetStr (reload cfg) key dflt = (lastReading (readAs cfg key)).getD dflt := by
  have hshort : ∀ kv ∈ cfg.entries.map ConfigEntry.reading, kv.1.length < 64 := by
    intro kv hkv
    obtain ⟨e, -, rfl⟩ := List.mem_map.mp hkv
    have hkey := e.key.bytes_length_le
    exact lt_of_le_of_lt ((CStr.trim_sublist _).length_le.trans hkey) (by decide)
  have hroom : Config.empty.count + (cfg.entries.map ConfigEntry.reading).length ≤
      configMaxEntries := by
    rw [List.length_map]
    exact (Nat.zero_add _).trans_le cfg.bound
  have hwhole : (lastReading (readAs cfg key)).map (·.trunc 127) =
      lastReading (readAs cfg key) := by
    unfold lastReading
    rw [Option.map_map]
    apply Option.map_congr
    intro e _
    exact CStr.trunc_of_le ((CStr.trim_sublist _).length_le.trans e.value.bytes_length_le)
  rw [reload_eq h, get_setAll_of_kept hshort (Or.inr hroom), lastAssigned_readings]
  show ((lastReading (readAs cfg key)).map (·.trunc 127)).getD dflt = _
  rw [hwhole]

/-- Assigning to one key leaves the entries taken for another one. -/
theorem readAs_set {cfg : Config} {key k : CStr} (value : CStr) (hne : k ≠ key) (hk : k.Trimmed)
    (hfits : k.length < 64) : readAs (configSetStr cfg k value) key = readAs cfg key := by
  have hskip : ∀ e : ConfigEntry, e.key.str = k → ¬ e.key.str.trim = key := fun e he htrim => by
    rw [he, show k.trim = k from hk] at htrim
    exact hne htrim
  unfold readAs
  rcases configSetStr_inv cfg k value with ⟨es, e, rest, hentries, he, -, hset⟩ | ⟨-, hset⟩ | hset
  · rw [hset, hentries, List.filter_append, List.filter_append,
      List.filter_cons_of_neg (by simpa using hskip e he),
      List.filter_cons_of_neg (by simpa using hskip e he)]
  · have hnew : ¬ (CharArray.copy 64 k).str.trim = key :=
      hskip ⟨CharArray.copy 64 k, CharArray.copy 128 value⟩ (copy_key hfits)
    rw [hset, List.filter_append, List.filter_cons_of_neg (by simpa using hnew), List.filter_nil,
      List.append_nil]
  · rw [hset]

/-- The entries taken for a stored key, around the first one that has it. -/
theorem readAs_split {cfg : Config} {key : CStr} (hkey : key.Trimmed) {es rest : List ConfigEntry}
    {e : ConfigEntry} (hentries : cfg.entries = es ++ e :: rest) (he : e.key.str = key)
    (hes : ∀ a ∈ es, a.key.str ≠ key) :
    ∃ es', (∀ a ∈ es', a.key.str ≠ key) ∧
      readAs cfg key = es' ++ e :: rest.filter fun e => e.key.str.trim = key := by
  refine ⟨es.filter fun e => e.key.str.trim = key,
    fun a ha => hes a (List.mem_of_mem_filter ha), ?_⟩
  have htrim : e.key.str.trim = key := by rw [he]; exact hkey
  rw [readAs, hentries, List.filter_append, List.filter_cons_of_pos (by simpa using htrim)]

theorem laterReading_split {cfg : Config} {key : CStr} {es rest : List ConfigEntry}
    {e : ConfigEntry} (hread : readAs cfg key = es ++ e :: rest) (he : e.key.str = key)
    (hes : ∀ a ∈ es, a.key.str ≠ key) : laterReading cfg key = lastReading rest := by
  rw [laterReading, hread, List.dropWhile_append_of_pos fun a ha => by simpa using hes a ha,
    List.dropWhile_cons_of_neg (by simpa using he), List.tail_cons]

theorem laterReading_of_not_stored {cfg : Config} {key : CStr} (h : ¬ cfg.Stored key) :
    laterReading cfg key = none := by
  have hall : ∀ e ∈ readAs cfg key, decide (e.key.str ≠ key) = true := fun e he =>
    decide_eq_true fun heq => h ⟨e, List.mem_of_mem_filter he, heq⟩
  rw [laterReading, List.dropWhile_eq_nil_iff.mpr hall]
  rfl

/-- An assignment does not change what stands behind a key's own entry. -/
theorem laterReading_set {cfg : Config} {key k : CStr} (value : CStr) (hk : k.Trimmed)
    (hfits : k.length < 64) :
    laterReading (configSetStr cfg k value) key = laterReading cfg key := by
  by_cases hne : k = key
  · subst hne
    rcases configSetStr_inv cfg k value with
      ⟨es, e, rest, hentries, he, hes, hset⟩ | ⟨hnew, hset⟩ | hset
    · obtain ⟨es', hes', hread⟩ := readAs_split hk hentries he hes
      obtain ⟨es'', hes'', hread'⟩ := readAs_split hk hset he hes
      rw [laterReading_split hread he hes', laterReading_split hread' he hes'']
    · obtain ⟨es', hes', hread⟩ := readAs_split hk hset (copy_key hfits) hnew
      have hst : ¬ cfg.Stored k := fun ⟨e, he, heq⟩ => hnew e he heq
      rw [laterReading_split hread (copy_key hfits) hes', laterReading_of_not_stored hst]
      rfl
    · rw [hset]
  · rw [laterReading, laterReading, readAs_set value hne hk hfits]

/-- A stored key is read as its own value, unless another entry behind it is taken for it. -/
theorem lastReading_stored {cfg : Config} {key : CStr} (hkey : key.Trimmed) (h : cfg.Stored key)
    (dflt : CStr) : lastReading (readAs cfg key) =
      some ((laterReading cfg key).getD (configGetStr cfg key dflt).trim) := by
  obtain ⟨es, e, rest, hentries, he, hes, -⟩ := h.split
  obtain ⟨es', hes', hread⟩ := readAs_split hkey hentries he hes
  have hget : configGetStr cfg key dflt = e.value.str := by
    rw [configGetStr_eq, hentries, List.find?_append,
      List.find?_eq_none.mpr fun a ha => by simpa using hes a ha, Option.none_or,
      List.find?_cons_of_pos (by simpa using he)]
    rfl
  rw [laterReading_split hread he hes', hread, hget]
  generalize rest.filter (fun e => e.key.str.trim = key) = later
  unfold lastReading
  cases later using List.reverseRecOn with
  | nil => simp
  | append_singleton later l =>
    rw [← List.cons_append, ← List.append_assoc, List.getLast?_concat, List.getLast?_concat]
    rfl

/-! ## Insertions before a restart -/

section Sets

variable {cfg : Config} {sets : List (CStr × CStr)}
  (hsets : ∀ kv ∈ sets, kv.1.Trimmed ∧ kv.1.length < 64)

include hsets

theorem readAs_setAll {key : CStr} (hkey : ∀ kv ∈ sets, kv.1 ≠ key) :
    readAs (setAll cfg sets) key = readAs cfg key := by
  induction sets generalizing cfg with
  | nil => rfl
  | cons kv sets ih =>
    rw [List.forall_mem_cons] at hsets hkey
    exact (ih hsets.2 hkey.2).trans (readAs_set kv.2 hkey.1 hsets.1.1 hsets.1.2)

theorem laterReading_setAll (key : CStr) :
    laterReading (setAll cfg sets) key = laterReading cfg key := by
  induction sets generalizing cfg with
  | nil => rfl
  | cons kv sets ih =>
    rw [List.forall_mem_cons] at hsets
    exact (ih hsets.2).trans (laterReading_set kv.2 hsets.1.1 hsets.1.2)

/-- A key that was not assigned to is read as it would have been before. -/
theorem get_reload_other (hcfg : cfg.Legible) (hafter : (setAll cfg sets).Legible) {key : CStr}
    (hkey : ∀ kv ∈ sets, kv.1 ≠ key) (dflt : CStr) :
    configGetStr (reload (setAll cfg sets)) key dflt = configGetStr (reload cfg) key dflt := by
  rw [get_reload hafter, get_reload hcfg, readAs_setAll hsets hkey]

/-- An assigned key is read as its value, unless there was an entry behind it that is taken
for it. -/
theorem get_reload_assigned (hafter : (setAll cfg sets).Legible) {key value : CStr}
    (hkey : key.Trimmed) (hkept : (setAll cfg sets).Stored key)
    (hlast : lastAssigned key sets = some value) (hvalue : value.Trimmed)
    (hfits : value.length ≤ 127) (dflt : CStr) :
    configGetStr (reload (setAll cfg sets)) key dflt = (laterReading cfg key).getD value := by
  have hget : configGetStr (setAll cfg sets) key dflt = value := by
    rw [get_setAll_of_kept (fun kv hkv => (hsets kv hkv).2) (Or.inl hkept), hlast]
    exact CStr.trunc_of_le hfits
  rw [get_reload hafter, lastReading_stored hkey hkept dflt, hget,
    show value.trim = value from hvalue, laterReading_setAll hsets]
  rfl

end Sets

/-- Among assignments to different keys there is no later one. -/
theorem lastAssigned_of_mem {sets : List (CStr × CStr)} {key value : CStr}
    (hnodup : (sets.map Prod.fst).Nodup) (h : (key, value) ∈ sets) :
    lastAssigned key sets = some value := by
  induction sets using List.reverseRecOn with
  | nil => cases h
  | append_singleton sets kv ih =>
    rw [List.map_append, List.map_singleton, List.nodup_append] at hnodup
    rw [lastAssigned_concat]
    rcases List.mem_append.mp h with hmem | hmem
    · have hne : kv.1 ≠ key := fun heq =>
        hnodup.2.2 key (List.mem_map_of_mem hmem) kv.1 List.mem_cons_self heq.symm
      rw [if_neg hne, ih hnodup.1 hmem]
    · rw [← List.mem_singleton.mp hmem, if_pos rfl]

end NetMon.Core
