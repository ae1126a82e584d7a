import Mathlib.Data.List.Nodup
import NetMon.Core.ConfigReload

/-!
# Tables with clean keys

A table is `Tidy` when its keys are trimmed and different, as those of a file with keys below 64
bytes are, and as assignments to such keys leave them. A restart then reads every key of the
table, with its value trimmed, and no other (`get_reload_tidy`).
-/

namespace NetMon.Core

open NetMon.Lib

structure Config.Tidy (cfg : Config) : Prop where
  trimmed : ∀ e ∈ cfg.entries, e.key.str.Trimmed
  distinct : cfg.DistinctKeys

/-- No key of the file is cut off when it is stored. -/
def ShortKeys (text : Bytes) : Prop := ∀ kv ∈ assignments text, kv.1.length < 64

instance (text : Bytes) : Decidable (ShortKeys text) :=
  inferInstanceAs (Decidable (∀ kv ∈ assignments text, kv.1.length < 64))

/-! ## Assignments -/

theorem tidy_configSetStr {cfg : Config} (h : cfg.Tidy) {key : CStr} (hkey : key.Trimmed)
    (hfits : key.length < 64) (value : CStr) : (configSetStr cfg key value).Tidy := by
  refine ⟨fun e he => ?_, distinctKeys_step value h.distinct (.inl hfits)⟩
  rcases configSetStr_inv cfg key value with
    ⟨es, a, rest, hentries, -, -, hset⟩ | ⟨-, hset⟩ | hset
  · rw [hset, List.mem_append, List.mem_cons] at he
    have hmem := h.trimmed
    rw [hentries, List.forall_mem_append, List.forall_mem_cons] at hmem
    rcases he with he | rfl | he
    · exact hmem.1 e he
    · exact hmem.2.1
    · exact hmem.2.2 e he
  · rw [hset, List.mem_append, List.mem_singleton] at he
    rcases he with he | rfl
    · exact h.trimmed e he
    · rw [copy_key hfits]
      exact hkey
  · rw [hset] at he
    exact h.trimmed e he

theorem tidy_setAll {cfg : Config} (h : cfg.Tidy) {sets : List (CStr × CStr)}
    (hsets : ∀ kv ∈ sets, kv.1.Trimmed ∧ kv.1.length < 64) : (setAll cfg sets).Tidy := by
  induction sets generalizing cfg with
  | nil => exact h
  | cons kv sets ih =>
    rw [List.forall_mem_cons] at hsets
    exact ih (tidy_configSetStr h hsets.1.1 hsets.1.2 kv.2) hsets.2

theorem tidy_empty : Config.empty.Tidy := ⟨List.forall_mem_nil _, List.nodup_nil⟩

theorem tidy_configLoad {file : Option Bytes} (h : ∀ text ∈ file, ShortKeys text) :
    (configLoad file).2.Tidy := by
  cases file with
  | none => exact tidy_empty
  | some text =>
    obtain ⟨done, hdone, hpre⟩ := untilFull_setAll Config.empty (assignments text)
    rw [configLoad_eq, hdone]
    refine tidy_setAll tidy_empty fun kv hkv => ?_
    have hmem := hpre.subset hkv
    exact ⟨(clean_of_mem_assignments hmem).key_trimmed, h text rfl kv hmem⟩

/-- A written table has short keys. -/
theorem shortKeys_configSave {cfg : Config} (h : cfg.Legible) : ShortKeys (configSave cfg) := by
  intro kv hkv
  rw [assignments_configSave h] at hkv
  obtain ⟨e, -, rfl⟩ := List.mem_map.mp hkv
  have hkey := e.key.bytes_length_le
  exact lt_of_le_of_lt ((CStr.trim_sublist _).length_le.trans hkey) (by decide)

/-! ## Reading -/

theorem getStr_of_new {cfg : Config} {key : CStr} (h : ¬ cfg.Stored key) (dflt : CStr) :
    configGetStr cfg key dflt = dflt := by
  rw [configGetStr_eq, find?_eq_none_of_not_stored h]
  rfl

theorem getStr_of_stored {cfg : Config} {key : CStr} (h : cfg.Stored key) (dflt dflt' : CStr) :
    configGetStr cfg key dflt = configGetStr cfg key dflt' := by
  obtain ⟨e, he, hkey⟩ := h
  have hfound : (cfg.entries.find? fun e => e.key.str = key).isSome :=
    List.find?_isSome.mpr ⟨e, he, decide_eq_true hkey⟩
  obtain ⟨a, ha⟩ := Option.isSome_iff_exists.mp hfound
  rw [configGetStr_eq, configGetStr_eq, ha]
  rfl

/-- A key that is read as whatever it should be is not in the table. -/
theorem not_stored_of_get {cfg : Config} {key : CStr}
    (h : ∀ dflt, configGetStr cfg key dflt = dflt) : ¬ cfg.Stored key := by
  intro hstored
  have hsame := getStr_of_stored hstored .empty (.lit "x")
  rw [h, h] at hsame
  exact absurd hsame (by decide)

theorem getInt_of_new {cfg : Config} {key : CStr} (h : ¬ cfg.Stored key) (dflt : Int) :
    configGetInt cfg key dflt = dflt := by
  unfold configGetInt
  rw [configFind_eq_none.mpr h]

theorem getInt_of_stored {cfg : Config} {key : CStr} (h : cfg.Stored key) (dflt : Int) :
    configGetInt cfg key dflt = (strtol (configGetStr cfg key .empty)).getD dflt :=
  configGetInt_of_get (fun dflt => getStr_of_stored h dflt .empty) dflt

/-- A number is read off what the text is read as. -/
theorem getInt_congr {cfg cfg' : Config} {key : CStr}
    (h : ∀ dflt, configGetStr cfg' key dflt = configGetStr cfg key dflt) (dflt : Int) :
    configGetInt cfg' key dflt = configGetInt cfg key dflt := by
  by_cases hstored : cfg.Stored key
  · rw [getInt_of_stored hstored]
    exact configGetInt_of_get (fun d => (h d).trans (getStr_of_stored hstored d .empty)) dflt
  · have hnew : ∀ d, configGetStr cfg' key d = d := fun d => (h d).trans (getStr_of_new hstored d)
    rw [getInt_of_new hstored, getInt_of_new (not_stored_of_get hnew)]

theorem getStr_set_other {cfg : Config} {k key : CStr} (hne : key ≠ k) (hk : k.length < 64)
    (value dflt : CStr) :
    configGetStr (configSetStr cfg k value) key dflt = configGetStr cfg key dflt := by
  have hlaw : MapLaw cfg k value := mapLaw_iff.mpr (.inl hk)
  by_cases hroom : cfg.Stored k ∨ cfg.count < configMaxEntries
  · exact hlaw.frame hroom key hne dflt
  · rw [not_or, not_lt] at hroom
    rw [hlaw.full hroom.1 (le_antisymm cfg.bound hroom.2)]

theorem getStr_setAll_other {cfg : Config} {sets : List (CStr × CStr)} {key : CStr}
    (hsets : ∀ kv ∈ sets, kv.1.length < 64) (hne : ∀ kv ∈ sets, kv.1 ≠ key) (dflt : CStr) :
    configGetStr (setAll cfg sets) key dflt = configGetStr cfg key dflt := by
  induction sets generalizing cfg with
  | nil => rfl
  | cons kv sets ih =>
    rw [List.forall_mem_cons] at hsets hne
    exact (ih hsets.2 hne.2).trans (getStr_set_other hne.1.symm hsets.1 kv.2 dflt)

/-! ## The restart -/

section Restart

variable {cfg : Config} (h : cfg.Tidy)

include h

/-- The entries taken for a key are those that have it. -/
theorem readAs_tidy (key : CStr) :
    readAs cfg key = cfg.entries.filter fun e => e.key.str = key := by
  refine List.filter_congr fun e he => ?_
  rw [show e.key.str.trim = e.key.str from h.trimmed e he]

theorem laterReading_tidy (key : CStr) : laterReading cfg key = none := by
  have hdistinct := h.distinct
  have hlen : (readAs cfg key).length ≤ 1 := by
    rw [readAs_tidy h, ← List.countP_eq_length_filter]
    have hcount := List.nodup_iff_count_le_one.mp hdistinct key
    rw [List.count, List.countP_map] at hcount
    refine (List.countP_congr fun e _ => ?_).trans_le hcount
    simp
  have htail : ((readAs cfg key).dropWhile fun e => e.key.str ≠ key).tail = [] := by
    apply List.eq_nil_of_length_eq_zero
    have hdrop := (List.dropWhile_sublist (l := readAs cfg key)
      fun e => decide (e.key.str ≠ key)).length_le
    rw [List.length_tail]
    omega
  rw [laterReading, htail]
  rfl

/-- **What a restart reads** of a key. -/
theorem get_reload_tidy (hlegible : cfg.Legible) {key : CStr} (hkey : key.Trimmed) (dflt : CStr) :
    configGetStr (reload cfg) key dflt =
      if cfg.Stored key then (configGetStr cfg key dflt).trim else dflt := by
  rw [get_reload hlegible]
  split
  · rename_i hstored
    rw [lastReading_stored hkey hstored dflt, laterReading_tidy h]
    rfl
  · rename_i hnew
    have hnone : readAs cfg key = [] := by
      rw [readAs_tidy h]
      refine List.filter_eq_nil_iff.mpr fun e he => ?_
      rw [decide_eq_true_eq]
      exact fun heq => hnew ⟨e, he, heq⟩
    rw [hnone]
    rfl

/-- A restart changes no number. -/
theorem getInt_reload_tidy (hlegible : cfg.Legible) {key : CStr} (hkey : key.Trimmed)
    (dflt : Int) : configGetInt (reload cfg) key dflt = configGetInt cfg key dflt := by
  have hget := get_reload_tidy h hlegible hkey
  by_cases hstored : cfg.Stored key
  · simp only [if_pos hstored] at hget
    have htext : ∀ d, configGetStr (reload cfg) key d = (configGetStr cfg key .empty).trim :=
      fun d => by rw [hget, getStr_of_stored hstored d .empty]
    rw [configGetInt_of_get htext, strtol_trim, getInt_of_stored hstored]
  · simp only [if_neg hstored] at hget
    rw [getInt_of_new hstored, getInt_of_new (not_stored_of_get hget)]

end Restart

end NetMon.Core
