import NetMon.Core.Config
import NetMon.Lib.Lookup
import NetMon.Lib.Machine

/-!
# The configuration store as a finite map

`config_set_str` looks the caller's whole key up among keys that were cut to 63 bytes
when they were stored. `mapLaw_iff` says for which insertions the laws of a map hold,
and `finiteMap_iff` for which runs of insertions the store is one throughout.
-/

namespace NetMon.Core

open NetMon.Lib

namespace Config

/-- The key is in the table. -/
def Stored (cfg : Config) (key : CStr) : Prop := ∃ e ∈ cfg.entries, e.key.str = key

/-- No two entries in use have one key. -/
def DistinctKeys (cfg : Config) : Prop := (cfg.entries.map fun e => e.key.str).Nodup

instance (cfg : Config) (key : CStr) : Decidable (cfg.Stored key) :=
  inferInstanceAs (Decidable (∃ e ∈ cfg.entries, e.key.str = key))

instance (cfg : Config) : Decidable cfg.DistinctKeys :=
  inferInstanceAs (Decidable (List.Nodup _))

end Config

/-- What `config_set_str` owes its caller: the value can be read back, as far as it fits,
every other key reads as before, and a full table drops a new key without a trace. -/
structure MapLaw (cfg : Config) (key value : CStr) : Prop where
  get_set : cfg.Stored key ∨ cfg.count < configMaxEntries →
    ∀ dflt, configGetStr (configSetStr cfg key value) key dflt = value.trunc 127
  frame : cfg.Stored key ∨ cfg.count < configMaxEntries →
    ∀ other, other ≠ key → ∀ dflt,
      configGetStr (configSetStr cfg key value) other dflt = configGetStr cfg other dflt
  full : ¬ cfg.Stored key → cfg.count = configMaxEntries → configSetStr cfg key value = cfg

/-- The table is a finite map within its capacity. -/
structure FiniteMap (cfg : Config) : Prop where
  count_le : cfg.count ≤ configMaxEntries
  distinct : cfg.DistinctKeys

/-- The store under insertions. -/
def configStore : Machine Config (CStr × CStr) Unit where
  step cfg kv := configSetStr cfg kv.1 kv.2
  out _ _ := []

/-! ## Reading -/

theorem configGetStr_eq (cfg : Config) (key dflt : CStr) :
    configGetStr cfg key dflt =
      ((cfg.entries.find? fun e => e.key.str = key).map fun e => e.value.str).getD dflt := by
  rw [List.find?_eq_bind_findIdx?_getElem?]
  unfold configGetStr configFind
  cases cfg.entries.findIdx? fun e => e.key.str = key <;> rfl

theorem configFind_eq_none {cfg : Config} {key : CStr} :
    configFind cfg key = none ↔ ¬ cfg.Stored key := by
  simp [configFind, List.findIdx?_eq_none_iff, Config.Stored]

theorem find?_eq_none_of_not_stored {cfg : Config} {key : CStr} (h : ¬ cfg.Stored key) :
    (cfg.entries.find? fun e => e.key.str = key) = none := by
  rw [List.find?_eq_none]
  exact fun e he hk => h ⟨e, he, of_decide_eq_true hk⟩

/-- A number is read off the string. -/
theorem configGetInt_of_get {cfg : Config} {key value : CStr}
    (h : ∀ dflt, configGetStr cfg key dflt = value) (dflt : Int) :
    configGetInt cfg key dflt = (strtol value).getD dflt := by
  have hget : ∀ d, ((cfg.entries.find? fun e => e.key.str = key).map
      fun e => e.value.str).getD d = value := fun d => by rw [← configGetStr_eq, h]
  have hint : configGetInt cfg key dflt =
      ((cfg.entries.find? fun e => e.key.str = key).bind
        fun e => strtol e.value.str).getD dflt := by
    rw [List.find?_eq_bind_findIdx?_getElem?]
    unfold configGetInt configFind
    cases cfg.entries.findIdx? fun e => e.key.str = key <;> rfl
  rw [hint]
  cases hfind : cfg.entries.find? fun e => e.key.str = key with
  | none =>
    -- two defaults cannot both be the value
    simp only [hfind, Option.map_none, Option.getD_none] at hget
    exact absurd ((hget (CStr.lit "a")).trans (hget CStr.empty).symm) (by decide)
  | some e =>
    simp only [hfind, Option.map_some, Option.getD_some] at hget
    rw [Option.bind_some, hget CStr.empty]

/-- A stored key has at most 63 bytes. -/
theorem Config.Stored.length_lt {cfg : Config} {key : CStr} (h : cfg.Stored key) :
    key.length < 64 := by
  obtain ⟨e, -, rfl⟩ := h
  exact Nat.lt_of_le_pred (by decide) e.key.fits

/-! ## Insertion at a stored key and at a new one -/

theorem configSetStr_stored {cfg : Config} {key : CStr} (value : CStr) (h : cfg.Stored key) :
    ∃ idx, configFind cfg key = some idx ∧ (configSetStr cfg key value).entries =
      cfg.entries.modify idx fun e => { e with value := CharArray.copy 128 value } := by
  cases hfind : configFind cfg key with
  | none => exact absurd h (configFind_eq_none.mp hfind)
  | some idx =>
    refine ⟨idx, rfl, ?_⟩
    unfold configSetStr
    rw [hfind]

theorem configSetStr_full {cfg : Config} {key : CStr} (value : CStr) (h : ¬ cfg.Stored key)
    (hfull : cfg.count = configMaxEntries) : configSetStr cfg key value = cfg := by
  unfold configSetStr
  rw [configFind_eq_none.mpr h]
  exact dif_neg (by omega)

theorem configSetStr_append {cfg : Config} {key : CStr} (value : CStr) (h : ¬ cfg.Stored key)
    (hroom : cfg.count < configMaxEntries) : (configSetStr cfg key value).entries =
      cfg.entries ++ [⟨CharArray.copy 64 key, CharArray.copy 128 value⟩] :=
  configSetStr_new value (fun e he hk => h ⟨e, he, hk⟩) hroom

theorem copy_key {key : CStr} (h : key.length < 64) : (CharArray.copy 64 key).str = key :=
  CStr.trunc_of_le (Nat.le_of_lt_succ h)

/-- Updating a stored key meets the laws. -/
theorem mapLaw_of_stored {cfg : Config} {key : CStr} (value : CStr) (h : cfg.Stored key) :
    MapLaw cfg key value := by
  obtain ⟨idx, hidx, hset⟩ := configSetStr_stored value h
  refine ⟨fun _ dflt => ?_, fun _ other hne dflt => ?_, fun hnot _ => absurd h hnot⟩
  · obtain ⟨e, he, hk⟩ := h
    obtain ⟨e', he'⟩ : ∃ e', (cfg.entries.find? fun e => e.key.str = key) = some e' :=
      Option.isSome_iff_exists.mp (List.find?_isSome.mpr ⟨e, he, decide_eq_true hk⟩)
    have hfound := find?_modify_self (p := fun e : ConfigEntry => e.key.str = key)
      (f := fun e => { e with value := CharArray.copy 128 value }) (fun _ => rfl) hidx
    rw [configGetStr_eq, hset, hfound, he']
    rfl
  · rw [configGetStr_eq, configGetStr_eq, hset, find?_modify_other (fun e he => ?_) hidx]
    have hk : e.key.str ≠ other := by rw [of_decide_eq_true he]; exact hne.symm
    exact ⟨decide_eq_false hk, decide_eq_false hk⟩

/-- Storing a new key that fits meets the laws. -/
theorem mapLaw_of_new {cfg : Config} {key : CStr} (value : CStr) (h : ¬ cfg.Stored key)
    (hfits : key.length < 64) : MapLaw cfg key value := by
  refine ⟨fun hroom dflt => ?_, fun hroom other hne dflt => ?_,
    fun _ hfull => configSetStr_full value h hfull⟩
  · rw [configGetStr_eq, configSetStr_append value h (hroom.resolve_left h), List.find?_append,
      find?_eq_none_of_not_stored h, Option.none_or,
      List.find?_cons_of_pos (by simpa using copy_key hfits)]
    rfl
  · have hk : (CharArray.copy 64 key).str ≠ other := by rw [copy_key hfits]; exact hne.symm
    rw [configGetStr_eq, configGetStr_eq, configSetStr_append value h (hroom.resolve_left h),
      List.find?_append, List.find?_cons_of_neg (by simpa using hk), List.find?_nil,
      Option.or_none]

/-- An insertion meets the laws when its key fits, or is dropped by a full table. A longer
key is stored cut off, where no lookup of the whole key finds it. -/
theorem mapLaw_iff {cfg : Config} {key value : CStr} :
    MapLaw cfg key value ↔ key.length < 64 ∨ cfg.count = configMaxEntries := by
  by_cases hstored : cfg.Stored key
  · exact iff_of_true (mapLaw_of_stored value hstored) (Or.inl hstored.length_lt)
  · constructor
    · intro hlaw
      by_contra hcond
      rw [not_or] at hcond
      have hroom : cfg.count < configMaxEntries := lt_of_le_of_ne cfg.bound hcond.2
      have hnot : ¬ (configSetStr cfg key value).Stored key := fun h => hcond.1 h.length_lt
      -- two defaults cannot both be the value read back
      have hget : ∀ dflt, dflt = value.trunc 127 := fun dflt => by
        rw [← hlaw.get_set (Or.inr hroom) dflt, configGetStr_eq, find?_eq_none_of_not_stored hnot]
        rfl
      have := (hget (CStr.lit "a")).trans (hget CStr.empty).symm
      exact absurd this (by decide)
    · rintro (hfits | hfull)
      · exact mapLaw_of_new value hstored hfits
      · exact ⟨fun h => absurd h (by rw [not_or]; exact ⟨hstored, by omega⟩),
          fun h => absurd h (by rw [not_or]; exact ⟨hstored, by omega⟩),
          fun _ _ => configSetStr_full value hstored hfull⟩

/-- What a key reads as after an insertion that meets the laws, if it is in the table then or
there was room. -/
theorem MapLaw.get {cfg : Config} {k value : CStr} (hlaw : MapLaw cfg k value) {key : CStr}
    (hkept : (configSetStr cfg k value).Stored key ∨ cfg.count < configMaxEntries) (dflt : CStr) :
    configGetStr (configSetStr cfg k value) key dflt =
      if k = key then value.trunc 127 else configGetStr cfg key dflt := by
  by_cases hroom : cfg.Stored k ∨ cfg.count < configMaxEntries
  · split
    · next hkey =>
      subst hkey
      exact hlaw.get_set hroom dflt
    · next hne => exact hlaw.frame hroom key (Ne.symm hne) dflt
  · -- a full table without the key drops it
    rw [not_or, not_lt] at hroom
    have hsame := hlaw.full hroom.1 (Nat.le_antisymm cfg.bound hroom.2)
    rw [hsame] at hkept ⊢
    rw [if_neg]
    rintro rfl
    rcases hkept with hstored | hlt
    · exact hroom.1 hstored
    · exact absurd hlt (not_lt.mpr hroom.2)

/-! ## Runs -/

/-- An insertion that meets the laws keeps the keys distinct. -/
theorem distinctKeys_step {cfg : Config} {key : CStr} (value : CStr) (hd : cfg.DistinctKeys)
    (hcond : key.length < 64 ∨ cfg.count = configMaxEntries) :
    (configSetStr cfg key value).DistinctKeys := by
  unfold Config.DistinctKeys at hd ⊢
  by_cases hstored : cfg.Stored key
  · obtain ⟨idx, -, hset⟩ := configSetStr_stored value hstored
    have hkeys := congrArg (List.map CharArray.str)
      (ConfigEntry.keys_modify cfg.entries idx (CharArray.copy 128 value))
    rw [List.map_map, List.map_map] at hkeys
    rw [hset]
    exact hkeys ▸ hd
  · by_cases hfull : cfg.count = configMaxEntries
    · rwa [configSetStr_full value hstored hfull]
    · have hfits := hcond.resolve_right hfull
      rw [configSetStr_append value hstored (lt_of_le_of_ne cfg.bound hfull), List.map_append]
      refine List.nodup_append.mpr ⟨hd, by simp, fun k hk k' hk' heq => ?_⟩
      obtain ⟨e, he, rfl⟩ := List.mem_map.mp hk
      rw [List.map_singleton, List.mem_singleton, copy_key hfits] at hk'
      exact hstored ⟨e, he, heq.trans hk'⟩

/-- The store is a finite map through a run of insertions, and every one of them meets the
laws, exactly when every key fits its field or meets a full table. -/
theorem finiteMap_iff (sets : List (CStr × CStr)) :
    configStore.Along (fun cfg kv => MapLaw cfg kv.1 kv.2 ∧ FiniteMap (configSetStr cfg kv.1 kv.2))
        Config.empty sets ↔
      configStore.Along (fun cfg kv => kv.1.length < 64 ∨ cfg.count = configMaxEntries)
        Config.empty sets := by
  have hempty : Config.empty.DistinctKeys := List.nodup_nil
  refine configStore.along_congr (fun _ kv hd hcond => distinctKeys_step kv.2 hd hcond)
    (fun cfg kv hd => ?_) hempty sets
  constructor
  · rintro ⟨hlaw, -⟩
    exact mapLaw_iff.mp hlaw
  · intro hcond
    exact ⟨mapLaw_iff.mpr hcond, Config.bound _, distinctKeys_step kv.2 hd hcond⟩

/-- A key of 64 bytes, one more than its field holds. -/
def longKey : CStr := CStr.ofBytes (List.replicate 64 97)

/-- Stored twice, it takes two entries, and neither is ever found again. -/
theorem longKey_duplicated :
    let sets := [(longKey, CStr.lit "1"), (longKey, CStr.lit "2")]
    let cfg := configStore.exec Config.empty sets
    cfg.count = 2 ∧ ¬ cfg.DistinctKeys ∧
      configGetStr cfg longKey (CStr.lit "none") = CStr.lit "none" ∧
      ¬ configStore.Along (fun cfg kv => MapLaw cfg kv.1 kv.2 ∧
        FiniteMap (configSetStr cfg kv.1 kv.2)) Config.empty sets := by
  refine ⟨by decide +kernel, by decide +kernel, by decide +kernel, fun h => ?_⟩
  exact absurd (h.1.1.get_set (Or.inr (by decide)) (CStr.lit "none")) (by decide +kernel)

end NetMon.Core
