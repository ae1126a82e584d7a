import NetMon.Lib.CNum

/-!
# The configuration store

`config.c`: a table of at most 64 key/value strings. A lookup compares the whole key
asked for, an insertion stores what fits of it. `configSetStr_cases` is all an
insertion can do.
-/

namespace NetMon.Core

open NetMon.Lib

/-- `CONFIG_MAX_ENTRIES` -/
def configMaxEntries : Nat := 64

/-- `config_entry_t` -/
structure ConfigEntry where
  key : CharArray 64
  value : CharArray 128
  deriving DecidableEq

/-- `config_t` -/
@[ext]
structure Config where
  entries : List ConfigEntry
  bound : entries.length ≤ configMaxEntries
  deriving DecidableEq

namespace Config

/-- `count` -/
def count (cfg : Config) : Nat := cfg.entries.length

def empty : Config := ⟨[], Nat.zero_le _⟩

end Config

def configFind (cfg : Config) (key : CStr) : Option Nat :=
  cfg.entries.findIdx? fun e => e.key.str = key

def configSetStr (cfg : Config) (key value : CStr) : Config :=
  match configFind cfg key with
  | some idx =>
    { entries := cfg.entries.modify idx fun e => { e with value := CharArray.copy 128 value }
      bound := by rw [List.length_modify]; exact cfg.bound }
  | none =>
    if h : cfg.count < configMaxEntries then
      { entries := cfg.entries ++ [⟨CharArray.copy 64 key, CharArray.copy 128 value⟩]
        bound := by rw [List.length_append]; exact h }
    else cfg

def configGetStr (cfg : Config) (key defaultVal : CStr) : CStr :=
  match configFind cfg key with
  | some idx => (cfg.entries[idx]?.map fun e => e.value.str).getD defaultVal
  | none => defaultVal

def configGetInt (cfg : Config) (key : CStr) (defaultVal : Int) : Int :=
  match configFind cfg key with
  | some idx => ((cfg.entries[idx]?.bind fun e => strtol e.value.str)).getD defaultVal
  | none => defaultVal

def configSetInt (cfg : Config) (key : CStr) (value : Int) : Config :=
  configSetStr cfg key (CStr.lit s!"{value}")

theorem ConfigEntry.keys_modify (es : List ConfigEntry) (idx : Nat) (v : CharArray 128) :
    (es.modify idx fun e => { e with value := v }).map ConfigEntry.key =
      es.map ConfigEntry.key := by
  induction es generalizing idx with
  | nil => cases idx <;> rfl
  | cons e es ih =>
    cases idx with
    | zero => rfl
    | succ idx => rw [List.modify_succ_cons, List.map_cons, ih, List.map_cons]

/-- An insertion updates the first entry under its key, appends a new one, or is
dropped by a full table. -/
theorem configSetStr_cases (cfg : Config) (key value : CStr) :
    (∃ idx, (configSetStr cfg key value).entries =
      cfg.entries.modify idx fun e => { e with value := CharArray.copy 128 value }) ∨
    ((∀ e ∈ cfg.entries, e.key.str ≠ key) ∧ cfg.count < configMaxEntries ∧
      (configSetStr cfg key value).entries =
        cfg.entries ++ [⟨CharArray.copy 64 key, CharArray.copy 128 value⟩]) ∨
    (cfg.count = configMaxEntries ∧ configSetStr cfg key value = cfg) := by
  unfold configSetStr
  split
  · next idx _ => exact Or.inl ⟨idx, rfl⟩
  · next hnone =>
    have hnew : ∀ e ∈ cfg.entries, e.key.str ≠ key := by
      simpa [configFind, List.findIdx?_eq_none_iff] using hnone
    split
    · next h => exact Or.inr (Or.inl ⟨hnew, h, rfl⟩)
    · next h => exact Or.inr (Or.inr ⟨by have := cfg.bound; unfold Config.count at *; omega, rfl⟩)

/-- A new key goes behind the others while there is room. -/
theorem configSetStr_new {cfg : Config} {key : CStr} (value : CStr)
    (hnew : ∀ e ∈ cfg.entries, e.key.str ≠ key) (hroom : cfg.count < configMaxEntries) :
    (configSetStr cfg key value).entries =
      cfg.entries ++ [⟨CharArray.copy 64 key, CharArray.copy 128 value⟩] := by
  have hnone : configFind cfg key = none := by
    simpa [configFind, List.findIdx?_eq_none_iff] using hnew
  unfold configSetStr
  rw [hnone]
  simp only [dif_pos hroom]

end NetMon.Core
