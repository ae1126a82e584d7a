import NetMon.Core.ConfigFile
import NetMon.Lib.CJson
import NetMon.Lib.Machine

/-!
# The configuration over HTTP

`POST /api/v1/config` in `api_routes.c`: every string member of the body is stored with
`config_set_str`, and the table is saved and sent back, whether or not the file could be opened.
A body is what `cJSON` parsed, `none` where it could not.

* `saveBack_iff`: after any file and any requests the saved table loads back exactly
  when it is `Storable`.
* `storable_exec`: it stays so while only clean assignments that fit are posted.
-/

namespace NetMon.Api

open NetMon.Lib NetMon.Core

/-- What a handler sends: a document, or an error with its text. -/
inductive Reply where
  | json (doc : CJson)
  | error (status : Nat) (body : CStr)

def apiJsonConfig (cfg : Config) : CJson :=
  .object (cfg.entries.map fun e => (e.key.str, .string e.value.str))

/-- The loop over the body's items. -/
def storeMembers (cfg : Config) (body : CJson) : Config :=
  (CJson.children (some body)).foldl (fun cfg item =>
    match item with
    | (some key, .string value) => configSetStr cfg key value
    | _ => cfg) cfg

/-- The table and the file after the request, and the reply. A file that cannot be opened is left as
it is; the -1 of `config_save` is ignored. -/
def handlePostConfig (cfg : Config) (file : Option Bytes) (written : Bool) (body : Option CJson) :
    Config × Option Bytes × Reply :=
  match body with
  | some (.object members) =>
    let cfg := storeMembers cfg (.object members)
    (cfg, if written then some (configSave cfg) else file, .json (apiJsonConfig cfg))
  | _ => (cfg, file, .error 400 (CStr.lit "\x7b\"error\":\"invalid JSON\"\x7d"))

/-- The server's table under a sequence of requests. The file has no part in it. -/
def configServer : Machine Config (Option CJson) Reply where
  step cfg body := (handlePostConfig cfg none true body).1
  out cfg body := [(handlePostConfig cfg none true body).2.2]

/-- An object is stored and saved, anything else is refused. -/
theorem handlePostConfig_cases (cfg : Config) (file : Option Bytes) (written : Bool)
    (body : Option CJson) :
    (∃ members, body = some (.object members) ∧ handlePostConfig cfg file written body =
      (storeMembers cfg (.object members),
        if written then some (configSave (storeMembers cfg (.object members))) else file,
        .json (apiJsonConfig (storeMembers cfg (.object members))))) ∨
    ((∀ members, body ≠ some (.object members)) ∧ handlePostConfig cfg file written body =
      (cfg, file, .error 400 (CStr.lit "\x7b\"error\":\"invalid JSON\"\x7d"))) := by
  unfold handlePostConfig
  split
  · next members => exact .inl ⟨members, rfl, rfl⟩
  · next hother => exact .inr ⟨hother, rfl⟩

/-- The table is what its own saved text loads as. -/
def SavesBack (cfg : Config) : Prop := (configLoad (some (configSave cfg))).2 = cfg

instance (cfg : Config) : Decidable (SavesBack cfg) :=
  inferInstanceAs (Decidable ((configLoad (some (configSave cfg))).2 = cfg))

/-- A refused body changes nothing. -/
theorem handlePostConfig_refused {cfg : Config} {file : Option Bytes} {written : Bool}
    {body : Option CJson} {status : Nat} {text : CStr}
    (h : (handlePostConfig cfg file written body).2.2 = .error status text) :
    (handlePostConfig cfg file written body).1 = cfg ∧
      (handlePostConfig cfg file written body).2.1 = file := by
  rcases handlePostConfig_cases cfg file written body with ⟨_, -, heq⟩ | ⟨-, heq⟩
  · rw [heq] at h
    cases h
  · exact ⟨congrArg Prod.fst heq, congrArg (·.2.1) heq⟩

/-- **Persistence.** Whatever file was loaded and whatever was posted since, the saved
table loads back exactly when it is storable. -/
theorem saveBack_iff (file : Option Bytes) (posts : List (Option CJson)) :
    SavesBack (configServer.exec (configLoad file).2 posts) ↔
      Storable (configServer.exec (configLoad file).2 posts) :=
  roundTrip_iff _

/-- Started without a file and asked to store a text with a line break, the server saves
a file that holds a second setting. -/
theorem newline_not_savesBack : ¬ SavesBack (configServer.exec (configLoad none).2
    [some (.object [(CStr.lit "note", .string (CStr.lit "a\nping_target=10.0.0.9"))])]) := by
  decide +kernel

/-! ## Requests that keep the table storable -/

/-- An assignment that is stored whole and can be written down. -/
structure Fits (key value : CStr) : Prop where
  clean : Clean key value
  key_fits : key.length < 64
  value_fits : value.length < 128

/-- Every string member of the body can be stored and written down. -/
def BodyFits (body : Option CJson) : Prop :=
  ∀ key value, (some key, .string value) ∈ CJson.children body → Fits key value

theorem storable_configSetStr {cfg : Config} {key value : CStr} (hcfg : Storable cfg)
    (h : Fits key value) : Storable (configSetStr cfg key value) := by
  have hkey : (CharArray.copy 64 key).str = key :=
    CStr.trunc_of_le (Nat.le_sub_one_of_lt h.key_fits)
  have hval : (CharArray.copy 128 value).str = value :=
    CStr.trunc_of_le (Nat.le_sub_one_of_lt h.value_fits)
  rcases configSetStr_cases cfg key value with ⟨idx, hset⟩ | ⟨hnew, _, hset⟩ | ⟨_, hset⟩
  · constructor
    · rw [hset]
      intro e he
      obtain ⟨i, hi⟩ := List.mem_iff_getElem?.mp he
      rw [List.getElem?_modify] at hi
      obtain ⟨x, hx, hxe⟩ := Option.map_eq_some_iff.mp hi
      have hclean := hcfg.clean x (List.mem_of_getElem? hx)
      split at hxe
      · subst hxe
        refine { hclean with value_trimmed := ?_, value_newline := ?_ }
        · exact (congrArg CStr.Trimmed hval).mpr h.clean.value_trimmed
        · exact fun hm => h.clean.value_newline (hval ▸ hm)
      · exact hxe ▸ hclean
    · rw [hset, ConfigEntry.keys_modify]
      exact hcfg.nodup
  · exact storable_append hcfg h.clean hkey hval hnew hset
  · rw [hset]
    exact hcfg

theorem storable_storeMembers {cfg : Config} {body : CJson} (hcfg : Storable cfg)
    (h : BodyFits (some body)) : Storable (storeMembers cfg body) := by
  unfold BodyFits at h
  unfold storeMembers
  generalize CJson.children (some body) = items at h
  induction items generalizing cfg with
  | nil => exact hcfg
  | cons item items ih =>
    rw [List.foldl_cons]
    refine ih ?_ fun key value hm => h key value (List.mem_cons_of_mem _ hm)
    split
    · next key value => exact storable_configSetStr hcfg (h key value List.mem_cons_self)
    · exact hcfg

theorem storable_step {cfg : Config} {body : Option CJson} (hcfg : Storable cfg)
    (h : BodyFits body) : Storable (configServer.step cfg body) := by
  rcases handlePostConfig_cases cfg none true body with ⟨members, rfl, heq⟩ | ⟨-, heq⟩
  · have hstep : configServer.step cfg (some (.object members)) =
        storeMembers cfg (.object members) := congrArg Prod.fst heq
    rw [hstep]
    exact storable_storeMembers hcfg h
  · have hstep : configServer.step cfg body = cfg := congrArg Prod.fst heq
    rw [hstep]
    exact hcfg

/-- While only assignments that fit are posted, a storable table stays so and keeps
loading back. -/
theorem storable_exec {cfg : Config} {posts : List (Option CJson)} (hcfg : Storable cfg)
    (h : ∀ body ∈ posts, BodyFits body) : Storable (configServer.exec cfg posts) :=
  configServer.exec_inv_of_inputs (fun _ _ hbody hs => storable_step hs hbody) hcfg h

end NetMon.Api
