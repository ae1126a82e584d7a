import NetMon.Core.AlertRuns
import NetMon.Core.ConfigMap
import NetMon.Lib.Tokens

/-!
# Ignored interfaces

`alerts_init` cuts the configured list up with `strtok`, trims each token in place and keeps
the first eight that are not empty. `ignoreTokens` is what the list says, and `ignoreList_eq` that
the loop collects it.

A check skips the rows of these names, so no run pushes an alert of one (`pushedBy_unlisted`). As
long as the rows keep their names, the engine's run is the run without a list, less the alerts of
the names (`pushedBy_filter`).
-/

namespace NetMon.Core

open NetMon.Lib NetMon.Net GuardedSource

/-! ## The tokenizer -/

/-- The tokens of a comma-separated list, without the spaces around them. -/
def ignoreTokens (list : CStr) : List CStr :=
  let toks := (list.bytes.splitOn 44).filter (· ≠ [])
  let trimmed := toks.map fun t => (t.dropWhile (· == 32)).rdropWhile (· == 32)
  (trimmed.filter (· ≠ [])).map CStr.ofBytes

/-- The spaces at both ends go. -/
theorem trimToken_eq (tok : Bytes) :
    trimToken tok = (tok.dropWhile (· == 32)).rdropWhile (· == 32) := by
  have hnot := List.head?_dropWhile_not (· == 32) tok
  unfold trimToken
  cases htok : tok.dropWhile (· == 32) with
  | nil => rfl
  | cons b rest =>
    rw [htok] at hnot
    exact (CStr.rdropWhile_append_cons (by simpa using hnot) [] rest).symm

/-- What the list comes down to: its tokens, trimmed, as far as something is left. -/
def trimmedTokens (s : Bytes) : List Bytes := ((tokens 44 s).map trimToken).filter (· ≠ [])

theorem ignoreTokens_eq (list : CStr) :
    ignoreTokens list = (trimmedTokens list.bytes).map CStr.ofBytes := by
  unfold ignoreTokens trimmedTokens tokens
  rw [show trimToken = fun t => (t.dropWhile (· == 32)).rdropWhile (· == 32) from
    funext trimToken_eq]

/-- A call of `strtok` takes the first token off, which is lost if nothing is left of it. -/
theorem trimmedTokens_some {s tok rest : Bytes} (h : strtok 44 s = some (tok, rest)) :
    trimmedTokens s =
      if trimToken tok = [] then trimmedTokens rest else trimToken tok :: trimmedTokens rest := by
  unfold trimmedTokens
  rw [(strtok_eq_some h).1, List.map_cons]
  split
  · rename_i hnil
    exact List.filter_cons_of_neg (by simpa using hnil)
  · rename_i hne
    exact List.filter_cons_of_pos (by simpa using hne)

/-- The loop appends the trimmed tokens until there are eight names. -/
theorem ignoreLoop_eq {names : List IfaceName} (hlen : names.length ≤ maxIgnoreIfaces)
    (s : Bytes) : ignoreLoop names s = names ++
      ((trimmedTokens s).take (maxIgnoreIfaces - names.length)).map
        fun t => CharArray.copy 16 (CStr.ofBytes t) := by
  induction hn : s.length using Nat.strong_induction_on generalizing names s with
  | _ n ih =>
    rw [ignoreLoop]
    split
    · rename_i hnone
      rw [trimmedTokens, strtok_eq_none hnone]
      simp
    · rename_i tok rest hsome
      have hlt : rest.length < s.length := (strtok_eq_some hsome).2
      by_cases hroom : names.length < maxIgnoreIfaces
      · rw [if_pos hroom]
        by_cases htok : trimToken tok = []
        · rw [trimmedTokens_some hsome, if_pos htok]
          simp only [htok, ne_eq, not_true_eq_false, if_false]
          exact ih rest.length (hn ▸ hlt) hlen rest rfl
        · obtain ⟨room, hroom'⟩ : ∃ room, maxIgnoreIfaces - names.length = room + 1 :=
            ⟨maxIgnoreIfaces - names.length - 1, by omega⟩
          rw [trimmedTokens_some hsome, if_neg htok, hroom', List.take_succ_cons, List.map_cons]
          simp only [htok, ne_eq, not_false_eq_true, if_true]
          rw [ih rest.length (hn ▸ hlt) (by rw [List.length_append]; exact hroom) rest rfl,
            List.length_append, List.length_singleton, List.append_assoc,
            show maxIgnoreIfaces - (names.length + 1) = room by omega]
          rfl
      · rw [if_neg hroom, show maxIgnoreIfaces - names.length = 0 by omega]
        simp

theorem ignoreValue_length (cfg : Config) : (ignoreValue cfg).length ≤ 127 := by
  rw [ignoreValue, configGetStr_eq]
  cases cfg.entries.find? fun e => e.key.str = CStr.lit "alert_ignore_ifaces" with
  | none => exact Nat.zero_le _
  | some e => exact e.value.fits

/-! ## Names on the list -/

/-- The names the user lists: the first eight trimmed tokens. -/
def listed (cfg : Config) : List CStr := (ignoreTokens (ignoreValue cfg)).take maxIgnoreIfaces

/-- **The engine starts with the names on the list**: its copy of the value has room for all of
it, and the loop takes off one token after the other. -/
theorem ignoreList_eq (cfg : Config) : ignoreList cfg = (listed cfg).map (CharArray.copy 16) := by
  have hlisted : (listed cfg).map (CharArray.copy 16) =
      ignoreLoop [] ((ignoreValue cfg).trunc 255).bytes := by
    rw [CStr.trunc_of_le ((ignoreValue_length cfg).trans (by decide)),
      ignoreLoop_eq (Nat.zero_le _), List.nil_append, listed, ignoreTokens_eq, ← List.map_take,
      List.map_map]
    rfl
  rw [ignoreList, alertsInit]
  dsimp only
  split
  · exact hlisted.symm
  · next hempty =>
    rw [listed, not_not.mp hempty]
    rfl

/-- A trimmed token is not empty, and has no NUL. -/
theorem ofBytes_trimmedToken {list : CStr} {t : Bytes} (ht : t ∈ trimmedTokens list.bytes) :
    (CStr.ofBytes t).bytes = t ∧ t ≠ [] := by
  obtain ⟨hmem, hne⟩ := List.mem_filter.mp ht
  obtain ⟨tok, htok, rfl⟩ := List.mem_map.mp hmem
  have hsub : (trimToken tok).Sublist tok := by
    rw [trimToken_eq]
    exact (List.rdropWhile_prefix _ _).sublist.trans (List.dropWhile_sublist _)
  refine ⟨CStr.ofBytes_of_nonul fun h0 => list.nonul ?_, by simpa using hne⟩
  exact mem_of_mem_tokens htok (hsub.subset h0)

theorem empty_notMem_listed (cfg : Config) : CStr.empty ∉ listed cfg := by
  intro h
  have hmem := List.mem_of_mem_take h
  rw [ignoreTokens_eq, List.mem_map] at hmem
  obtain ⟨t, ht, heq⟩ := hmem
  obtain ⟨hbytes, hne⟩ := ofBytes_trimmedToken ht
  rw [heq] at hbytes
  exact hne hbytes.symm

/-- Names that fit are kept as they are. -/
theorem mem_ignoreList_iff {cfg : Config}
    (hfits : ∀ t ∈ ignoreTokens (ignoreValue cfg), t.length ≤ 15) (name : IfaceName) :
    name ∈ ignoreList cfg ↔ name.str ∈ listed cfg := by
  rw [ignoreList_eq, List.mem_map]
  constructor
  · rintro ⟨t, ht, rfl⟩
    rwa [show (CharArray.copy 16 t).str = t from
      CStr.trunc_of_le (hfits t (List.mem_of_mem_take ht))]
  · exact fun h => ⟨name.str, h, CharArray.copy_str name⟩

/-- Without a value there is no list. -/
theorem ignoreList_nil {cfg : Config} (h : ignoreValue cfg = CStr.empty) : ignoreList cfg = [] := by
  rw [ignoreList_eq, listed, h]
  rfl

/-! ## Two runs -/

/-- The alerts of a run of checks. -/
def pushedBy (cfg : Config) (cs : List Check) : List AlertEntry :=
  alertEngine.trace (alertsInit cfg) (cs.map fun c => .check c.1 c.2)

theorem pushedBy_concat (cfg : Config) (cs : List Check) (c : Check) :
    pushedBy cfg (cs ++ [c]) = pushedBy cfg cs ++ checkAlerts (afterChecks cfg cs) c.1 c.2 := by
  rw [pushedBy, List.map_append, Machine.trace_append, List.map_singleton, Machine.trace_cons,
    Machine.trace_nil, List.append_nil, ← alertsCheck_pushed]
  rfl

/-- An alert about an interface on the list; a global alert's name is empty. -/
def IsListed (cfg : Config) (e : AlertEntry) : Prop := e.iface.str ∈ listed cfg

instance (cfg : Config) (e : AlertEntry) : Decidable (IsListed cfg e) :=
  inferInstanceAs (Decidable (_ ∈ _))

variable {cfg cfg' : Config}

/-- A check looks at the sources it would look at without the list, less those on it. -/
theorem watched_iff (hfits : ∀ t ∈ ignoreTokens (ignoreValue cfg), t.length ≤ 15)
    (c : Check) (src : GuardedSource) : src.watched (ignoreList cfg) c.1 ↔
      src.watched [] c.1 ∧ ¬ IsListed cfg (src.alert c.1 c.2) := by
  have hrow : ∀ row : Nat, rowWatched (ignoreList cfg) c.1 row ↔
      rowWatched [] c.1 row ∧ ¬ (c.1.ifaces row).info.name.str ∈ listed cfg := by
    intro row
    rw [← mem_ignoreList_iff hfits]
    simp [rowWatched]
  cases src with
  | ifaceDown row => exact hrow row
  | packetErrors row => exact hrow row
  | gateway => exact iff_of_true rfl ⟨rfl, empty_notMem_listed cfg⟩
  | dns => exact iff_of_true rfl ⟨rfl, empty_notMem_listed cfg⟩

/-- Over a growing table a source that is watched is due in both runs or in none. -/
theorem due_iff_of_grows (hempty : ignoreList cfg' = [])
    (hfits : ∀ t ∈ ignoreTokens (ignoreValue cfg), t.length ≤ 15) {cs : List Check} {c : Check}
    (hgrow : ((cs ++ [c]).map Prod.fst).IsChain Grows) (src : GuardedSource) :
    due (afterChecks cfg cs) c.1 src ↔
      due (afterChecks cfg' cs) c.1 src ∧ ¬ IsListed cfg (src.alert c.1 c.2) := by
  rw [due_iff, due_iff, Bool.and_eq_true, Bool.and_eq_true, hempty, watched_iff hfits c src]
  by_cases hlisted : IsListed cfg (src.alert c.1 c.2)
  · simp [hlisted]
  · by_cases hw : src.watched [] c.1 = true
    · have hw' := (watched_iff hfits c src).mpr ⟨hw, hlisted⟩
      rw [GuardedSource.repeated, GuardedSource.repeated, runLength_history hgrow hw,
        runLength_history hgrow hw']
      simp [hlisted]
    · simp [hw]

theorem latencyAlerts_unlisted (cfg : Config) {net : NetState} {now : UInt32} {e : AlertEntry}
    (he : e ∈ latencyAlerts net now) : ¬ IsListed cfg e := by
  obtain ⟨sev, msg, rfl⟩ := mem_latencyAlerts he
  exact empty_notMem_listed cfg

/-- A check pushes what it would push without the list, less the alerts of the listed names. -/
theorem checkAlerts_filter (hempty : ignoreList cfg' = [])
    (hfits : ∀ t ∈ ignoreTokens (ignoreValue cfg), t.length ≤ 15) {cs : List Check} {c : Check}
    (hgrow : ((cs ++ [c]).map Prod.fst).IsChain Grows) :
    checkAlerts (afterChecks cfg cs) c.1 c.2 =
      (checkAlerts (afterChecks cfg' cs) c.1 c.2).filter fun e => ¬ IsListed cfg e := by
  have hdue : ∀ srcs, dueAlerts (afterChecks cfg cs) c.1 c.2 srcs =
      (dueAlerts (afterChecks cfg' cs) c.1 c.2 srcs).filter fun e => ¬ IsListed cfg e := by
    intro srcs
    rw [dueAlerts, dueAlerts, List.filter_map, List.filter_filter]
    refine congrArg (List.map _) (List.filter_congr fun src _ => ?_)
    rw [Bool.eq_iff_iff, due_iff_of_grows hempty hfits hgrow src]
    simp [and_comm]
  have hlatency : (latencyAlerts c.1 c.2).filter (fun e => ¬ IsListed cfg e) =
      latencyAlerts c.1 c.2 :=
    List.filter_eq_self.mpr fun e he => decide_eq_true (latencyAlerts_unlisted cfg he)
  rw [checkAlerts_eq, checkAlerts_eq]
  simp only [List.filter_append, ← hdue, hlatency]

/-- No check pushes an alert of a listed name. -/
theorem checkAlerts_unlisted (hfits : ∀ t ∈ ignoreTokens (ignoreValue cfg), t.length ≤ 15)
    (cs : List Check) (c : Check) :
    ∀ e ∈ checkAlerts (afterChecks cfg cs) c.1 c.2, ¬ IsListed cfg e := by
  have hdue : ∀ srcs, ∀ e ∈ dueAlerts (afterChecks cfg cs) c.1 c.2 srcs, ¬ IsListed cfg e := by
    intro srcs e he
    obtain ⟨src, hsrc, rfl⟩ := List.mem_map.mp he
    have hduesrc := (List.mem_filter.mp hsrc).2
    rw [due, Bool.and_eq_true, afterChecks_ignore] at hduesrc
    exact ((watched_iff hfits c src).mp hduesrc.1).2
  intro e he
  rw [checkAlerts_eq] at he
  simp only [List.mem_append] at he
  rcases he with ((he | he) | he) | he
  · exact hdue _ e he
  · exact hdue _ e he
  · exact latencyAlerts_unlisted cfg he
  · exact hdue _ e he

theorem pushedBy_unlisted (hfits : ∀ t ∈ ignoreTokens (ignoreValue cfg), t.length ≤ 15)
    (cs : List Check) : ∀ e ∈ pushedBy cfg cs, ¬ IsListed cfg e := by
  induction cs using List.reverseRecOn with
  | nil => exact List.forall_mem_nil _
  | append_singleton cs c ih =>
    rw [pushedBy_concat, List.forall_mem_append]
    exact ⟨ih, checkAlerts_unlisted hfits cs c⟩

theorem pushedBy_filter (hempty : ignoreList cfg' = [])
    (hfits : ∀ t ∈ ignoreTokens (ignoreValue cfg), t.length ≤ 15) {cs : List Check}
    (hgrow : (cs.map Prod.fst).IsChain Grows) :
    pushedBy cfg cs = (pushedBy cfg' cs).filter fun e => ¬ IsListed cfg e := by
  induction cs using List.reverseRecOn with
  | nil => rfl
  | append_singleton cs c ih =>
    have hpast : (cs.map Prod.fst).IsChain Grows := by
      rw [List.map_append] at hgrow
      exact hgrow.left_of_append
    rw [pushedBy_concat, pushedBy_concat, List.filter_append, ih hpast,
      ← checkAlerts_filter hempty hfits hgrow]

end NetMon.Core
