import NetMon.Net.Names

/-!
# The table grows

A row in use keeps its name, and a slow tick puts new rows behind the others: the names of the
table are always the front of its later names (`step_grown`).
-/

namespace NetMon.Net

open NetMon.Lib NetMon.Core

/-- A name the kernel gives a device: not empty, and without blanks. -/
def IsIfName (name : IfaceName) : Prop :=
  name.bytes ≠ [] ∧ ∀ b ∈ name.bytes, isspace b = false

/-- The kernel lists such names. -/
def ListsIfNames (answer : Option (List IfReq)) : Prop :=
  ∀ reqs ∈ answer, ∀ r ∈ reqs, IsIfName r.name

def Tick.Named : Tick → Prop
  | .slow i => ListsIfNames i.ifconf
  | _ => True

/-- The table has at most eight rows, under names of the kernel. -/
structure NamedTable (s : NetState) : Prop where
  count_le : s.numIfaces ≤ appMaxInterfaces
  named : ∀ name ∈ s.names, IsIfName name

/-- A table with these names in front. -/
structure Grown (names : List IfaceName) (s : NetState) : Prop extends NamedTable s where
  front : names <+: s.names

theorem NetState.names_length (s : NetState) : s.names.length = s.numIfaces.toNat := by
  rw [names, List.length_map, rows_length]

theorem NetState.names_getElem? (s : NetState) {i : Nat} (hi : (i : Int) < s.numIfaces) :
    s.names[i]? = some (s.ifaces i).info.name := by
  rw [names, List.getElem?_map, s.rows_getElem? (by omega)]
  rfl

/-! ## A slow tick -/

theorem mergeIface_kept (s : NetState) (info : NetIfaceInfo) :
    ((List.range s.numIfaces.toNat).map fun i : Nat => ((mergeIface s info).ifaces i).info.name) =
      s.names := by
  rw [NetState.names_eq]
  apply List.map_congr_left
  intro i hi
  rw [List.mem_range] at hi
  exact mergeIface_name s info (by omega)

/-- The merge appends the name or leaves the names alone. -/
theorem mergeIface_names (s : NetState) (info : NetIfaceInfo) :
    (mergeIface s info).names = s.names ∨ (mergeIface s info).names = s.names ++ [info.name] := by
  by_cases hadd : s.findIface info.name = none ∧ s.numIfaces < appMaxInterfaces
  · obtain ⟨hcount, hrows⟩ := mergeIface_added hadd.1 hadd.2
    rcases Int.lt_or_le s.numIfaces 0 with hneg | hpos
    · left
      rw [NetState.names_eq, NetState.names_eq, hcount, Int.toNat_of_nonpos (by omega),
        Int.toNat_of_nonpos hneg.le]
      rfl
    · right
      have hself :
          ((mergeIface s info).ifaces (s.numIfaces.toNat : Nat)).info.name = info.name := by
        rw [Int.toNat_of_nonneg hpos, hrows, Function.update_self]
      rw [NetState.names_eq, hcount, Int.toNat_add hpos (by decide),
        show s.numIfaces.toNat + Int.toNat 1 = s.numIfaces.toNat + 1 from rfl, List.range_succ,
        List.map_append, mergeIface_kept, List.map_singleton, hself]
  · left
    have hcount : (mergeIface s info).numIfaces = s.numIfaces := by
      cases hfind : s.findIface info.name with
      | some j => rw [mergeIface_found hfind]; rfl
      | none => rw [mergeIface_full hfind fun hroom => hadd ⟨hfind, hroom⟩]
    rw [NetState.names_eq, hcount, mergeIface_kept]

theorem mergeIface_count_le {s : NetState} (h : s.numIfaces ≤ appMaxInterfaces)
    (info : NetIfaceInfo) : (mergeIface s info).numIfaces ≤ appMaxInterfaces := by
  unfold mergeIface
  split
  · exact h
  · split
    · show s.numIfaces + 1 ≤ _
      omega
    · exact h

theorem mergeIface_grown {names : List IfaceName} {s : NetState} (h : Grown names s)
    {info : NetIfaceInfo} (hinfo : IsIfName info.name) : Grown names (mergeIface s info) := by
  have hcount := mergeIface_count_le h.count_le info
  rcases mergeIface_names s info with hsame | hadded
  · exact ⟨⟨hcount, hsame ▸ h.named⟩, hsame ▸ h.front⟩
  · refine ⟨⟨hcount, ?_⟩, ?_⟩
    · rw [hadded, List.forall_mem_append, List.forall_mem_singleton]
      exact ⟨h.named, hinfo⟩
    · rw [hadded]
      exact h.front.trans (List.prefix_append _ _)

/-- What an enumeration goes through comes from the kernel. -/
theorem mem_enumerated {answer : Option (List IfReq)} (h : ListsIfNames answer) {n : Nat}
    {info : NetIfaceInfo} (hinfo : info ∈ (netEnumerateInterfaces answer n).getD []) :
    IsIfName info.name := by
  cases answer with
  | none => cases hinfo
  | some reqs =>
    obtain ⟨r, hr, rfl⟩ := List.mem_map.mp hinfo
    exact h reqs rfl r (List.mem_of_mem_filter (List.mem_of_mem_take hr))

/-! ## Runs -/

theorem SameTable.grown {s s' : NetState} (h : SameTable s s') (hs : NamedTable s) :
    Grown s.names s' where
  count_le := by
    rw [h.numIfaces]
    exact hs.count_le
  named := by
    rw [h.names]
    exact hs.named
  front := by rw [h.names]

/-- A tick leaves the names in front. -/
theorem step_grown {c : Collector} (hc : NamedTable c.state) {t : Tick} (ht : t.Named) :
    Grown c.state.names (collector.step c t).state := by
  cases t with
  | fast f => exact (fastTimerCb_sameTable c f).grown hc
  | medium m => exact (mediumTimerCb_sameTable c m).grown hc
  | slow i =>
    have hmerge : Grown c.state.names (mergeLoop.exec c.state i.listed) :=
      mergeLoop.exec_inv_of_inputs (P := Grown c.state.names) (A := fun info => IsIfName info.name)
        (fun _ _ hinfo hs => mergeIface_grown hs hinfo) ⟨hc, List.prefix_refl _⟩
        fun _ hinfo => mem_enumerated ht hinfo
    show Grown c.state.names (slowTimerCb c i).state
    refine ⟨⟨?_, ?_⟩, ?_⟩
    · rw [slowTimerCb_numIfaces]
      exact hmerge.count_le
    · rw [slowTimerCb_names]
      exact hmerge.named
    · rw [slowTimerCb_names]
      exact hmerge.front

/-- The start's table. -/
theorem init_named (cfg : Config) {b : BootInput} (hb : ListsIfNames b.ifconf) :
    NamedTable (netCollectorInit cfg b).state where
  count_le := by
    rw [netCollectorInit_numIfaces]
    unfold BootInput.count
    split
    · next hlist => exact Int.ofNat_le.mpr (netEnumerateInterfaces_length hlist)
    · decide
  named := by
    rw [netCollectorInit_names]
    intro name hname
    obtain ⟨r, hr, rfl⟩ := List.mem_map.mp hname
    cases hreqs : b.ifconf with
    | none =>
      rw [hreqs] at hr
      cases hr
    | some reqs =>
      rw [hreqs] at hr
      exact hb reqs hreqs r (List.mem_of_mem_filter (List.mem_of_mem_take hr))

/-- The table of a running collector. -/
theorem exec_named (cfg : Config) {b : BootInput} (hb : ListsIfNames b.ifconf) {ticks : List Tick}
    (hticks : ∀ t ∈ ticks, t.Named) :
    NamedTable (collector.exec (netCollectorInit cfg b) ticks).state :=
  collector.exec_inv_of_inputs (P := fun c => NamedTable c.state)
    (fun _ _ ht hc => (step_grown hc ht).toNamedTable) (init_named cfg hb) hticks

end NetMon.Net
