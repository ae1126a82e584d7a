import Mathlib.Data.List.Rotate
import NetMon.Lib.Machine

/-!
# Round robin

A cursor goes round `n` places and stops at the next one that is enabled; the next round starts
behind it. `ahead n en k` is the enabled places as the cursor at `k` meets them. A round takes
the first of them off the front and puts it behind the others (`search_of_ahead`), so that as
many rounds as there are enabled places stop at each of them once (`rounds_trace_perm`).
-/

namespace NetMon.Lib.RoundRobin

variable (n : Nat) (en : Nat → Bool)

/-- At most so many steps of the cursor: the place it stops at, and where it is left. -/
def search : Nat → Nat → Option Nat × Nat
  | 0, k => (none, k)
  | attempts + 1, k =>
    if en (k % n) then (some (k % n), (k + 1) % n) else search attempts ((k + 1) % n)

/-- A search over all places a round; it emits where it stops. -/
def rounds : Machine Nat Unit Nat where
  step k _ := (search n en n k).2
  out k _ := (search n en n k).1.toList

/-- The enabled places. -/
def places : List Nat := (List.range n).filter en

/-- The places from the cursor on. -/
def order (k : Nat) : List Nat := (List.range n).map fun i => (k + i) % n

/-- The enabled places from the cursor on. -/
def ahead (k : Nat) : List Nat := (order n k).filter en

variable {n}

theorem order_mod (k : Nat) : order n (k % n) = order n k :=
  List.map_congr_left fun i _ => Nat.mod_add_mod k n i

theorem order_add (k j : Nat) : order n (k + j) = (order n k).rotate j := by
  apply List.ext_getElem (by simp [order])
  intro i _ _
  simp only [order, List.getElem_rotate, List.getElem_map, List.getElem_range, List.length_map,
    List.length_range, Nat.add_mod_mod]
  congr 1
  omega

theorem order_perm (k : Nat) : (order n k).Perm (List.range n) := by
  have hzero : order n 0 = List.range n :=
    (List.map_congr_left fun i hi => by
      rw [Nat.zero_add, Nat.mod_eq_of_lt (List.mem_range.mp hi)]; rfl).trans (List.map_id _)
  have hturn := order_add (n := n) 0 k
  rw [Nat.zero_add, hzero] at hturn
  rw [hturn]
  exact List.rotate_perm _ _

theorem order_cons (hn : 0 < n) (k : Nat) :
    ∃ t, order n k = k % n :: t ∧ order n (k + 1) = t ++ [k % n] := by
  obtain ⟨m, rfl⟩ : ∃ m, n = m + 1 := ⟨n - 1, by omega⟩
  have hcons : order (m + 1) k =
      k % (m + 1) :: (List.range m).map fun i => (k + (i + 1)) % (m + 1) := by
    rw [order, List.range_succ_eq_map, List.map_cons, List.map_map]
    rfl
  refine ⟨_, hcons, ?_⟩
  rw [order_add, hcons, List.rotate_cons_succ, List.rotate_zero]

variable {en}

/-- The search goes through the places in that order. -/
theorem search_order {attempts : Nat} (h : attempts ≤ n) (k : Nat) :
    ((∀ p ∈ (order n k).take attempts, en p = false) ∧ (search n en attempts k).1 = none) ∨
      ∃ pre p post, order n k = pre ++ p :: post ∧ (∀ q ∈ pre, en q = false) ∧ en p = true ∧
        search n en attempts k = (some p, (k + pre.length + 1) % n) := by
  induction attempts generalizing k with
  | zero => exact .inl ⟨by simp, rfl⟩
  | succ a ih =>
    obtain ⟨t, hk, hnext⟩ := order_cons (n := n) (by omega) k
    unfold search
    split
    · rename_i hen
      exact .inr ⟨[], k % n, t, hk, List.forall_mem_nil _, hen, rfl⟩
    · rename_i hdis
      rw [Bool.not_eq_true] at hdis
      have hlen : t.length + 1 = n := by simpa [order] using (congrArg List.length hk).symm
      rcases ih (by omega) ((k + 1) % n) with ⟨hoff, hnone⟩ | ⟨pre, p, post, ho, hoff, hp, hs⟩
      · rw [order_mod, hnext, List.take_append_of_le_length (by omega)] at hoff
        refine .inl ⟨?_, hnone⟩
        rw [hk, List.take_succ_cons]
        exact List.forall_mem_cons.mpr ⟨hdis, hoff⟩
      · rw [order_mod, hnext] at ho
        -- the place it stops at is not the one it has just left, which is last in the new order
        obtain rfl | ⟨post, q, rfl⟩ := List.eq_nil_or_concat post
        · have hlast := (List.append_inj' ho rfl).2
          rw [List.cons.injEq] at hlast
          rw [hlast.1, hp] at hdis
          exact absurd hdis (by decide)
        · rw [List.concat_eq_append, ← List.cons_append, ← List.append_assoc] at ho
          refine .inr ⟨k % n :: pre, p, post, ?_, List.forall_mem_cons.mpr ⟨hdis, hoff⟩, hp, ?_⟩
          · rw [hk, (List.append_inj' ho rfl).1, List.cons_append]
          · rw [hs, List.length_cons, Nat.add_assoc, Nat.mod_add_mod,
              show k + 1 + (pre.length + 1) = k + (pre.length + 1) + 1 by omega]

theorem ahead_perm (k : Nat) : (ahead n en k).Perm (places n en) := (order_perm k).filter en

/-- A round stops at the first enabled place, which is then behind the others. -/
theorem search_of_ahead {k p : Nat} {rest : List Nat} (h : ahead n en k = p :: rest) :
    (search n en n k).1 = some p ∧ ahead n en (search n en n k).2 = rest ++ [p] := by
  have horder : (∀ p ∈ (order n k).take n, en p = false) ∧ (search n en n k).1 = none ∨ _ :=
    search_order (Nat.le_refl n) k
  rcases horder with ⟨hoff, -⟩ | ⟨pre, q, post, ho, hoff, hq, hs⟩
  · rw [List.take_of_length_le (by simp [order])] at hoff
    rw [ahead, List.filter_eq_nil_iff.mpr fun r hr => by simp [hoff r hr]] at h
    cases h
  · have hpre : pre.filter en = [] := List.filter_eq_nil_iff.mpr fun r hr => by simp [hoff r hr]
    rw [ahead, ho, List.filter_append, hpre, List.nil_append, List.filter_cons_of_pos hq,
      List.cons.injEq] at h
    obtain ⟨rfl, rfl⟩ := h
    refine ⟨by rw [hs], ?_⟩
    have hturn : order n (k + pre.length + 1) = post ++ (pre ++ [q]) := by
      have hfront := List.rotate_append_length_eq (pre ++ [q]) post
      rwa [List.length_append, List.length_singleton, List.append_assoc, List.singleton_append,
        ← ho, ← order_add, ← Nat.add_assoc] at hfront
    rw [hs, ahead, order_mod, hturn, List.filter_append, List.filter_append, hpre,
      List.nil_append, List.filter_cons_of_pos hq, List.filter_nil]

/-- With no enabled place a round stops nowhere. -/
theorem search_of_none {k : Nat} (h : places n en = []) : (search n en n k).1 = none := by
  have horder : (∀ p ∈ (order n k).take n, en p = false) ∧ (search n en n k).1 = none ∨ _ :=
    search_order (Nat.le_refl n) k
  rcases horder with ⟨-, hnone⟩ | ⟨pre, q, post, ho, -, hq, -⟩
  · exact hnone
  · have hmem : q ∈ ahead n en k := List.mem_filter.mpr ⟨by rw [ho]; simp, hq⟩
    rw [(ahead_perm k).mem_iff, h] at hmem
    cases hmem

/-- With an enabled place a round stops at one. -/
theorem search_enabled {k : Nat} (h : places n en ≠ []) :
    ∃ p ∈ places n en, (search n en n k).1 = some p := by
  cases hahead : ahead n en k with
  | nil =>
    have hperm : (ahead n en k).Perm (places n en) := ahead_perm k
    rw [hahead] at hperm
    exact absurd hperm.nil_eq.symm h
  | cons p rest =>
    refine ⟨p, ?_, (search_of_ahead hahead).1⟩
    rw [← (ahead_perm k).mem_iff, hahead]
    exact List.mem_cons_self

/-- Up to as many rounds as there are enabled places stop at them in order. -/
theorem rounds_trace {k : Nat} {is : List Unit} (h : is.length ≤ (places n en).length) :
    (rounds n en).trace k is = (ahead n en k).take is.length := by
  induction is generalizing k with
  | nil => rfl
  | cons i is ih =>
    rw [← (ahead_perm k).length_eq] at h
    cases hahead : ahead n en k with
    | nil =>
      rw [hahead] at h
      cases h
    | cons p rest =>
      obtain ⟨hp, hrest⟩ := search_of_ahead hahead
      have hlen : is.length ≤ rest.length := by
        rw [hahead] at h
        exact Nat.le_of_succ_le_succ h
      rw [Machine.trace_cons, ih (by
        rw [← (ahead_perm k).length_eq, hahead]
        exact hlen.trans (Nat.le_succ _))]
      show (search n en n k).1.toList ++ (ahead n en (search n en n k).2).take is.length = _
      rw [hp, hrest, List.take_append_of_le_length hlen]
      rfl

/-- As many rounds as there are enabled places stop at each of them once. -/
theorem rounds_trace_perm {k : Nat} {is : List Unit} (h : is.length = (places n en).length) :
    ((rounds n en).trace k is).Perm (places n en) := by
  rw [rounds_trace h.le, List.take_of_length_le ((ahead_perm k).length_eq.trans h.symm).le]
  exact ahead_perm k

end NetMon.Lib.RoundRobin
