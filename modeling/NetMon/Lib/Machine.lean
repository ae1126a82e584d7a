import Mathlib.Algebra.BigOperators.Group.List.Basic
import Mathlib.Data.List.Basic
import Mathlib.Data.List.Chain

/-!
# Deterministic machines with output

A `Machine` steps on an input and may emit outputs. `exec` is the state after a
list of inputs and `trace` what was emitted on the way; both split at any point
of the run (`exec_append`, `trace_append`), and `Runs` composes both at once.
`Along P s is` says that every step of
the run from `s` meets `P` (a condition on the state before the step and its
input), `After Q s is` that every state the run reaches meets `Q`.

* `exec_inv`: an invariant of every step is an invariant of every run.
* `after_iff_along`: a state property that a step establishes exactly under a
  condition holds throughout a run exactly when every step meets the condition.
* `reaches_of_measure`: steps that reach a goal or lower a measure reach the goal.
* `balance_exec`: a quantity every step changes by the weight of its outputs.
* `isChain_trace_iff`, `mem_getLast?_trace_iff`: consecutive outputs are those of two
  emitting steps with only silent ones in between, the last one has only such behind it.
-/

namespace NetMon.Lib

/-- A deterministic transition system over states `σ`, inputs `ι` and outputs `ω`. -/
structure Machine (σ ι ω : Type*) where
  step : σ → ι → σ
  out : σ → ι → List ω

namespace Machine

variable {σ ι ω : Type*} (M : Machine σ ι ω)

/-- The state after a list of inputs. -/
def exec (s : σ) : List ι → σ
  | [] => s
  | i :: is => exec (M.step s i) is

/-- Everything emitted along a list of inputs, in order. -/
def trace (s : σ) : List ι → List ω
  | [] => []
  | i :: is => M.out s i ++ trace (M.step s i) is

@[simp] theorem exec_nil (s : σ) : M.exec s [] = s := rfl

@[simp] theorem exec_cons (s : σ) (i : ι) (is : List ι) :
    M.exec s (i :: is) = M.exec (M.step s i) is := rfl

@[simp] theorem trace_nil (s : σ) : M.trace s [] = [] := rfl

@[simp] theorem trace_cons (s : σ) (i : ι) (is : List ι) :
    M.trace s (i :: is) = M.out s i ++ M.trace (M.step s i) is := rfl

theorem exec_append (s : σ) (a b : List ι) : M.exec s (a ++ b) = M.exec (M.exec s a) b := by
  induction a generalizing s with
  | nil => rfl
  | cons i is ih => exact ih _

theorem trace_append (s : σ) (a b : List ι) :
    M.trace s (a ++ b) = M.trace s a ++ M.trace (M.exec s a) b := by
  induction a generalizing s with
  | nil => rfl
  | cons i is ih => simp only [List.cons_append, trace_cons, exec_cons, ih, List.append_assoc]

/-- From `s` the inputs lead to `s'` and emit `os`. -/
def Runs (s : σ) (is : List ι) (s' : σ) (os : List ω) : Prop :=
  M.exec s is = s' ∧ M.trace s is = os

variable {M}

theorem Runs.refl (s : σ) : M.Runs s [] s [] := ⟨rfl, rfl⟩

theorem Runs.single {s s' : σ} {i : ι} {os : List ω} (hs : M.step s i = s') (ho : M.out s i = os) :
    M.Runs s [i] s' os := ⟨hs, by rw [trace_cons, trace_nil, List.append_nil, ho]⟩

theorem Runs.trans {s t u : σ} {a b : List ι} {oa ob : List ω} (h1 : M.Runs s a t oa)
    (h2 : M.Runs t b u ob) : M.Runs s (a ++ b) u (oa ++ ob) :=
  ⟨by rw [exec_append, h1.1, h2.1], by rw [trace_append, h1.1, h1.2, h2.2]⟩

/-- A silent stretch in front adds nothing to the trace. -/
theorem Runs.silent {s t u : σ} {a b : List ι} {ob : List ω} (h1 : M.Runs s a t [])
    (h2 : M.Runs t b u ob) : M.Runs s (a ++ b) u ob := h1.trans h2

variable (M)

/-- An invariant of the steps on allowed inputs is an invariant of the runs on them. -/
theorem exec_inv_of_inputs {P : σ → Prop} {A : ι → Prop}
    (hstep : ∀ s i, A i → P s → P (M.step s i)) {s : σ} (hs : P s) {is : List ι}
    (his : ∀ i ∈ is, A i) : P (M.exec s is) := by
  induction is generalizing s with
  | nil => exact hs
  | cons i is ih =>
    rw [List.forall_mem_cons] at his
    exact ih (hstep s i his.1 hs) his.2

/-- An invariant of every step is an invariant of every run. -/
theorem exec_inv {P : σ → Prop} (hstep : ∀ s i, P s → P (M.step s i)) {s : σ} (hs : P s)
    (is : List ι) : P (M.exec s is) :=
  M.exec_inv_of_inputs (A := fun _ => True) (fun s i _ => hstep s i) hs fun _ _ => trivial

/-- What every step emits under an invariant, every run emits. -/
theorem trace_inv {P : σ → Prop} {Q : ω → Prop} (hstep : ∀ s i, P s → P (M.step s i))
    (hout : ∀ s i, P s → ∀ o ∈ M.out s i, Q o) {s : σ} (hs : P s) (is : List ι) :
    ∀ o ∈ M.trace s is, Q o := by
  induction is generalizing s with
  | nil => simp
  | cons i is ih =>
    intro o ho
    rcases List.mem_append.mp ho with ho | ho
    · exact hout s i hs o ho
    · exact ih (hstep s i hs) o ho

/-- If every step adds the weight of its outputs to `φ`, a run adds the weight of its trace. -/
theorem balance_exec {A : Type*} [AddMonoid A] {φ : σ → A} {w : ω → A}
    (hstep : ∀ s i, φ (M.step s i) = φ s + ((M.out s i).map w).sum) (s : σ) (is : List ι) :
    φ (M.exec s is) = φ s + ((M.trace s is).map w).sum := by
  induction is generalizing s with
  | nil => simp
  | cons i is ih =>
    rw [exec_cons, ih, hstep, trace_cons, List.map_append, List.sum_append, add_assoc]

/-- If every step reaches `G` or lowers the measure `μ`, a run longer than `μ` reaches `G`. -/
theorem reaches_of_measure {I G : σ → Prop} {μ : σ → Nat} (hinv : ∀ s i, I s → I (M.step s i))
    (hstep : ∀ s i, I s → G (M.step s i) ∨ μ (M.step s i) < μ s) {s : σ} (hs : I s)
    {is : List ι} (hlen : μ s < is.length) :
    ∃ n, 1 ≤ n ∧ n ≤ is.length ∧ G (M.exec s (is.take n)) := by
  induction is generalizing s with
  | nil => simp at hlen
  | cons i is ih =>
    rw [List.length_cons] at hlen
    rcases hstep s i hs with hG | hlt
    · exact ⟨1, Nat.le_refl 1, by simp, hG⟩
    · obtain ⟨n, hn1, hn, hG⟩ := ih (hinv s i hs) (by omega)
      exact ⟨n + 1, by omega, by simpa using hn, hG⟩

/-! ## Conditions along a run -/

/-- Every step of the run meets `P`, a condition on the state before it and its input. -/
def Along (P : σ → ι → Prop) (s : σ) : List ι → Prop
  | [] => True
  | i :: is => P s i ∧ Along P (M.step s i) is

/-- Every state the run reaches meets `Q`. -/
def After (Q : σ → Prop) (s : σ) (is : List ι) : Prop :=
  M.Along (fun s i => Q (M.step s i)) s is

theorem along_append {P : σ → ι → Prop} {s : σ} {a b : List ι} :
    M.Along P s (a ++ b) ↔ M.Along P s a ∧ M.Along P (M.exec s a) b := by
  induction a generalizing s with
  | nil => exact (and_iff_right trivial).symm
  | cons i is ih => exact (and_congr_right fun _ => ih).trans and_assoc.symm

/-- What holds of every step under an invariant holds along every run. -/
theorem along_of_inv {I : σ → Prop} {P : σ → ι → Prop} (hstep : ∀ s i, I s → I (M.step s i))
    (h : ∀ s i, I s → P s i) {s : σ} (hs : I s) (is : List ι) : M.Along P s is := by
  induction is generalizing s with
  | nil => trivial
  | cons i is ih => exact ⟨h s i hs, ih (hstep s i hs)⟩

/-- An invariant of every step holds in every state of a run. -/
theorem after_of_inv {Q : σ → Prop} (hstep : ∀ s i, Q s → Q (M.step s i)) {s : σ} (hs : Q s)
    (is : List ι) : M.After Q s is :=
  M.along_of_inv hstep hstep hs is

/-- What every step meeting `P` keeps holds in every state of a run whose steps all meet it. -/
theorem after_of_along {Q : σ → Prop} {P : σ → ι → Prop}
    (hstep : ∀ s i, Q s → P s i → Q (M.step s i)) {s : σ} (hs : Q s) {is : List ι}
    (h : M.Along P s is) : M.After Q s is := by
  induction is generalizing s with
  | nil => trivial
  | cons i is ih => exact ⟨hstep s i hs h.1, ih (hstep s i hs h.1) h.2⟩

variable {M} in
/-- A weaker condition holds along the run too. -/
theorem Along.mono {P P' : σ → ι → Prop} (h : ∀ s i, P s i → P' s i) {s : σ} {is : List ι}
    (hs : M.Along P s is) : M.Along P' s is := by
  induction is generalizing s with
  | nil => trivial
  | cons i is ih => exact ⟨h s i hs.1, ih hs.2⟩

/-- What holds of every output of a run holds of the outputs of every step. -/
theorem forall_trace_iff {Q : ω → Prop} {s : σ} {is : List ι} :
    (∀ o ∈ M.trace s is, Q o) ↔ M.Along (fun s i => ∀ o ∈ M.out s i, Q o) s is := by
  induction is generalizing s with
  | nil => simp [Along]
  | cons i is ih => rw [trace_cons, List.forall_mem_append, ih, Along]

/-- Two step conditions that agree wherever `I` holds agree along every run on allowed inputs, as
long as the steps that meet them keep `I`. -/
theorem along_congr_of_inputs {I : σ → Prop} {A : ι → Prop} {P P' : σ → ι → Prop}
    (hstep : ∀ s i, A i → I s → P' s i → I (M.step s i))
    (h : ∀ s i, A i → I s → (P s i ↔ P' s i)) {s : σ} (hs : I s) {is : List ι}
    (his : ∀ i ∈ is, A i) : M.Along P s is ↔ M.Along P' s is := by
  induction is generalizing s with
  | nil => exact Iff.rfl
  | cons i is ih =>
    rw [List.forall_mem_cons] at his
    rw [Along, Along, h s i his.1 hs]
    exact and_congr_right fun hi => ih (hstep s i his.1 hs hi) his.2

/-- Two step conditions that agree wherever `I` holds agree along every run, as long as the
steps that meet them keep `I`. -/
theorem along_congr {I : σ → Prop} {P P' : σ → ι → Prop}
    (hstep : ∀ s i, I s → P' s i → I (M.step s i)) (h : ∀ s i, I s → (P s i ↔ P' s i)) {s : σ}
    (hs : I s) (is : List ι) : M.Along P s is ↔ M.Along P' s is :=
  M.along_congr_of_inputs (A := fun _ => True) (fun s i _ => hstep s i) (fun s i _ => h s i) hs
    fun _ _ => trivial

/-- If a step lands in `Q` exactly when it meets `P`, a run stays in `Q` exactly when
all its steps meet `P`. -/
theorem after_iff_along {I Q : σ → Prop} {P : σ → ι → Prop} (hstep : ∀ s i, I s → I (M.step s i))
    (h : ∀ s i, I s → (Q (M.step s i) ↔ P s i)) {s : σ} (hs : I s) (is : List ι) :
    M.After Q s is ↔ M.Along P s is :=
  M.along_congr (fun s i hs _ => hstep s i hs) h hs is

/-! ## Consecutive outputs -/

/-- The first output of a run comes from a step behind a silent stretch. -/
theorem trace_eq_cons {s : σ} {is : List ι} {o : ω} {os : List ω} (h : M.trace s is = o :: os) :
    ∃ quiet i post os', is = quiet ++ i :: post ∧ M.trace s quiet = [] ∧
      M.out (M.exec s quiet) i = o :: os' := by
  induction is generalizing s with
  | nil => simp at h
  | cons i is ih =>
    rw [trace_cons] at h
    cases hout : M.out s i with
    | nil =>
      rw [hout, List.nil_append] at h
      obtain ⟨quiet, j, post, os', rfl, hquiet, hj⟩ := ih h
      exact ⟨i :: quiet, j, post, os', rfl, by rw [trace_cons, hout, hquiet, List.nil_append], hj⟩
    | cons o' os' =>
      rw [hout, List.cons_append, List.cons.injEq] at h
      exact ⟨[], i, is, os', rfl, rfl, by rw [exec_nil, hout, h.1]⟩

/-- With at most one output a step, a relation holds between consecutive outputs of a run exactly
when it holds between the outputs of every two steps with a silent stretch between them. -/
theorem isChain_trace_iff {R : ω → ω → Prop} (hone : ∀ s i, (M.out s i).length ≤ 1) {s : σ}
    {is : List ι} : (M.trace s is).IsChain R ↔
      ∀ pre i quiet j post a b, is = pre ++ i :: (quiet ++ j :: post) →
        M.out (M.exec s pre) i = [a] → M.trace (M.exec s (pre ++ [i])) quiet = [] →
        M.out (M.exec s (pre ++ i :: quiet)) j = [b] → R a b := by
  constructor
  · rintro h pre i quiet j post a b rfl ha hquiet hb
    have hsplit : M.trace s (pre ++ i :: (quiet ++ j :: post)) =
        M.trace s pre ++ a :: b :: M.trace (M.exec s (pre ++ i :: (quiet ++ [j]))) post := by
      simp only [exec_append, exec_cons, exec_nil] at hquiet hb
      simp only [trace_append, trace_cons, exec_append, exec_cons, exec_nil, ha, hquiet, hb,
        List.cons_append, List.nil_append]
    rw [hsplit] at h
    exact (List.isChain_append_cons_cons.mp h).2.1
  · intro h
    induction is generalizing s with
    | nil => exact .nil
    | cons i is ih =>
      have hrest : (M.trace (M.step s i) is).IsChain R :=
        ih fun pre i' quiet j post a b his => h (i :: pre) i' quiet j post a b (by rw [his]; rfl)
      rw [trace_cons]
      cases hout : M.out s i with
      | nil => exact hrest
      | cons a os =>
        have hos : os = [] := List.eq_nil_of_length_eq_zero <| by
          have := hone s i
          rw [hout, List.length_cons] at this
          omega
        subst hos
        rw [List.cons_append, List.nil_append]
        cases htail : M.trace (M.step s i) is with
        | nil => exact .singleton a
        | cons b bs =>
          rw [htail] at hrest
          obtain ⟨quiet, j, post, os', rfl, hquiet, hj⟩ := M.trace_eq_cons htail
          have hos' : os' = [] := List.eq_nil_of_length_eq_zero <| by
            have := hone (M.exec (M.step s i) quiet) j
            rw [hj, List.length_cons] at this
            omega
          rw [hos'] at hj
          exact .cons_cons (h [] i quiet j post a b rfl hout hquiet hj) hrest

/-- With at most one output a step, the last output of a run comes from a step with a silent
stretch behind it. -/
theorem mem_getLast?_trace_iff (hone : ∀ s i, (M.out s i).length ≤ 1) {s : σ} {is : List ι}
    {o : ω} : o ∈ (M.trace s is).getLast? ↔ ∃ pre i quiet, is = pre ++ i :: quiet ∧
      M.out (M.exec s pre) i = [o] ∧ M.trace (M.exec s (pre ++ [i])) quiet = [] := by
  constructor
  · intro h
    induction is using List.reverseRecOn with
    | nil => simp at h
    | append_singleton is i ih =>
      have hlast : M.trace s (is ++ [i]) = M.trace s is ++ M.out (M.exec s is) i := by
        rw [trace_append, trace_cons, trace_nil, List.append_nil]
      rw [hlast] at h
      cases hout : M.out (M.exec s is) i with
      | nil =>
        rw [hout, List.append_nil] at h
        obtain ⟨pre, j, quiet, rfl, hj, hquiet⟩ := ih h
        refine ⟨pre, j, quiet ++ [i], by simp, hj, ?_⟩
        rw [trace_append, hquiet, ← exec_append, List.append_assoc, List.singleton_append,
          trace_cons, hout]
        rfl
      | cons o' os =>
        have hos : os = [] := List.eq_nil_of_length_eq_zero <| by
          have := hone (M.exec s is) i
          rw [hout, List.length_cons] at this
          omega
        subst hos
        rw [hout, List.getLast?_concat, Option.mem_some_iff] at h
        exact ⟨is, i, [], rfl, by rw [hout, h], rfl⟩
  · rintro ⟨pre, i, quiet, rfl, ho, hquiet⟩
    rw [exec_append, exec_cons, exec_nil] at hquiet
    rw [trace_append, trace_cons, ho, hquiet, List.append_nil, List.getLast?_concat]
    rfl

end Machine

end NetMon.Lib
