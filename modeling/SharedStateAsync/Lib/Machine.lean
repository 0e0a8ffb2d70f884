/-
Runs of a machine that is driven by a list of operations.

* `run`: the state a list of operations leads to;
* `Throughout`: a property of every state met on the way, the first included;
* `throughout_concat`: one more operation adds one more state;
* `run_induction`: what holds at the start and is kept by every step whose
  side condition is met holds at the end; the side condition may speak of the
  operations that came before;
* `foldlM_keeps`, `FailsAt.foldlM_eq_iff`: runs of steps that may fail.
-/
import Mathlib.Tactic

namespace Machine

variable {σ ι : Type*} (step : σ → ι → σ)

/-- The state the operations `ops` lead to from `s`. -/
def run (s : σ) (ops : List ι) : σ := ops.foldl step s

@[simp] lemma run_concat (s : σ) (ops : List ι) (op : ι) :
    run step s (ops ++ [op]) = step (run step s ops) op := by
  simp [run]

lemma run_append (s : σ) (ops ops' : List ι) :
    run step s (ops ++ ops') = run step (run step s ops) ops' :=
  List.foldl_append

/-- `P` holds in every state met while the operations `ops` are carried out,
the first and the last included. -/
def Throughout (P : σ → Prop) (s : σ) (ops : List ι) : Prop :=
  ∀ pre, pre <+: ops → P (run step s pre)

variable {step} {P : σ → Prop} {s : σ}

lemma Throughout.last {ops : List ι} (h : Throughout step P s ops) : P (run step s ops) :=
  h ops List.prefix_rfl

lemma Throughout.mono {pre ops : List ι} (h : Throughout step P s ops) (hp : pre <+: ops) :
    Throughout step P s pre :=
  fun q hq => h q (hq.trans hp)

lemma throughout_nil : Throughout step P s [] ↔ P s := by
  constructor
  · exact fun h => h.last
  · intro h pre hpre
    rw [List.prefix_nil.mp hpre]
    exact h

lemma throughout_concat {ops : List ι} {op : ι} :
    Throughout step P s (ops ++ [op])
      ↔ Throughout step P s ops ∧ P (run step s (ops ++ [op])) := by
  constructor
  · exact fun h => ⟨h.mono (List.prefix_append _ _), h.last⟩
  · rintro ⟨h, hlast⟩ pre hpre
    rcases List.prefix_concat_iff.mp hpre with rfl | hpre'
    · exact hlast
    · exact h pre hpre'

/-- **Induction along a run**: `Q` holds after the operations `ops` once it
holds at the start and every step of the run keeps it. -/
theorem run_induction {Q : List ι → Prop} {ops : List ι} (h0 : Q [])
    (hstep : ∀ pre op, pre ++ [op] <+: ops → Q pre → Q (pre ++ [op])) :
    ∀ pre, pre <+: ops → Q pre := by
  intro pre
  induction pre using List.reverseRecOn with
  | nil => exact fun _ => h0
  | append_singleton pre op ih =>
      intro hpre
      exact hstep pre op hpre (ih ((List.prefix_append _ _).trans hpre))

/-- What every step keeps that does not fail, a run keeps. -/
theorem foldlM_keeps {stepM : σ → ι → Option σ}
    (hstep : ∀ s op s', P s → stepM s op = some s' → P s') {s' : σ} {ops : List ι} (hs : P s)
    (hrun : ops.foldlM stepM s = some s') : P s' := by
  induction ops generalizing s with
  | nil =>
      obtain rfl := Option.some.inj hrun
      exact hs
  | cons op ops ih =>
      rw [List.foldlM_cons] at hrun
      obtain ⟨s₁, hfirst, hrest⟩ := Option.bind_eq_some_iff.mp hrun
      exact ih (hstep s op s₁ hs hfirst) hrest

/-- Steps that may fail: in the states that are `Inv`, the operations that are `Ok` do what
`step` says, or fail if they are `Bad`. -/
structure FailsAt (step : σ → ι → σ) (stepM : σ → ι → Option σ) (Inv : σ → Prop) (Ok : ι → Prop)
    (Bad : σ → ι → Prop) : Prop where
  keeps : ∀ s op, Inv s → Ok op → Inv (step s op)
  good : ∀ s op, Inv s → Ok op → ¬ Bad s op → stepM s op = some (step s op)
  bad : ∀ s op, Inv s → Ok op → Bad s op → stepM s op = none

/-- **Runs that may fail** succeed exactly if none of their steps is bad. -/
theorem FailsAt.foldlM_eq_iff {stepM : σ → ι → Option σ} {Inv : σ → Prop} {Ok : ι → Prop}
    {Bad : σ → ι → Prop} (hM : FailsAt step stepM Inv Ok Bad) {s : σ} (hs : Inv s)
    {ops : List ι} (hops : ∀ op ∈ ops, Ok op) :
    ops.foldlM stepM s = some (run step s ops) ↔
      ∀ pre op, pre ++ [op] <+: ops → ¬ Bad (run step s pre) op := by
  induction ops generalizing s with
  | nil => exact iff_of_true rfl fun pre op hpre => by simp at hpre
  | cons op ops ih =>
      rw [List.forall_mem_cons] at hops
      rw [List.foldlM_cons]
      by_cases hop : Bad s op
      · rw [hM.bad s op hs hops.1 hop]
        refine iff_of_false (fun hnone => by cases hnone) fun hall => hall [] op ?_ hop
        exact ⟨ops, rfl⟩
      · rw [hM.good s op hs hops.1 hop]
        change List.foldlM stepM (step s op) ops = some (run step (step s op) ops) ↔ _
        rw [ih (hM.keeps s op hs hops.1) hops.2]
        constructor
        · intro hall pre op' hpre
          cases pre with
          | nil =>
              obtain ⟨rfl, -⟩ := List.cons_prefix_cons.mp hpre
              exact hop
          | cons op₀ pre =>
              obtain ⟨rfl, hpre'⟩ := List.cons_prefix_cons.mp hpre
              exact hall pre op' hpre'
        · intro hall pre op' hpre
          exact hall (op :: pre) op' (List.cons_prefix_cons.mpr ⟨rfl, hpre⟩)

end Machine
