/-
Processes beside each other, on a kernel they share.

Every process is a coroutine with a memory of its own. What its calls are answered depends
on the state of the kernel, which each answer may change; the processes take their steps in
any order, and one that has come to its end gives back what it holds.

* `SharedKernel`, `Family`, `Family.Step`: the processes and their steps;
* `Family.Rules`: what the processes owe, and what is known of the kernel and of the records;
* `Family.Rules.run`: it is known throughout.
-/
import SharedStateAsync.Lib.SmallStep
import Mathlib.Logic.Relation

namespace Coro

open Relation

variable {ι κ Sys : Type} {Ans : Sys → Type} {Mem Ev α : Type}

/-- What the kernel allows as an answer for a process, and what the answer does to it. -/
structure SharedKernel (ι κ Sys : Type) (Ans : Sys → Type) (Mem Ev : Type) where
  allows : ι → κ → Rely Sys Ans Mem Ev
  effect : ι → κ → Item Sys Ans Mem Ev → κ
  /-- The process has ended. -/
  ends : ι → κ → κ

/-- The processes, those that have ended, and the kernel. -/
structure Family (ι κ Sys : Type) (Ans : Sys → Type) (Mem Ev α : Type) where
  procs : ι → Config Sys Ans Mem Ev α
  ended : ι → Bool
  kernel : κ

namespace Family

variable [DecidableEq ι] {K : SharedKernel ι κ Sys Ans Mem Ev}

/-- One process takes a step, or ends. -/
inductive Step (K : SharedKernel ι κ Sys Ans Mem Ev) :
    Family ι κ Sys Ans Mem Ev α → Family ι κ Sys Ans Mem Ev α → Prop
  | step {s : Family ι κ Sys Ans Mem Ev α} (i : ι) {c' : Config Sys Ans Mem Ev α}
      (halive : s.ended i = false) (h : Config.Step (K.allows i s.kernel) (s.procs i) c') :
      Step K s
        { s with
          procs := Function.update s.procs i c'
          kernel := (c'.trace.drop (s.procs i).trace.length).foldl (K.effect i) s.kernel }
  | ends {s : Family ι κ Sys Ans Mem Ev α} (i : ι) (h : (s.procs i).Halted) :
      Step K s { s with ended := Function.update s.ended i true, kernel := K.ends i s.kernel }

/-- What the processes have recorded. -/
def traces (s : Family ι κ Sys Ans Mem Ev α) (i : ι) : List (Item Sys Ans Mem Ev) :=
  (s.procs i).trace

/-- What the processes owe, and what is known of the kernel, of who has ended and of the
records. It holds after every answer to something that is owed, and then the process may
rely on the answer. -/
structure Rules (K : SharedKernel ι κ Sys Ans Mem Ev) (U : ι → Duties Sys Ans Mem Ev)
    (J : κ → (ι → Bool) → (ι → List (Item Sys Ans Mem Ev)) → Prop) : Prop where
  answered : ∀ {k ended ts} i item, J k ended ts → ended i = false →
    Config.owed (U i) (ts i) item → K.allows i k (ts i) item →
      J (K.effect i k item) ended (Function.update ts i (ts i ++ [item]))
  marked : ∀ {k ended ts} i e, J k ended ts → ended i = false →
    J (K.effect i k (.marked e)) ended (Function.update ts i (ts i ++ [.marked e]))
  rely : ∀ {k ended ts} i item, J k ended ts → ended i = false →
    Config.owed (U i) (ts i) item → K.allows i k (ts i) item → (U i).rely (ts i) item
  ends : ∀ {k ended ts} i, J k ended ts → J (K.ends i k) (Function.update ended i true) ts

variable {U : ι → Duties Sys Ans Mem Ev} {Q : ι → α → Mem → List (Item Sys Ans Mem Ev) → Prop}
  {J : κ → (ι → Bool) → (ι → List (Item Sys Ans Mem Ev)) → Prop}
  {s s' : Family ι κ Sys Ans Mem Ev α}

/-- Every process does what it owes, and it is known what should be. -/
structure Ok (U : ι → Duties Sys Ans Mem Ev)
    (Q : ι → α → Mem → List (Item Sys Ans Mem Ev) → Prop)
    (J : κ → (ι → Bool) → (ι → List (Item Sys Ans Mem Ev)) → Prop)
    (s : Family ι κ Sys Ans Mem Ev α) : Prop where
  guarded : ∀ i, (s.procs i).Guarded (U i) (Q i)
  known : J s.kernel s.ended s.traces

lemma traces_update (s : Family ι κ Sys Ans Mem Ev α) (i : ι) (c' : Config Sys Ans Mem Ev α)
    (ended : ι → Bool) (k : κ) :
    traces ⟨Function.update s.procs i c', ended, k⟩ = Function.update s.traces i c'.trace := by
  funext j
  change (Function.update s.procs i c' j).trace = _
  by_cases hj : j = i
  · subst hj
    rw [Function.update_self, Function.update_self]
  · rw [Function.update_of_ne hj, Function.update_of_ne hj, traces]

/-- What is known after a process has recorded one more item, or none. -/
lemma Ok.known_step (hrules : Rules K U J) (h : s.Ok U Q J) {i : ι}
    {c' : Config Sys Ans Mem Ev α} (halive : s.ended i = false)
    (hstep : Config.Step (K.allows i s.kernel) (s.procs i) c') :
    J ((c'.trace.drop (s.procs i).trace.length).foldl (K.effect i) s.kernel) s.ended
      (Function.update s.traces i c'.trace) := by
  rcases (h.guarded i).step_cases hstep with hsame | ⟨e, hmark⟩ | ⟨item, hitem, howed, hallows⟩
  · rw [hsame, List.drop_length, List.foldl_nil, show (s.procs i).trace = s.traces i from rfl,
      Function.update_eq_self]
    exact h.known
  · rw [hmark, List.drop_left]
    exact hrules.marked i e h.known halive
  · rw [hitem, List.drop_left]
    exact hrules.answered i item h.known halive howed hallows

/-- **One step** of a process. -/
theorem Ok.step (hrules : Rules K U J) (h : s.Ok U Q J) (hstep : Step K s s') : s'.Ok U Q J := by
  cases hstep with
  | ends i hhalted => exact ⟨h.guarded, hrules.ends i h.known⟩
  | @step i c' halive hc =>
      refine ⟨fun j => ?_, ?_⟩
      · by_cases hj : j = i
        · subst hj
          simp only [Function.update_self]
          exact (h.guarded j).step (fun item howed hallows =>
            hrules.rely j item h.known halive howed hallows) hc
        · simp only [Function.update_of_ne hj]
          exact h.guarded j
      · rw [traces_update]
        exact h.known_step hrules halive hc

/-- **Any number of steps**, of any processes. -/
theorem Ok.run (hrules : Rules K U J) (h : s.Ok U Q J) (hrun : ReflTransGen (Step K) s s') :
    s'.Ok U Q J := by
  induction hrun with
  | refl => exact h
  | tail _ hstep ih => exact ih.step hrules hstep

end Family

end Coro
