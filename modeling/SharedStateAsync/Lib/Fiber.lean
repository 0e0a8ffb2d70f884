/-
A process with a single coroutine, next to a kernel it shares with other processes.

Nobody else writes the memory of the process. Its calls are answered at once; when it
gives way after a call that would have blocked, it stays where it is until the kernel
wakes it.

* `Fiber`, `Fiber.step`: such a process and its steps;
* `lastCall`: the call after which a process that gave way waits;
* `Fiber.step_cases`: what a step can do;
* `Fiber.step_wp`: a step keeps what the weakest precondition says;
* `Fiber.blocked`, `Fiber.exists_step_iff`: when there is a step.
-/
import SharedStateAsync.Lib.Pool

namespace Coro

variable {Sys : Type} {Ans : Sys → Type} {Mem Ev κ : Type}

/-- The call that was recorded last, if nothing came after it. -/
def lastCall (t : List (Item Sys Ans Mem Ev)) : Option Sys :=
  match t.getLast? with
  | some (.called _ c _) => some c
  | _ => none

@[simp] lemma lastCall_called (t : List (Item Sys Ans Mem Ev)) (m : Mem) (c : Sys) (a : Ans c) :
    lastCall (t ++ [.called m c a]) = some c := by
  rw [lastCall, List.getLast?_concat]

lemma eq_concat_of_lastCall {t : List (Item Sys Ans Mem Ev)} {c : Sys} (h : lastCall t = some c) :
    ∃ pre m a, t = pre ++ [.called m c a] := by
  rw [lastCall] at h
  split at h
  · rename_i m c' a hlast
    obtain rfl := Option.some.inj h
    obtain ⟨pre, rfl⟩ := List.getLast?_eq_some_iff.mp hlast
    exact ⟨pre, m, a, rfl⟩
  · cases h

/-- What is left of the coroutine of a process, its memory, and what it has recorded. -/
structure Fiber (Sys : Type) (Ans : Sys → Type) (Mem Ev : Type) where
  code : Coro Sys Ans Mem Ev Unit
  mem : Mem
  trace : List (Item Sys Ans Mem Ev) := []

namespace Fiber

/-- The process has come to its end. -/
def ended (f : Fiber Sys Ans Mem Ev) : Bool :=
  match f.code with
  | .ret _ | .exit => true
  | _ => false

/-- One step of a process. `answers` is the kernel after it has given an answer, nothing
if it cannot give it, and `ready` says after which calls it wakes the process. -/
def step (f : Fiber Sys Ans Mem Ev) (kernel : κ) (answers : (c : Sys) → Ans c → Option κ)
    (ready : Sys → Bool) (answer : (c : Sys) → Ans c) : Option (Fiber Sys Ans Mem Ev × κ) :=
  match f.code with
  | .ret _ | .exit => none
  | .sys c k => (answers c (answer c)).map fun kernel' =>
      ({ f with code := k (answer c), trace := f.trace ++ [.called f.mem c (answer c)] }, kernel')
  | .suspend k =>
      if (lastCall f.trace).any ready then
        some ({ f with code := k, trace := f.trace ++ [.resumed f.mem f.mem] }, kernel)
      else none
  | .get k => some ({ f with code := k f.mem }, kernel)
  | .put m k => some ({ f with code := k, mem := m }, kernel)
  | .mark e k => some ({ f with code := k, trace := f.trace ++ [.marked e] }, kernel)

variable {f f' : Fiber Sys Ans Mem Ev} {kernel kernel' : κ}
  {answers : (c : Sys) → Ans c → Option κ} {ready : Sys → Bool} {answer : (c : Sys) → Ans c}

/-- **What a step can do**: make a call, be woken, or do something the kernel takes no
part in. -/
theorem step_cases (h : f.step kernel answers ready answer = some (f', kernel')) :
    (∃ c k, f.code = .sys c k ∧ answers c (answer c) = some kernel' ∧
      f' = ⟨k (answer c), f.mem, f.trace ++ [.called f.mem c (answer c)]⟩) ∨
    (∃ c k, f.code = .suspend k ∧ lastCall f.trace = some c ∧ ready c ∧ kernel' = kernel ∧
      f' = ⟨k, f.mem, f.trace ++ [.resumed f.mem f.mem]⟩) ∨
    (kernel' = kernel ∧
      ((∃ k, f.code = .get k ∧ f' = ⟨k f.mem, f.mem, f.trace⟩) ∨
       (∃ m k, f.code = .put m k ∧ f' = ⟨k, m, f.trace⟩) ∨
       (∃ e k, f.code = .mark e k ∧ f' = ⟨k, f.mem, f.trace ++ [.marked e]⟩))) := by
  rw [step] at h
  cases hcode : f.code with
  | ret a =>
      rw [hcode] at h
      cases h
  | exit =>
      rw [hcode] at h
      cases h
  | sys c k =>
      simp only [hcode, Option.map_eq_some_iff, Prod.mk.injEq] at h
      obtain ⟨kernel'', hanswer, hf', rfl⟩ := h
      exact Or.inl ⟨c, k, rfl, hanswer, hf'.symm⟩
  | suspend k =>
      simp only [hcode] at h
      split_ifs at h with hready
      obtain ⟨c, hlast, hc⟩ := (Option.any_eq_true _ _).mp hready
      obtain ⟨hf', rfl⟩ := Prod.mk.inj (Option.some.inj h)
      exact Or.inr (Or.inl ⟨c, k, rfl, hlast, hc, rfl, hf'.symm⟩)
  | get k =>
      simp only [hcode] at h
      obtain ⟨hf', rfl⟩ := Prod.mk.inj (Option.some.inj h)
      exact Or.inr (Or.inr ⟨rfl, Or.inl ⟨k, rfl, hf'.symm⟩⟩)
  | put m k =>
      simp only [hcode] at h
      obtain ⟨hf', rfl⟩ := Prod.mk.inj (Option.some.inj h)
      exact Or.inr (Or.inr ⟨rfl, Or.inr (Or.inl ⟨m, k, rfl, hf'.symm⟩)⟩)
  | mark e k =>
      simp only [hcode] at h
      obtain ⟨hf', rfl⟩ := Prod.mk.inj (Option.some.inj h)
      exact Or.inr (Or.inr ⟨rfl, Or.inr (Or.inr ⟨e, k, rfl, hf'.symm⟩)⟩)

/-- **A step keeps what is known of the coroutine**, if what the kernel does is within
what is relied on. -/
theorem step_wp {R : Rely Sys Ans Mem Ev} {X : Mem → List (Item Sys Ans Mem Ev) → Prop}
    {Q : Unit → Mem → List (Item Sys Ans Mem Ev) → Prop} (hf : wp R X f.code Q f.mem f.trace)
    (h : f.step kernel answers ready answer = some (f', kernel'))
    (hcalled : ∀ c a, answers c a = some kernel' → R f.trace (.called f.mem c a))
    (hresumed : ∀ c, lastCall f.trace = some c → ready c → R f.trace (.resumed f.mem f.mem)) :
    wp R X f'.code Q f'.mem f'.trace := by
  rcases step_cases h with ⟨c, k, hcode, hanswer, rfl⟩ | ⟨c, k, hcode, hlast, hready, -, rfl⟩ |
    ⟨-, ⟨k, hcode, rfl⟩ | ⟨m, k, hcode, rfl⟩ | ⟨e, k, hcode, rfl⟩⟩
  · rw [hcode] at hf
    exact hf (answer c) (hcalled c _ hanswer)
  · rw [hcode] at hf
    exact hf f.mem (hresumed c hlast hready)
  all_goals
    rw [hcode] at hf
    exact hf

/-- The process has ended, or waits for something that has not happened. -/
def blocked (f : Fiber Sys Ans Mem Ev) (ready : Sys → Bool) : Bool :=
  match f.code with
  | .ret _ | .exit => true
  | .suspend _ => !(lastCall f.trace).any ready
  | _ => false

/-- **There is a step** exactly if the process is not blocked, if the kernel answers every
call. -/
theorem exists_step_iff (hanswers : ∀ c, ∃ a, (answers c a).isSome) :
    (∃ answer, (f.step kernel answers ready answer).isSome) ↔ f.blocked ready = false := by
  choose answer hanswer using hanswers
  rw [blocked]
  cases hcode : f.code with
  | ret a => simp [step, hcode]
  | exit => simp [step, hcode]
  | sys c k =>
      refine iff_of_true ⟨answer, ?_⟩ rfl
      simpa [step, hcode] using hanswer c
  | suspend k =>
      cases hready : (lastCall f.trace).any ready with
      | true => exact iff_of_true ⟨answer, by simp [step, hcode, hready]⟩ rfl
      | false =>
          refine iff_of_false ?_ nofun
          rintro ⟨answer', hstep⟩
          simp [step, hcode, hready] at hstep
  | get k => exact iff_of_true ⟨answer, by simp [step, hcode]⟩ rfl
  | put m k => exact iff_of_true ⟨answer, by simp [step, hcode]⟩ rfl
  | mark e k => exact iff_of_true ⟨answer, by simp [step, hcode]⟩ rfl

lemma blocked_eq_false (hended : f.ended = false)
    (hready : ∀ k, f.code = .suspend k → ∃ c, lastCall f.trace = some c ∧ ready c) :
    f.blocked ready = false := by
  rw [blocked]
  cases hcode : f.code with
  | ret a => simp [ended, hcode] at hended
  | exit => simp [ended, hcode] at hended
  | suspend k =>
      obtain ⟨c, hlast, hc⟩ := hready k hcode
      simp [hlast, hc]
  | _ => rfl

end Fiber

end Coro
