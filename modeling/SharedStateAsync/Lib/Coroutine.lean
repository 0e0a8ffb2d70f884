/-
Coroutines of a process that is single threaded and full of other coroutines.

A coroutine is a tree of what it does: it calls the system, it gives way to the
others, it reads and writes the memory they share, it marks a point of its own
progress, and it returns or ends the process. Whatever the system answers and
whatever the others do is up to an environment, and a run records all of it.

* `Coro`, `Coro.bind`: coroutines and their sequence, as a monad;
* `Env`, `Coro.exec`: the run in a given environment;
* `Meets`: every step of a run satisfies a condition on what was answered, which
  may speak of the steps before;
* `Coro.wp`: the weakest precondition over all answers the condition allows;
* `Coro.wp_bind`, `Coro.wp_mono`, `Coro.wp_and`: its rules;
* `Coro.Returns`: what is known of every returned value;
* `Coro.Uses`, `Coro.wp_of_uses`: a coroutine that makes harmless calls only
  keeps what these calls keep;
* `Coro.meetsAlone`: the same for runs in which nobody else runs, by evaluation;
* `Coro.wp_sound`, `Coro.exec_returns`, `Coro.exec_total`: a run all of whose
  steps meet the condition ends as the weakest precondition says;
* `Coro.exec_bind`, `Coro.exec_append`: the run of a sequence, and what a run does not
  depend on;
* `Coro.exec_meets`: the runs in an environment that keeps to the condition;
* `Coro.OwnWrites`: what a run wrote itself, told from what the others wrote.
-/
import Mathlib.Tactic

/-- A coroutine that makes the calls `Sys`, answered in `Ans`, shares `Mem` with
the others and marks its progress with `Ev`. -/
inductive Coro (Sys : Type) (Ans : Sys → Type) (Mem Ev α : Type) : Type where
  | ret (a : α)
  | sys (c : Sys) (k : Ans c → Coro Sys Ans Mem Ev α)
  /-- Give way to the other coroutines of the process. -/
  | suspend (k : Coro Sys Ans Mem Ev α)
  | get (k : Mem → Coro Sys Ans Mem Ev α)
  | put (m : Mem) (k : Coro Sys Ans Mem Ev α)
  | mark (e : Ev) (k : Coro Sys Ans Mem Ev α)
  /-- End the process. -/
  | exit

namespace Coro

variable {Sys : Type} {Ans : Sys → Type} {Mem Ev α β : Type}

/-- Sequence. -/
def bind : Coro Sys Ans Mem Ev α → (α → Coro Sys Ans Mem Ev β) → Coro Sys Ans Mem Ev β
  | ret a, f => f a
  | sys c k, f => sys c fun x => (k x).bind f
  | suspend k, f => suspend (k.bind f)
  | get k, f => get fun m => (k m).bind f
  | put m k, f => put m (k.bind f)
  | mark e k, f => mark e (k.bind f)
  | exit, _ => exit

instance : Monad (Coro Sys Ans Mem Ev) where
  pure := ret
  bind := bind

/-- Make one call. -/
def call (c : Sys) : Coro Sys Ans Mem Ev (Ans c) := sys c ret

/-- Give way once. -/
def giveWay : Coro Sys Ans Mem Ev Unit := suspend (ret ())

/-- The shared memory. -/
def memory : Coro Sys Ans Mem Ev Mem := get ret

/-- Replace the shared memory. -/
def setMemory (m : Mem) : Coro Sys Ans Mem Ev Unit := put m (ret ())

/-- Mark a point of the run. -/
def event (e : Ev) : Coro Sys Ans Mem Ev Unit := mark e (ret ())

/-! ### Runs -/

/-- What a run records: each call with its answer and the memory it was made
with, each return from the others with the memory before and after, and the
marks. -/
inductive Item (Sys : Type) (Ans : Sys → Type) (Mem Ev : Type) : Type where
  | called (m : Mem) (c : Sys) (a : Ans c)
  | resumed (m m' : Mem)
  | marked (e : Ev)

/-- The system and the other coroutines, with a state of their own. -/
structure Env (Sys : Type) (Ans : Sys → Type) (Mem σ : Type) where
  answer : σ → Mem → (c : Sys) → Ans c × σ
  others : σ → Mem → Mem × σ

/-- The state of a run. -/
structure World (Sys : Type) (Ans : Sys → Type) (Mem Ev σ : Type) where
  env : σ
  mem : Mem
  trace : List (Item Sys Ans Mem Ev) := []

variable {σ : Type}

namespace World

/-- The call `c` has been answered. -/
def answered (env : Env Sys Ans Mem σ) (w : World Sys Ans Mem Ev σ) (c : Sys) :
    World Sys Ans Mem Ev σ where
  env := (env.answer w.env w.mem c).2
  mem := w.mem
  trace := w.trace ++ [.called w.mem c (env.answer w.env w.mem c).1]

/-- The others have run. -/
def resumed (env : Env Sys Ans Mem σ) (w : World Sys Ans Mem Ev σ) : World Sys Ans Mem Ev σ where
  env := (env.others w.env w.mem).2
  mem := (env.others w.env w.mem).1
  trace := w.trace ++ [.resumed w.mem (env.others w.env w.mem).1]

/-- The mark `e` has been set. -/
def marked (w : World Sys Ans Mem Ev σ) (e : Ev) : World Sys Ans Mem Ev σ :=
  { w with trace := w.trace ++ [.marked e] }

end World

/-- The run of a coroutine in an environment: what it returns, or nothing when
it ended the process. -/
def exec (env : Env Sys Ans Mem σ) :
    Coro Sys Ans Mem Ev α → World Sys Ans Mem Ev σ → Option α × World Sys Ans Mem Ev σ
  | ret a, w => (some a, w)
  | sys c k, w => (k (env.answer w.env w.mem c).1).exec env (w.answered env c)
  | suspend k, w => k.exec env (w.resumed env)
  | get k, w => (k w.mem).exec env w
  | put m k, w => k.exec env { w with mem := m }
  | mark e k, w => k.exec env (w.marked e)
  | exit, w => (none, w)

/-- A condition on what is answered, given what happened before. Marks are not
answers; what is asked of them is up to the coroutine. -/
abbrev Rely (Sys : Type) (Ans : Sys → Type) (Mem Ev : Type) : Type :=
  List (Item Sys Ans Mem Ev) → Item Sys Ans Mem Ev → Prop

/-- Every step of `items`, taken after `t`, meets the condition. -/
def Meets (R : Rely Sys Ans Mem Ev) :
    List (Item Sys Ans Mem Ev) → List (Item Sys Ans Mem Ev) → Prop
  | _, [] => True
  | t, i :: items => R t i ∧ Meets R (t ++ [i]) items

/-! ### The weakest precondition -/

/-- What has to hold before a coroutine so that, however it is answered within
`R`, `Q` holds when it returns and `X` when it ends the process. -/
def wp (R : Rely Sys Ans Mem Ev) (X : Mem → List (Item Sys Ans Mem Ev) → Prop) :
    Coro Sys Ans Mem Ev α → (α → Mem → List (Item Sys Ans Mem Ev) → Prop) →
      Mem → List (Item Sys Ans Mem Ev) → Prop
  | ret a, Q, m, t => Q a m t
  | sys c k, Q, m, t => ∀ a, R t (.called m c a) → (k a).wp R X Q m (t ++ [.called m c a])
  | suspend k, Q, m, t => ∀ m', R t (.resumed m m') → k.wp R X Q m' (t ++ [.resumed m m'])
  | get k, Q, m, t => (k m).wp R X Q m t
  | put m' k, Q, _, t => k.wp R X Q m' t
  | mark e k, Q, m, t => k.wp R X Q m (t ++ [.marked e])
  | exit, _, m, t => X m t

variable {R : Rely Sys Ans Mem Ev} {X : Mem → List (Item Sys Ans Mem Ev) → Prop}
  {Q : α → Mem → List (Item Sys Ans Mem Ev) → Prop}
  {Q' : β → Mem → List (Item Sys Ans Mem Ev) → Prop}
  {m : Mem} {t : List (Item Sys Ans Mem Ev)}

@[simp] lemma wp_pure (a : α) : wp R X (pure a : Coro Sys Ans Mem Ev α) Q m t ↔ Q a m t :=
  Iff.rfl

@[simp] lemma wp_call (c : Sys) {Q : Ans c → Mem → List (Item Sys Ans Mem Ev) → Prop} :
    wp R X (call c) Q m t ↔ ∀ a, R t (.called m c a) → Q a m (t ++ [.called m c a]) :=
  Iff.rfl

@[simp] lemma wp_giveWay {Q : Unit → Mem → List (Item Sys Ans Mem Ev) → Prop} :
    wp R X giveWay Q m t ↔ ∀ m', R t (.resumed m m') → Q () m' (t ++ [.resumed m m']) :=
  Iff.rfl

@[simp] lemma wp_memory {Q : Mem → Mem → List (Item Sys Ans Mem Ev) → Prop} :
    wp R X memory Q m t ↔ Q m m t :=
  Iff.rfl

@[simp] lemma wp_event (e : Ev) {Q : Unit → Mem → List (Item Sys Ans Mem Ev) → Prop} :
    wp R X (event e) Q m t ↔ Q () m (t ++ [.marked e]) :=
  Iff.rfl

/-- **Sequence.** -/
@[simp] theorem wp_bind (p : Coro Sys Ans Mem Ev α) (f : α → Coro Sys Ans Mem Ev β) :
    wp R X (p >>= f) Q' m t ↔ wp R X p (fun a => wp R X (f a) Q') m t := by
  show wp R X (p.bind f) Q' m t ↔ _
  induction p generalizing m t with
  | ret a => exact Iff.rfl
  | sys c k ih => exact forall_congr' fun a => imp_congr_right fun _ => ih a
  | suspend k ih => exact forall_congr' fun m' => imp_congr_right fun _ => ih
  | get k ih => exact ih m
  | put m' k ih => exact ih
  | mark e k ih => exact ih
  | exit => exact Iff.rfl

/-- **Consequence.** -/
theorem wp_mono {p : Coro Sys Ans Mem Ev α}
    {Q₁ Q₂ : α → Mem → List (Item Sys Ans Mem Ev) → Prop}
    (h : wp R X p Q₁ m t) (hQ : ∀ a m' t', Q₁ a m' t' → Q₂ a m' t') : wp R X p Q₂ m t := by
  induction p generalizing m t with
  | ret a => exact hQ a m t h
  | sys c k ih => exact fun a ha => ih a (h a ha)
  | suspend k ih => exact fun m' hm' => ih (h m' hm')
  | get k ih => exact ih m h
  | put m' k ih => exact ih h
  | mark e k ih => exact ih h
  | exit => exact h

/-- There is always nothing to be shown. -/
lemma wp_true (p : Coro Sys Ans Mem Ev α) :
    wp R (fun _ _ => True) p (fun _ _ _ => True) m t := by
  induction p generalizing m t with
  | ret a => trivial
  | sys c k ih => exact fun a _ => ih a
  | suspend k ih => exact fun m' _ => ih
  | get k ih => exact ih m
  | put m' k ih => exact ih
  | mark e k ih => exact ih
  | exit => trivial

/-- **Conjunction.** -/
theorem wp_and {p : Coro Sys Ans Mem Ev α}
    {Q₁ Q₂ : α → Mem → List (Item Sys Ans Mem Ev) → Prop} (h₁ : wp R X p Q₁ m t)
    (h₂ : wp R X p Q₂ m t) : wp R X p (fun a m' t' => Q₁ a m' t' ∧ Q₂ a m' t') m t := by
  induction p generalizing m t with
  | ret a => exact ⟨h₁, h₂⟩
  | sys c k ih => exact fun a ha => ih a (h₁ a ha) (h₂ a ha)
  | suspend k ih => exact fun m' hm' => ih (h₁ m' hm') (h₂ m' hm')
  | get k ih => exact ih m h₁ h₂
  | put m' k ih => exact ih h₁ h₂
  | mark e k ih => exact ih h₁ h₂
  | exit => exact h₁

/-! ### What a coroutine returns -/

/-- Whatever the coroutine returns is as `P` says. -/
def Returns (P : α → Prop) : Coro Sys Ans Mem Ev α → Prop
  | ret a => P a
  | sys _ k => ∀ a, (k a).Returns P
  | suspend k => k.Returns P
  | get k => ∀ m, (k m).Returns P
  | put _ k => k.Returns P
  | mark _ k => k.Returns P
  | exit => True

lemma returns_pure {P : α → Prop} {a : α} (h : P a) :
    (pure a : Coro Sys Ans Mem Ev α).Returns P := h

lemma returns_bind {P : β → Prop} {p : Coro Sys Ans Mem Ev α} {f : α → Coro Sys Ans Mem Ev β}
    (hf : ∀ a, (f a).Returns P) : (p >>= f).Returns P := by
  show (p.bind f).Returns P
  induction p with
  | ret a => exact hf a
  | sys c k ih => exact fun a => ih a
  | suspend k ih => exact ih
  | get k ih => exact fun m => ih m
  | put m k ih => exact ih
  | mark e k ih => exact ih
  | exit => trivial

/-- What is known of every returned value is known at the end. -/
lemma wp_returns {P : α → Prop} {p : Coro Sys Ans Mem Ev α} (h : wp R X p Q m t)
    (hp : p.Returns P) : wp R X p (fun a m' t' => Q a m' t' ∧ P a) m t := by
  induction p generalizing m t with
  | ret a => exact ⟨h, hp⟩
  | sys c k ih => exact fun a ha => ih a (h a ha) (hp a)
  | suspend k ih => exact fun m' hm' => ih (h m' hm') hp
  | get k ih => exact ih m h (hp m)
  | put m' k ih => exact ih h hp
  | mark e k ih => exact ih h hp
  | exit => exact h

/-! ### Coroutines that make harmless calls only -/

/-- From memory `m` on the coroutine makes calls in `C` and marks in `E` only, its
writes take the memory from one value to another as `W` says, and it ends the
process only if `Z`. -/
def UsesFrom (C : Sys → Prop) (E : Ev → Prop) (W : Mem → Mem → Prop) (Z : Prop) :
    Coro Sys Ans Mem Ev α → Mem → Prop
  | ret _, _ => True
  | sys c k, m => C c ∧ ∀ a, (k a).UsesFrom C E W Z m
  | suspend k, _ => ∀ m, k.UsesFrom C E W Z m
  | get k, m => (k m).UsesFrom C E W Z m
  | put m' k, m => W m m' ∧ k.UsesFrom C E W Z m'
  | mark e k, m => E e ∧ k.UsesFrom C E W Z m
  | exit, _ => Z

/-- The same from every memory. -/
def Uses (C : Sys → Prop) (E : Ev → Prop) (W : Mem → Mem → Prop) (Z : Prop)
    (p : Coro Sys Ans Mem Ev α) : Prop :=
  ∀ m, p.UsesFrom C E W Z m

section Uses

variable {C : Sys → Prop} {E : Ev → Prop} {W : Mem → Mem → Prop} {Z : Prop}

@[simp] lemma uses_pure (a : α) : (pure a : Coro Sys Ans Mem Ev α).Uses C E W Z :=
  fun _ => trivial

lemma uses_call {c : Sys} (h : C c) : (call c : Coro Sys Ans Mem Ev (Ans c)).Uses C E W Z :=
  fun _ => ⟨h, fun _ => trivial⟩

@[simp] lemma uses_giveWay : (giveWay : Coro Sys Ans Mem Ev Unit).Uses C E W Z :=
  fun _ _ => trivial

@[simp] lemma uses_memory : (memory : Coro Sys Ans Mem Ev Mem).Uses C E W Z :=
  fun _ => trivial

/-- What follows a look at the memory knows it. -/
lemma usesFrom_memory_bind {f : Mem → Coro Sys Ans Mem Ev β} {m : Mem} :
    (memory >>= f).UsesFrom C E W Z m ↔ (f m).UsesFrom C E W Z m := Iff.rfl

lemma uses_event {e : Ev} (h : E e) : (event e : Coro Sys Ans Mem Ev Unit).Uses C E W Z :=
  fun _ => ⟨h, trivial⟩

lemma uses_exit (h : Z) : (exit : Coro Sys Ans Mem Ev α).Uses C E W Z := fun _ => h

lemma usesFrom_bind {p : Coro Sys Ans Mem Ev α} {f : α → Coro Sys Ans Mem Ev β} {m : Mem}
    (hp : p.UsesFrom C E W Z m) (hf : ∀ a, (f a).Uses C E W Z) :
    (p >>= f).UsesFrom C E W Z m := by
  show (p.bind f).UsesFrom C E W Z m
  induction p generalizing m with
  | ret a => exact hf a m
  | sys c k ih => exact ⟨hp.1, fun a => ih a (hp.2 a)⟩
  | suspend k ih => exact fun m' => ih (hp m')
  | get k ih => exact ih m hp
  | put m' k ih => exact ⟨hp.1, ih hp.2⟩
  | mark e k ih => exact ⟨hp.1, ih hp.2⟩
  | exit => exact hp

/-- The same where more is known of the first part's end. -/
lemma usesFrom_bind_of_wp {p : Coro Sys Ans Mem Ev α} {f : α → Coro Sys Ans Mem Ev β} {m : Mem}
    (hp : p.UsesFrom C E W Z m)
    (hf : wp (fun _ _ => True) (fun _ _ => True) p (fun a m' _ => (f a).UsesFrom C E W Z m') m t) :
    (p >>= f).UsesFrom C E W Z m := by
  show (p.bind f).UsesFrom C E W Z m
  induction p generalizing m t with
  | ret a => exact hf
  | sys c k ih => exact ⟨hp.1, fun a => ih a (hp.2 a) (hf a trivial)⟩
  | suspend k ih => exact fun m' => ih (hp m') (hf m' trivial)
  | get k ih => exact ih m hp hf
  | put m' k ih => exact ⟨hp.1, ih hp.2 hf⟩
  | mark e k ih => exact ⟨hp.1, ih hp.2 hf⟩
  | exit => exact hp

lemma uses_bind {p : Coro Sys Ans Mem Ev α} {f : α → Coro Sys Ans Mem Ev β}
    (hp : p.Uses C E W Z) (hf : ∀ a, (f a).Uses C E W Z) : (p >>= f).Uses C E W Z :=
  fun m => usesFrom_bind (hp m) hf

lemma Uses.mono {C' : Sys → Prop} {E' : Ev → Prop} {W' : Mem → Mem → Prop} {Z' : Prop}
    {p : Coro Sys Ans Mem Ev α} (h : p.Uses C E W Z) (hC : ∀ c, C c → C' c)
    (hE : ∀ e, E e → E' e) (hW : ∀ m m', W m m' → W' m m') (hZ : Z → Z') :
    p.Uses C' E' W' Z' := by
  intro m
  have hfrom := h m
  clear h
  induction p generalizing m with
  | ret a => trivial
  | sys c k ih => exact ⟨hC c hfrom.1, fun a => ih a m (hfrom.2 a)⟩
  | suspend k ih => exact fun m' => ih m' (hfrom m')
  | get k ih => exact ih m m hfrom
  | put m' k ih => exact ⟨hW m m' hfrom.1, ih m' hfrom.2⟩
  | mark e k ih => exact ⟨hE e hfrom.1, ih m hfrom.2⟩
  | exit => exact hZ hfrom

/-- A change of the memory in place. -/
lemma uses_update {g : Mem → Mem} {f : Mem → Coro Sys Ans Mem Ev β} (hg : ∀ m, W m (g m))
    (hf : ∀ m, (f m).Uses C E W Z) :
    (memory >>= fun m => setMemory (g m) >>= fun _ => f m).Uses C E W Z :=
  fun m => ⟨hg m, hf m (g m)⟩

/-- **Frame rule.** What the harmless calls, marks and writes keep, and the others
keep, a coroutine that makes no other calls keeps. -/
theorem wp_of_uses {I : Mem → List (Item Sys Ans Mem Ev) → Prop}
    {p : Coro Sys Ans Mem Ev α} (hp : p.Uses C E W Z)
    (hcall : ∀ m t c a, C c → I m t → R t (.called m c a) → I m (t ++ [.called m c a]))
    (hothers : ∀ m m' t, I m t → R t (.resumed m m') → I m' (t ++ [.resumed m m']))
    (hmark : ∀ m t e, E e → I m t → I m (t ++ [.marked e]))
    (hput : ∀ m m' t, W m m' → I m t → I m' t) (hexit : Z → ∀ m t, I m t → X m t) (hI : I m t) :
    wp R X p (fun _ => I) m t := by
  have hfrom := hp m
  clear hp
  induction p generalizing m t with
  | ret a => exact hI
  | sys c k ih => exact fun a ha => ih a (hcall m t c a hfrom.1 hI ha) (hfrom.2 a)
  | suspend k ih => exact fun m' hm' => ih (hothers m m' t hI hm') (hfrom m')
  | get k ih => exact ih m hI hfrom
  | put m' k ih => exact ih (hput m m' t hfrom.1 hI) hfrom.2
  | mark e k ih => exact ih (hmark m t e hfrom.1 hI) hfrom.2
  | exit => exact hexit hfrom m t hI

end Uses

/-! ### The steps of a run -/

lemma meets_append {R : Rely Sys Ans Mem Ev} {t a b : List (Item Sys Ans Mem Ev)} :
    Meets R t (a ++ b) ↔ Meets R t a ∧ Meets R (t ++ a) b := by
  induction a generalizing t with
  | nil => simp [Meets]
  | cons i a ih =>
      rw [List.cons_append, Meets, Meets, ih, List.append_assoc, List.singleton_append, and_assoc]

lemma meets_singleton {R : Rely Sys Ans Mem Ev} {t : List (Item Sys Ans Mem Ev)}
    {i : Item Sys Ans Mem Ev} : Meets R t [i] ↔ R t i :=
  ⟨fun h => h.1, fun h => ⟨h, trivial⟩⟩

/-- A step of the run meets the condition after what came before it. -/
lemma Meets.exists_of_mem {t items : List (Item Sys Ans Mem Ev)} {i : Item Sys Ans Mem Ev}
    (h : Meets R t items) (hi : i ∈ items) : ∃ t', R t' i := by
  induction items generalizing t with
  | nil => cases hi
  | cons j items ih =>
      rcases List.mem_cons.mp hi with rfl | hi
      · exact ⟨t, h.1⟩
      · exact ih h.2 hi

/-- Every run meets the condition that asks for nothing. -/
lemma meets_true (t items : List (Item Sys Ans Mem Ev)) : Meets (fun _ _ => True) t items := by
  induction items generalizing t with
  | nil => trivial
  | cons i items ih => exact ⟨trivial, ih _⟩

/-- The marks of a run. -/
def marks (t : List (Item Sys Ans Mem Ev)) : List Ev :=
  t.filterMap fun i => match i with
    | .marked e => some e
    | _ => none

@[simp] lemma marks_append (t u : List (Item Sys Ans Mem Ev)) :
    marks (t ++ u) = marks t ++ marks u :=
  List.filterMap_append

lemma mem_marks {t : List (Item Sys Ans Mem Ev)} {e : Ev} : e ∈ marks t ↔ .marked e ∈ t := by
  rw [marks, List.mem_filterMap]
  constructor
  · rintro ⟨i, hi, he⟩
    cases i with
    | called m c a => cases he
    | resumed m m' => cases he
    | marked e' =>
        obtain rfl := Option.some.inj he
        exact hi
  · exact fun h => ⟨_, h, rfl⟩

/-- The steps meet the condition, and the others never run among them. This one
can be evaluated. -/
def meetsAlone (R : Rely Sys Ans Mem Ev) [∀ t m c a, Decidable (R t (.called m c a))]
    [∀ t e, Decidable (R t (.marked e))] :
    List (Item Sys Ans Mem Ev) → List (Item Sys Ans Mem Ev) → Bool
  | _, [] => true
  | t, .called m c a :: items =>
      decide (R t (.called m c a)) && meetsAlone R (t ++ [.called m c a]) items
  | t, .marked e :: items => decide (R t (.marked e)) && meetsAlone R (t ++ [.marked e]) items
  | _, .resumed _ _ :: _ => false

lemma meets_of_meetsAlone {R : Rely Sys Ans Mem Ev} [∀ t m c a, Decidable (R t (.called m c a))]
    [∀ t e, Decidable (R t (.marked e))] {t items : List (Item Sys Ans Mem Ev)}
    (h : meetsAlone R t items) : Meets R t items := by
  induction items generalizing t with
  | nil => trivial
  | cons i items ih =>
      cases i with
      | called m c a =>
          rw [meetsAlone, Bool.and_eq_true, decide_eq_true_iff] at h
          exact ⟨h.1, ih h.2⟩
      | resumed m m' => exact absurd h Bool.false_ne_true
      | marked e =>
          rw [meetsAlone, Bool.and_eq_true, decide_eq_true_iff] at h
          exact ⟨h.1, ih h.2⟩

/-! ### Soundness -/

/-- A run only adds to what is recorded. -/
lemma exec_trace (env : Env Sys Ans Mem σ) (p : Coro Sys Ans Mem Ev α)
    (w : World Sys Ans Mem Ev σ) : w.trace <+: (p.exec env w).2.trace := by
  induction p generalizing w with
  | ret a => exact List.prefix_rfl
  | sys c k ih => exact (List.prefix_append _ _).trans (ih _ (w.answered env c))
  | suspend k ih => exact (List.prefix_append _ _).trans (ih (w.resumed env))
  | get k ih => exact ih w.mem w
  | put m k ih => exact ih { w with mem := m }
  | mark e k ih => exact (List.prefix_append _ _).trans (ih (w.marked e))
  | exit => exact List.prefix_rfl

/-- The run of a sequence. -/
theorem exec_bind (env : Env Sys Ans Mem σ) (p : Coro Sys Ans Mem Ev α)
    (f : α → Coro Sys Ans Mem Ev β) (w : World Sys Ans Mem Ev σ) :
    (p >>= f).exec env w
      = (p.exec env w).1.elim (none, (p.exec env w).2)
          fun a => (f a).exec env (p.exec env w).2 := by
  show (p.bind f).exec env w = _
  induction p generalizing w with
  | ret a => rfl
  | sys c k ih => exact ih _ (w.answered env c)
  | suspend k ih => exact ih (w.resumed env)
  | get k ih => exact ih w.mem w
  | put m k ih => exact ih { w with mem := m }
  | mark e k ih => exact ih (w.marked e)
  | exit => rfl

/-- What was recorded before a run has no part in it. -/
lemma exec_append (env : Env Sys Ans Mem σ) (p : Coro Sys Ans Mem Ev α) (e : σ) (m : Mem)
    (t u : List (Item Sys Ans Mem Ev)) :
    p.exec env ⟨e, m, t ++ u⟩
      = ((p.exec env ⟨e, m, u⟩).1, { (p.exec env ⟨e, m, u⟩).2 with
          trace := t ++ (p.exec env ⟨e, m, u⟩).2.trace }) := by
  induction p generalizing e m u with
  | ret a => rfl
  | sys c k ih =>
      simp only [exec, World.answered, List.append_assoc]
      exact ih _ _ _ _
  | suspend k ih =>
      simp only [exec, World.resumed, List.append_assoc]
      exact ih _ _ _
  | get k ih => exact ih m e m u
  | put m' k ih => exact ih e m' u
  | mark ev k ih =>
      simp only [exec, World.marked, List.append_assoc]
      exact ih _ _ _
  | exit => rfl

/-- What was established for the end of a run. -/
def Ends (X : Mem → List (Item Sys Ans Mem Ev) → Prop)
    (Q : α → Mem → List (Item Sys Ans Mem Ev) → Prop) :
    Option α × World Sys Ans Mem Ev σ → Prop
  | (some a, w) => Q a w.mem w.trace
  | (none, w) => X w.mem w.trace

lemma meets_cons_of_trace {env : Env Sys Ans Mem σ} {k : Coro Sys Ans Mem Ev α}
    {w : World Sys Ans Mem Ev σ} {i : Item Sys Ans Mem Ev} {items : List (Item Sys Ans Mem Ev)}
    (hw : w.trace = t ++ [i]) (htrace : (k.exec env w).2.trace = t ++ items)
    (hmeets : Meets R t items) :
    R t i ∧ ∃ rest, (k.exec env w).2.trace = w.trace ++ rest ∧ Meets R w.trace rest := by
  obtain ⟨rest, hrest⟩ := exec_trace env k w
  have hitems : items = i :: rest := by
    rw [hw, htrace, List.append_assoc] at hrest
    exact (List.append_cancel_left hrest).symm
  rw [hitems] at hmeets
  exact ⟨hmeets.1, rest, hrest.symm, hw ▸ hmeets.2⟩

/-- **Soundness.** A run all of whose steps meet the condition ends as the
weakest precondition says. -/
theorem wp_sound {env : Env Sys Ans Mem σ} {p : Coro Sys Ans Mem Ev α}
    {w : World Sys Ans Mem Ev σ} {items : List (Item Sys Ans Mem Ev)}
    (hwp : wp R X p Q w.mem w.trace) (htrace : (p.exec env w).2.trace = w.trace ++ items)
    (hmeets : Meets R w.trace items) : Ends X Q (p.exec env w) := by
  induction p generalizing w items with
  | ret a => exact hwp
  | sys c k ih =>
      obtain ⟨hR, rest, hrest, hmeets'⟩ :=
        meets_cons_of_trace (w := w.answered env c) rfl htrace hmeets
      exact ih _ (w := w.answered env c) (hwp _ hR) hrest hmeets'
  | suspend k ih =>
      obtain ⟨hR, rest, hrest, hmeets'⟩ :=
        meets_cons_of_trace (w := w.resumed env) rfl htrace hmeets
      exact ih (w := w.resumed env) (hwp _ hR) hrest hmeets'
  | get k ih => exact ih w.mem hwp htrace hmeets
  | put m k ih => exact ih (w := { w with mem := m }) hwp htrace hmeets
  | mark e k ih =>
      obtain ⟨-, rest, hrest, hmeets'⟩ :=
        meets_cons_of_trace (w := w.marked e) rfl htrace hmeets
      exact ih (w := w.marked e) hwp hrest hmeets'
  | exit => exact hwp

/-- Soundness for a run from an empty record. -/
theorem wp_sound_nil {env : Env Sys Ans Mem σ} {p : Coro Sys Ans Mem Ev α} {s : σ}
    (hwp : wp R X p Q m []) (hmeets : Meets R [] (p.exec env ⟨s, m, []⟩).2.trace) :
    Ends X Q (p.exec env ⟨s, m, []⟩) :=
  wp_sound (w := ⟨s, m, []⟩) hwp rfl hmeets

lemma Ends.of_ne_none {run : Option α × World Sys Ans Mem Ev σ} (h : Ends X Q run)
    (hreturns : run.1 ≠ none) : ∃ a, run.1 = some a ∧ Q a run.2.mem run.2.trace := by
  obtain ⟨o, w⟩ := run
  cases o with
  | none => exact absurd rfl hreturns
  | some a => exact ⟨a, rfl, h⟩

/-- What was shown holds at the end of a run that returns. -/
theorem exec_returns {env : Env Sys Ans Mem σ} {p : Coro Sys Ans Mem Ev α} {s : σ}
    (hwp : wp R X p Q m []) (hmeets : Meets R [] (p.exec env ⟨s, m, []⟩).2.trace)
    (hreturns : (p.exec env ⟨s, m, []⟩).1 ≠ none) :
    ∃ a, (p.exec env ⟨s, m, []⟩).1 = some a ∧
      Q a (p.exec env ⟨s, m, []⟩).2.mem (p.exec env ⟨s, m, []⟩).2.trace :=
  (wp_sound_nil hwp hmeets).of_ne_none hreturns

/-- A run that cannot end the process returns. -/
theorem exec_total {env : Env Sys Ans Mem σ} {p : Coro Sys Ans Mem Ev α} {s : σ}
    (hwp : wp R (fun _ _ => False) p Q m [])
    (hmeets : Meets R [] (p.exec env ⟨s, m, []⟩).2.trace) :
    ∃ a, (p.exec env ⟨s, m, []⟩).1 = some a ∧
      Q a (p.exec env ⟨s, m, []⟩).2.mem (p.exec env ⟨s, m, []⟩).2.trace := by
  have hends := wp_sound_nil hwp hmeets
  refine hends.of_ne_none fun hnone => ?_
  rw [← Prod.mk.eta (p := p.exec env ⟨s, m, []⟩), hnone] at hends
  exact hends

/-! ### Environments that keep a condition -/

/-- Every run in an environment that keeps to the condition, by an invariant of
its own, meets it. -/
theorem exec_meets {env : Env Sys Ans Mem σ} {J : World Sys Ans Mem Ev σ → Prop}
    (hcall : ∀ w c, J w →
      R w.trace (.called w.mem c (env.answer w.env w.mem c).1) ∧ J (w.answered env c))
    (hothers : ∀ w, J w →
      R w.trace (.resumed w.mem (env.others w.env w.mem).1) ∧ J (w.resumed env))
    (hput : ∀ w m, J w → J { w with mem := m })
    (hmark : ∀ w e, J w → R w.trace (.marked e) ∧ J (w.marked e))
    (p : Coro Sys Ans Mem Ev α) {w : World Sys Ans Mem Ev σ} (hw : J w) :
    ∃ items, (p.exec env w).2.trace = w.trace ++ items ∧ Meets R w.trace items := by
  induction p generalizing w with
  | ret a => exact ⟨[], (List.append_nil _).symm, trivial⟩
  | sys c k ih =>
      obtain ⟨hR, hJ⟩ := hcall w c hw
      obtain ⟨items, htrace, hmeets⟩ := ih _ hJ
      exact ⟨_ :: items, by rw [exec, htrace, World.answered, List.append_assoc]; rfl, hR, hmeets⟩
  | suspend k ih =>
      obtain ⟨hR, hJ⟩ := hothers w hw
      obtain ⟨items, htrace, hmeets⟩ := ih hJ
      exact ⟨_ :: items, by rw [exec, htrace, World.resumed, List.append_assoc]; rfl, hR, hmeets⟩
  | get k ih => exact ih w.mem hw
  | put m k ih => exact ih (hput w m hw)
  | mark e k ih =>
      obtain ⟨hR, hJ⟩ := hmark w e hw
      obtain ⟨items, htrace, hmeets⟩ := ih hJ
      exact ⟨_ :: items, by rw [exec, htrace, World.marked, List.append_assoc]; rfl, hR, hmeets⟩
  | exit => exact ⟨[], (List.append_nil _).symm, trivial⟩

/-- Two conditions are met together when each is. -/
lemma meets_and {R R' : Rely Sys Ans Mem Ev} {t items : List (Item Sys Ans Mem Ev)} :
    Meets (fun t i => R t i ∧ R' t i) t items ↔ Meets R t items ∧ Meets R' t items := by
  induction items generalizing t with
  | nil => simp [Meets]
  | cons i items ih =>
      rw [Meets, Meets, Meets, ih]
      tauto

/-! ### What a run writes itself -/

/-- Along the steps, from memory `m` to memory `mEnd`, what the coroutine wrote
itself is as `W` says: from one step to the next the memory is its own work, and
while the others run it is theirs. -/
def OwnWrites (W : Mem → Mem → Prop) : Mem → List (Item Sys Ans Mem Ev) → Mem → Prop
  | m, [], mEnd => W m mEnd
  | m, .called m₁ _ _ :: items, mEnd => W m m₁ ∧ OwnWrites W m₁ items mEnd
  | m, .resumed m₁ m₂ :: items, mEnd => W m m₁ ∧ OwnWrites W m₂ items mEnd
  | m, .marked _ :: items, mEnd => OwnWrites W m items mEnd

section OwnWrites

variable {W : Mem → Mem → Prop} {m₀ m₁ m₂ : Mem}

/-- A last step after which the memory is as `h` says. -/
lemma ownWrites_concat {i : Item Sys Ans Mem Ev} {P : Prop}
    (h : ∀ m, OwnWrites W m [i] m₂ ↔ W m m₁ ∧ P) :
    OwnWrites W m₀ (t ++ [i]) m₂ ↔ OwnWrites W m₀ t m₁ ∧ P := by
  induction t generalizing m₀ with
  | nil => exact h m₀
  | cons j t ih =>
      cases j with
      | called m c a => rw [List.cons_append, OwnWrites, OwnWrites, ih, and_assoc]
      | resumed m m' => rw [List.cons_append, OwnWrites, OwnWrites, ih, and_assoc]
      | marked e => exact ih

@[simp] lemma ownWrites_called {c : Sys} {a : Ans c} :
    OwnWrites W m₀ (t ++ [.called m₁ c a]) m₂ ↔ OwnWrites W m₀ t m₁ ∧ W m₁ m₂ :=
  ownWrites_concat fun _ => Iff.rfl

@[simp] lemma ownWrites_resumed {m : Mem} :
    OwnWrites W m₀ (t ++ [.resumed m₁ m]) m₂ ↔ OwnWrites W m₀ t m₁ ∧ W m m₂ :=
  ownWrites_concat fun _ => Iff.rfl

@[simp] lemma ownWrites_marked {e : Ev} :
    OwnWrites W m₀ (t ++ [.marked e]) m₁ ↔ OwnWrites W m₀ t m₁ :=
  (ownWrites_concat fun _ => (and_iff_left trivial).symm).trans (and_iff_left trivial)

/-- One more write. -/
lemma OwnWrites.trans (hW : ∀ a b c, W a b → W b c → W a c) (h : OwnWrites W m₀ t m₁)
    (h' : W m₁ m₂) : OwnWrites W m₀ t m₂ := by
  induction t generalizing m₀ with
  | nil => exact hW _ _ _ h h'
  | cons i t ih =>
      cases i with
      | called m c a => exact ⟨h.1, ih h.2⟩
      | resumed m m' => exact ⟨h.1, ih h.2⟩
      | marked e => exact ih h

end OwnWrites

/-- What was shown both for the return and for the end of the process. -/
lemma Ends.of_same {run : Option α × World Sys Ans Mem Ev σ} (h : Ends X (fun _ => X) run) :
    X run.2.mem run.2.trace := by
  obtain ⟨o, w⟩ := run
  cases o with
  | none => exact h
  | some a => exact h

end Coro
