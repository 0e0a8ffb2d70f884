/-
What a coroutine owes on the way.

A weakest precondition is about the end of a coroutine. What it writes to the shared
memory before that is seen by the others at once, and the calls it makes may be seen by
other processes. Here a coroutine owes something for each of its calls, writes and marks,
which may depend on what it has recorded so far, and relies on what it is answered and
on what the others leave it.

* `Duties`: what a coroutine owes, and what it relies on;
* `guarded`, with a rule for each way to build a coroutine: the duties are met, and what
  holds at the end;
* `guarded_of_uses`, `guarded_frame`: coroutines whose calls, writes and marks are harmless
  anyway, and what the writes of others leave alone;
* `guardInvariant`, `step_mem_of_guarded`: in a pool of such coroutines every change of
  the memory meets what the one that runs owes, or is that of a function;
* `nextMark_of_guarded`: and so does every mark;
* `step_task`: the record of a coroutine grows by what the step did.
-/
import SharedStateAsync.Lib.Pool

namespace Coro

variable {Sys : Type} {Ans : Sys → Type} {Mem Ev Job Op α β : Type}

/-! ### Duties -/

/-- What a coroutine relies on, and what it owes when it makes a call, writes the memory,
makes a mark or ends the process. -/
structure Duties (Sys : Type) (Ans : Sys → Type) (Mem Ev : Type) where
  rely : Rely Sys Ans Mem Ev := fun _ _ => True
  call : List (Item Sys Ans Mem Ev) → Mem → Sys → Prop := fun _ _ _ => True
  write : List (Item Sys Ans Mem Ev) → Mem → Mem → Prop := fun _ _ _ => True
  mark : List (Item Sys Ans Mem Ev) → Mem → Ev → Prop := fun _ _ _ => True
  exit : Mem → List (Item Sys Ans Mem Ev) → Prop := fun _ _ => True

/-- The coroutine meets its duties, and `Q` holds at the end. -/
def guarded (U : Duties Sys Ans Mem Ev) :
    Coro Sys Ans Mem Ev α → (α → Mem → List (Item Sys Ans Mem Ev) → Prop) →
      Mem → List (Item Sys Ans Mem Ev) → Prop
  | ret a, Q, m, t => Q a m t
  | sys c k, Q, m, t => U.call t m c ∧
      ∀ a, U.rely t (.called m c a) → (k a).guarded U Q m (t ++ [.called m c a])
  | suspend k, Q, m, t =>
      ∀ m', U.rely t (.resumed m m') → k.guarded U Q m' (t ++ [.resumed m m'])
  | get k, Q, m, t => (k m).guarded U Q m t
  | put m' k, Q, m, t => U.write t m m' ∧ k.guarded U Q m' t
  | mark e k, Q, m, t => U.mark t m e ∧ k.guarded U Q m (t ++ [.marked e])
  | exit, _, m, t => U.exit m t

section Rules

variable {U : Duties Sys Ans Mem Ev} {m : Mem} {t : List (Item Sys Ans Mem Ev)}
  {Q : α → Mem → List (Item Sys Ans Mem Ev) → Prop}
  {Q' : β → Mem → List (Item Sys Ans Mem Ev) → Prop}

@[simp] lemma guarded_pure (a : α) :
    guarded U (pure a : Coro Sys Ans Mem Ev α) Q m t ↔ Q a m t := Iff.rfl

@[simp] lemma guarded_call (c : Sys) {Q : Ans c → Mem → List (Item Sys Ans Mem Ev) → Prop} :
    guarded U (call c) Q m t ↔
      U.call t m c ∧ ∀ a, U.rely t (.called m c a) → Q a m (t ++ [.called m c a]) := Iff.rfl

@[simp] lemma guarded_memory {Q : Mem → Mem → List (Item Sys Ans Mem Ev) → Prop} :
    guarded U memory Q m t ↔ Q m m t := Iff.rfl

@[simp] lemma guarded_setMemory (m' : Mem)
    {Q : Unit → Mem → List (Item Sys Ans Mem Ev) → Prop} :
    guarded U (setMemory m') Q m t ↔ U.write t m m' ∧ Q () m' t := Iff.rfl

@[simp] lemma guarded_event (e : Ev) {Q : Unit → Mem → List (Item Sys Ans Mem Ev) → Prop} :
    guarded U (event e) Q m t ↔ U.mark t m e ∧ Q () m (t ++ [.marked e]) := Iff.rfl

@[simp] lemma guarded_exit : guarded U (exit : Coro Sys Ans Mem Ev α) Q m t ↔ U.exit m t :=
  Iff.rfl

/-- **Sequence**: the second coroutine starts where the first one ends. -/
@[simp] theorem guarded_bind (p : Coro Sys Ans Mem Ev α) (f : α → Coro Sys Ans Mem Ev β) :
    guarded U (p >>= f) Q' m t ↔ guarded U p (fun a => guarded U (f a) Q') m t := by
  change guarded U (p.bind f) Q' m t ↔ _
  induction p generalizing m t with
  | ret a => exact Iff.rfl
  | sys c k ih => exact and_congr_right fun _ => forall₂_congr fun a _ => ih a
  | suspend k ih => exact forall₂_congr fun m' _ => ih
  | get k ih => exact ih m
  | put m' k ih => exact and_congr_right fun _ => ih
  | mark e k ih => exact and_congr_right fun _ => ih
  | exit => exact Iff.rfl

theorem guarded_mono {p : Coro Sys Ans Mem Ev α}
    {Q₁ Q₂ : α → Mem → List (Item Sys Ans Mem Ev) → Prop} (h : guarded U p Q₁ m t)
    (hQ : ∀ a m' t', Q₁ a m' t' → Q₂ a m' t') : guarded U p Q₂ m t := by
  induction p generalizing m t with
  | ret a => exact hQ a m t h
  | sys c k ih => exact ⟨h.1, fun a ha => ih a (h.2 a ha)⟩
  | suspend k ih => exact fun m' hm' => ih (h m' hm')
  | get k ih => exact ih m h
  | put m' k ih => exact ⟨h.1, ih h.2⟩
  | mark e k ih => exact ⟨h.1, ih h.2⟩
  | exit => exact h

lemma guarded_returns {P : α → Prop} {p : Coro Sys Ans Mem Ev α} (h : guarded U p Q m t)
    (hp : p.Returns P) : guarded U p (fun a m' t' => Q a m' t' ∧ P a) m t := by
  induction p generalizing m t with
  | ret a => exact ⟨h, hp⟩
  | sys c k ih => exact ⟨h.1, fun a ha => ih a (h.2 a ha) (hp a)⟩
  | suspend k ih => exact fun m' hm' => ih (h m' hm') hp
  | get k ih => exact ih m h (hp m)
  | put m' k ih => exact ⟨h.1, ih h.2 hp⟩
  | mark e k ih => exact ⟨h.1, ih h.2 hp⟩
  | exit => exact h

/-- The duties leave an invariant alone, and are met where it holds: by calls in `C`, marks
in `E`, writes in `W`, and, if `Z`, by an exit. -/
structure Duties.Spares (U : Duties Sys Ans Mem Ev) (C : Sys → Prop) (E : Ev → Prop)
    (W : Mem → Mem → Prop) (Z : Prop) (I : Mem → List (Item Sys Ans Mem Ev) → Prop) : Prop where
  call : ∀ m t c, C c → I m t → U.call t m c
  called : ∀ m t c a, C c → U.rely t (.called m c a) → I m t → I m (t ++ [.called m c a])
  resumed : ∀ m m' t, U.rely t (.resumed m m') → I m t → I m' (t ++ [.resumed m m'])
  mark : ∀ m t e, E e → I m t → U.mark t m e
  marked : ∀ m t e, E e → I m t → I m (t ++ [.marked e])
  write : ∀ m m' t, W m m' → I m t → U.write t m m'
  written : ∀ m m' t, W m m' → I m t → I m' t
  exit : ∀ m t, Z → I m t → U.exit m t

/-- **Coroutines that do harmless things only** meet their duties, and keep what these
things leave alone. -/
theorem guarded_of_uses {C : Sys → Prop} {E : Ev → Prop} {W : Mem → Mem → Prop} {Z : Prop}
    {I : Mem → List (Item Sys Ans Mem Ev) → Prop} {p : Coro Sys Ans Mem Ev α}
    (hp : p.Uses C E W Z) (hU : U.Spares C E W Z I) (hI : I m t) :
    guarded U p (fun _ => I) m t := by
  have hfrom : p.UsesFrom C E W Z m := hp m
  clear hp
  induction p generalizing m t with
  | ret a => exact hI
  | sys c k ih =>
      exact ⟨hU.call m t c hfrom.1 hI,
        fun a ha => ih a (hU.called m t c a hfrom.1 ha hI) (hfrom.2 a)⟩
  | suspend k ih => exact fun m' hm' => ih (hU.resumed m m' t hm' hI) (hfrom m')
  | get k ih => exact ih m hI hfrom
  | put m' k ih =>
      exact ⟨hU.write m m' t hfrom.1 hI, ih (hU.written m m' t hfrom.1 hI) hfrom.2⟩
  | mark e k ih => exact ⟨hU.mark m t e hfrom.1 hI, ih (hU.marked m t e hfrom.1 hI) hfrom.2⟩
  | exit => exact hU.exit m t hfrom hI

end Rules

/-! ### Pools -/

/-- The coroutines of a pool owe `G` for every write and `E` for every mark, which depend
on what each was started for. -/
def guardInvariant (G : Job → List (Item Sys Ans Mem Ev) → Mem → Mem → Prop)
    (E : Job → List (Item Sys Ans Mem Ev) → Mem → Ev → Prop) :
    TaskInvariant Sys Ans Mem Ev Job fun _ _ _ _ => True where
  run := fun job code m t =>
    guarded { write := G job, mark := E job } code (fun _ _ _ => True) m t
  wait := fun job code m t => ∀ m', guarded { write := G job, mark := E job } code
    (fun _ _ _ => True) m' (t ++ [.resumed m m'])
  sys := fun _ _ _ _ _ h a => h.2 a trivial
  suspend := fun _ _ _ _ h m' => h m' trivial
  resume := fun _ _ _ m' _ h _ => h m'
  get := fun _ _ _ _ h => h
  put := fun _ _ _ _ _ h => h.2
  mark := fun _ _ _ _ _ h => h.2

/-- The mark the coroutine that runs makes with the event. -/
def Pool.nextMark (p : Pool Sys Ans Mem Ev Job) (ev : PoolEvent Sys Ans Job Op) : Option Ev :=
  match ev with
  | .advance _ =>
      if p.ended then none
      else p.running.bind fun i => (p.tasks i).bind fun task =>
        match task.code with
        | .mark e _ => some e
        | _ => none
  | _ => none

/-- The coroutine `i` is the one that runs. -/
structure Pool.Runs (p : Pool Sys Ans Mem Ev Job) (i : ℕ) (task : Task Sys Ans Mem Ev Job) :
    Prop where
  running : p.running = some i
  task : p.tasks i = some task

/-- No coroutine runs, so that a function can be called. -/
def Pool.idle (p : Pool Sys Ans Mem Ev Job) : Bool := !p.ended && p.running.isNone

section Steps

variable {p : Pool Sys Ans Mem Ev Job} {body : Job → Coro Sys Ans Mem Ev Unit}
  {effect : Op → Mem → Option Mem} {ev : PoolEvent Sys Ans Job Op}

/-- A function that is called while no coroutine runs has its effect. -/
lemma step_sync_mem {op : Op} {m : Mem} (h : p.idle) (hop : effect op p.mem = some m) :
    (p.step body effect (.sync op)).mem = m := by
  obtain ⟨hended, hrunning⟩ := Bool.and_eq_true_iff.mp h
  unfold Pool.step
  rw [if_neg (by simpa using hended), Option.isNone_iff_eq_none.mp hrunning]
  simp only [hop]

lemma nextMark_eq_some {e : Ev} (h : p.nextMark ev = some e) :
    ∃ i task k, p.Runs i task ∧ task.code = .mark e k := by
  cases ev with
  | advance answer =>
      rw [Pool.nextMark] at h
      split_ifs at h
      obtain ⟨i, hrunning, h⟩ := Option.bind_eq_some_iff.mp h
      obtain ⟨task, htask, h⟩ := Option.bind_eq_some_iff.mp h
      cases hcode : task.code with
      | mark e' k =>
          rw [hcode] at h
          obtain rfl := Option.some.inj h
          exact ⟨i, task, k, ⟨hrunning, htask⟩, hcode⟩
      | _ =>
          rw [hcode] at h
          cases h
  | _ => cases h

/-- A mark leaves the memory alone. -/
lemma step_mem_of_nextMark {e : Ev} (h : p.nextMark ev = some e) :
    (p.step body effect ev).mem = p.mem := by
  cases ev with
  | advance answer =>
      obtain ⟨i, task, k, ⟨hrunning, htask⟩, hcode⟩ := nextMark_eq_some h
      unfold Pool.step
      split_ifs
      · rfl
      rw [hrunning]
      simp only [htask, Pool.advance, hcode, Pool.setTask]
  | _ => cases h

/-- **What is known of a coroutine after a step**: it has just been started, or it was
there before, and its record has grown by a step of its own or by its resumption. -/
theorem step_task {i : ℕ} {task' : Task Sys Ans Mem Ev Job}
    (h : (p.step body effect ev).tasks i = some task') :
    (task'.trace = [] ∧ ev = .spawn i task'.job) ∨
      ∃ task, p.tasks i = some task ∧ task'.job = task.job ∧
        (task'.trace = task.trace ∨ ∃ item, task'.trace = task.trace ++ [item] ∧
          ∀ e, item = .marked e → p.nextMark ev = some e ∧ p.Runs i task) := by
  by_cases hended : p.ended = true
  · unfold Pool.step at h
    rw [if_pos hended] at h
    exact Or.inr ⟨task', h, rfl, Or.inl rfl⟩
  rcases p.step_cases body effect ev with hstep | ⟨j, job, hev, -, -, hstep⟩ |
    ⟨j, task, -, -, htask, hstep⟩ | ⟨answer, j, task, hev, hrunning, htask, hstep⟩ |
    ⟨op, m, -, -, -, hstep⟩ | hstep
  · rw [hstep] at h
    exact Or.inr ⟨task', h, rfl, Or.inl rfl⟩
  · rw [hstep] at h
    by_cases hij : i = j
    · subst hij
      simp only [Pool.setTask, Function.update_self] at h
      obtain rfl := Option.some.inj h
      exact Or.inl ⟨rfl, hev⟩
    · simp only [Pool.setTask, Function.update_of_ne hij] at h
      exact Or.inr ⟨task', h, rfl, Or.inl rfl⟩
  · rw [hstep] at h
    by_cases hij : i = j
    · subst hij
      simp only [Pool.setTask, Function.update_self] at h
      obtain rfl := Option.some.inj h
      exact Or.inr ⟨task, htask, rfl, Or.inr ⟨_, rfl, by rintro e ⟨⟩⟩⟩
    · simp only [Pool.setTask, Function.update_of_ne hij] at h
      exact Or.inr ⟨task', h, rfl, Or.inl rfl⟩
  · rw [hstep] at h
    by_cases hij : i = j
    · subst hij
      rw [Pool.advance] at h
      cases hcode : task.code with
      | ret a =>
          simp only [hcode, Function.update_self] at h
          cases h
      | exit =>
          simp only [hcode] at h
          cases h
      | sys c k =>
          simp only [hcode, Pool.setTask, Function.update_self] at h
          obtain rfl := Option.some.inj h
          exact Or.inr ⟨task, htask, rfl, Or.inr ⟨_, rfl, by rintro e ⟨⟩⟩⟩
      | mark e k =>
          simp only [hcode, Pool.setTask, Function.update_self] at h
          obtain rfl := Option.some.inj h
          refine Or.inr ⟨task, htask, rfl, Or.inr ⟨_, rfl, ?_⟩⟩
          rintro e' ⟨⟩
          refine ⟨?_, hrunning, htask⟩
          rw [hev, Pool.nextMark, if_neg hended, hrunning, Option.bind_some, htask,
            Option.bind_some, hcode]
      | _ =>
          simp only [hcode, Pool.setTask, Function.update_self] at h
          obtain rfl := Option.some.inj h
          exact Or.inr ⟨task, htask, rfl, Or.inl rfl⟩
    · exact Or.inr ⟨task', Pool.advance_of_ne hij h, rfl, Or.inl rfl⟩
  · rw [hstep] at h
    exact Or.inr ⟨task', h, rfl, Or.inl rfl⟩
  · rw [hstep] at h
    cases h

variable {G : Job → List (Item Sys Ans Mem Ev) → Mem → Mem → Prop}
  {E : Job → List (Item Sys Ans Mem Ev) → Mem → Ev → Prop}

variable (body effect ev) in
/-- **Every change of the memory** meets what the coroutine that runs owes for what it
has recorded, unless a function is called while none runs. -/
theorem step_mem_of_guarded (h : (guardInvariant G E).Holds p) :
    (p.step body effect ev).mem = p.mem ∨
      (∃ i task, p.Runs i task ∧ G task.job task.trace p.mem (p.step body effect ev).mem) ∨
      ∃ op, ev = .sync op ∧ p.idle ∧ effect op p.mem = some (p.step body effect ev).mem := by
  by_cases hended : p.ended = true
  · refine Or.inl ?_
    unfold Pool.step
    rw [if_pos hended]
  rcases p.step_cases body effect ev with hstep | ⟨i, job, -, -, -, hstep⟩ |
    ⟨i, task, -, -, -, hstep⟩ | ⟨answer, i, task, -, hrunning, htask, hstep⟩ |
    ⟨op, m', hev, hrunning, hop, hstep⟩ | hstep
  · exact Or.inl (by rw [hstep])
  · exact Or.inl (by rw [hstep]; rfl)
  · exact Or.inl (by rw [hstep]; rfl)
  · rw [hstep, Pool.advance]
    have hrun : guarded { write := G task.job, mark := E task.job } task.code
        (fun _ _ _ => True) p.mem task.trace := (h i task htask).1 hrunning
    cases hcode : task.code with
    | put m k =>
        rw [hcode] at hrun
        exact Or.inr (Or.inl ⟨i, task, ⟨hrunning, htask⟩, hrun.1⟩)
    | _ => exact Or.inl rfl
  · have hidle : p.idle = true := by simp [Pool.idle, hended, hrunning]
    exact Or.inr (Or.inr ⟨op, hev, hidle, by rw [hstep]; exact hop⟩)
  · exact Or.inl (by rw [hstep]; rfl)

/-- **Every mark** meets what the coroutine that runs owes. -/
theorem nextMark_of_guarded (h : (guardInvariant G E).Holds p) {e : Ev}
    (hmark : p.nextMark ev = some e) :
    ∃ i task, p.Runs i task ∧ E task.job task.trace p.mem e := by
  obtain ⟨i, task, k, hruns, hcode⟩ := nextMark_eq_some hmark
  have hrun : guarded { write := G task.job, mark := E task.job } task.code
      (fun _ _ _ => True) p.mem task.trace := (h i task hruns.task).1 hruns.running
  rw [hcode] at hrun
  exact ⟨i, task, hruns, hrun.1⟩

end Steps

end Coro
