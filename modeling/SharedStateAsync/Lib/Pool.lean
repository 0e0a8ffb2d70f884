/-
The coroutines of a process, one running at a time.

A pool holds the coroutines that were started and have not ended, and the memory
they share. One of them runs at most, and it runs until it gives way, ends, or ends
the process; any of those that gave way may be the next. In between the process
calls functions that never give way. Which coroutine is next and how its calls are
answered is up to the events that drive the pool.

* `Task`, `Pool`, `PoolEvent`, `Pool.step`: the pool and its steps;
* `Pool.step_cases`, `Pool.step_waiting`: what a step can do;
* `TaskInvariant`: what is known of a coroutine while it runs and while it waits;
* `TaskInvariant.step`: a step of the pool keeps what is known of all of them;
* `writesInvariant`, `throughout_of_writes`: what the coroutines write, and an
  invariant of the memory that every write keeps;
* `wpInvariant`, `wp_partial`: what the weakest precondition says of a coroutine
  that has not ended yet.
-/
import SharedStateAsync.Lib.Coroutine
import SharedStateAsync.Lib.Machine

namespace Coro

variable {Sys : Type} {Ans : Sys → Type} {Mem Ev Job Op : Type}

/-- A coroutine of a pool: what it was started for, what is left of it, the memory it
left when it gave way last, and what it has recorded. -/
structure Task (Sys : Type) (Ans : Sys → Type) (Mem Ev Job : Type) where
  job : Job
  code : Coro Sys Ans Mem Ev Unit
  left : Mem
  trace : List (Item Sys Ans Mem Ev) := []

structure Pool (Sys : Type) (Ans : Sys → Type) (Mem Ev Job : Type) where
  mem : Mem
  tasks : ℕ → Option (Task Sys Ans Mem Ev Job) := fun _ => none
  /-- The coroutine that runs. -/
  running : Option ℕ := none
  /-- The process has ended. -/
  ended : Bool := false

/-- What can happen in a process. -/
inductive PoolEvent (Sys : Type) (Ans : Sys → Type) (Job Op : Type) where
  /-- A coroutine is started, and runs. -/
  | spawn (i : ℕ) (job : Job)
  /-- A coroutine that gave way runs again. -/
  | resume (i : ℕ)
  /-- The coroutine that runs makes a step; a call is answered as given. -/
  | advance (answer : (c : Sys) → Ans c)
  /-- A function that never gives way is called. -/
  | sync (op : Op)

namespace Pool

/-- Put `task` in place of a coroutine. -/
def setTask (p : Pool Sys Ans Mem Ev Job) (i : ℕ) (task : Task Sys Ans Mem Ev Job) :
    Pool Sys Ans Mem Ev Job :=
  { p with tasks := Function.update p.tasks i (some task) }

/-- The process ends, and all its coroutines with it. -/
def exited (p : Pool Sys Ans Mem Ev Job) : Pool Sys Ans Mem Ev Job where
  mem := p.mem
  ended := true

/-- The coroutine `i`, which runs, makes a step. -/
def advance (p : Pool Sys Ans Mem Ev Job) (i : ℕ) (task : Task Sys Ans Mem Ev Job)
    (answer : (c : Sys) → Ans c) : Pool Sys Ans Mem Ev Job :=
  match task.code with
  | .ret _ => { p with tasks := Function.update p.tasks i none, running := none }
  | .sys c k => p.setTask i
      { task with code := k (answer c), trace := task.trace ++ [.called p.mem c (answer c)] }
  | .suspend k => { p.setTask i { task with code := k, left := p.mem } with running := none }
  | .get k => p.setTask i { task with code := k p.mem }
  | .put m k => { p.setTask i { task with code := k } with mem := m }
  | .mark e k => p.setTask i { task with code := k, trace := task.trace ++ [.marked e] }
  | .exit => p.exited

/-- One step of the process. `body` gives the coroutine of a job, and `effect` what a
function does to the memory, nothing when it ends the process. An event that is not
possible changes nothing. -/
def step (body : Job → Coro Sys Ans Mem Ev Unit) (effect : Op → Mem → Option Mem)
    (p : Pool Sys Ans Mem Ev Job) (ev : PoolEvent Sys Ans Job Op) : Pool Sys Ans Mem Ev Job :=
  if p.ended then p
  else
    match ev, p.running with
    | .spawn i job, none =>
        match p.tasks i with
        | none => { p.setTask i ⟨job, body job, p.mem, []⟩ with running := some i }
        | some _ => p
    | .resume i, none =>
        match p.tasks i with
        | none => p
        | some task =>
            { p.setTask i { task with trace := task.trace ++ [.resumed task.left p.mem] } with
              running := some i }
    | .advance answer, some i =>
        match p.tasks i with
        | none => p
        | some task => p.advance i task answer
    | .sync op, none =>
        match effect op p.mem with
        | some m => { p with mem := m }
        | none => p.exited
    | _, _ => p

/-- **What a step can do**: nothing, start a coroutine, let one run again, advance the
one that runs, or call a function. -/
theorem step_cases (body : Job → Coro Sys Ans Mem Ev Unit) (effect : Op → Mem → Option Mem)
    (p : Pool Sys Ans Mem Ev Job) (ev : PoolEvent Sys Ans Job Op) :
    p.step body effect ev = p ∨
      (∃ i job, ev = .spawn i job ∧ p.running = none ∧ p.tasks i = none ∧
        p.step body effect ev
          = { p.setTask i ⟨job, body job, p.mem, []⟩ with running := some i }) ∨
      (∃ i task, ev = .resume i ∧ p.running = none ∧ p.tasks i = some task ∧
        p.step body effect ev
          = { p.setTask i { task with trace := task.trace ++ [.resumed task.left p.mem] } with
              running := some i }) ∨
      (∃ answer i task, ev = .advance answer ∧ p.running = some i ∧ p.tasks i = some task ∧
        p.step body effect ev = p.advance i task answer) ∨
      (∃ op m, ev = .sync op ∧ p.running = none ∧ effect op p.mem = some m ∧
        p.step body effect ev = { p with mem := m }) ∨
      p.step body effect ev = p.exited := by
  by_cases hended : p.ended = true
  · exact Or.inl (if_pos hended)
  unfold step
  rw [if_neg hended]
  cases ev with
  | spawn i job =>
      cases hrunning : p.running with
      | some j => exact Or.inl rfl
      | none =>
          dsimp only
          cases htask : p.tasks i with
          | some task => exact Or.inl rfl
          | none => exact Or.inr (Or.inl ⟨i, job, rfl, rfl, htask, rfl⟩)
  | resume i =>
      cases hrunning : p.running with
      | some j => exact Or.inl rfl
      | none =>
          dsimp only
          cases htask : p.tasks i with
          | none => exact Or.inl rfl
          | some task => exact Or.inr (Or.inr (Or.inl ⟨i, task, rfl, rfl, htask, rfl⟩))
  | advance answer =>
      cases hrunning : p.running with
      | none => exact Or.inl rfl
      | some i =>
          dsimp only
          cases htask : p.tasks i with
          | none => exact Or.inl rfl
          | some task =>
              exact Or.inr (Or.inr (Or.inr (Or.inl ⟨answer, i, task, rfl, rfl, htask, rfl⟩)))
  | sync op =>
      cases hrunning : p.running with
      | some j => exact Or.inl rfl
      | none =>
          dsimp only
          cases hm : effect op p.mem with
          | none => exact Or.inr (Or.inr (Or.inr (Or.inr (Or.inr rfl))))
          | some m =>
              exact Or.inr (Or.inr (Or.inr (Or.inr (Or.inl ⟨op, m, rfl, rfl, hm, rfl⟩))))

/-- After a step of the coroutine that runs, it waits only if it has just given way. -/
lemma advance_self {p : Pool Sys Ans Mem Ev Job} {i : ℕ} {task task' : Task Sys Ans Mem Ev Job}
    {answer : (c : Sys) → Ans c} (hrunning : p.running = some i)
    (htask' : (p.advance i task answer).tasks i = some task')
    (hwaits : (p.advance i task answer).running ≠ some i) :
    task'.left = p.mem ∧ (p.advance i task answer).mem = p.mem := by
  rw [advance] at htask' hwaits ⊢
  cases hcode : task.code with
  | suspend k =>
      simp only [hcode, setTask, Function.update_self] at htask' ⊢
      obtain rfl := Option.some.inj htask'
      exact ⟨rfl, trivial⟩
  | ret a =>
      simp only [hcode, Function.update_self] at htask'
      cases htask'
  | exit =>
      simp only [hcode] at htask'
      cases htask'
  | _ =>
      simp only [hcode] at hwaits
      exact absurd hrunning hwaits

lemma advance_of_ne {p : Pool Sys Ans Mem Ev Job} {i j : ℕ} {task task' : Task Sys Ans Mem Ev Job}
    {answer : (c : Sys) → Ans c} (hij : i ≠ j)
    (htask' : (p.advance j task answer).tasks i = some task') : p.tasks i = some task' := by
  rw [advance] at htask'
  cases hcode : task.code with
  | exit =>
      simp only [hcode] at htask'
      cases htask'
  | _ => simpa only [hcode, setTask, Function.update_of_ne hij] using htask'

/-- **A coroutine that waits** after a step waited before it, or has just given way. -/
theorem step_waiting {body : Job → Coro Sys Ans Mem Ev Unit} {effect : Op → Mem → Option Mem}
    {p : Pool Sys Ans Mem Ev Job} {ev : PoolEvent Sys Ans Job Op} {i : ℕ}
    {task : Task Sys Ans Mem Ev Job} (htask : (p.step body effect ev).tasks i = some task)
    (hwaits : (p.step body effect ev).running ≠ some i) :
    (p.tasks i = some task ∧ p.running ≠ some i) ∨
      (task.left = p.mem ∧ (p.step body effect ev).mem = p.mem) := by
  rcases p.step_cases body effect ev with hstep | ⟨j, job, -, hrunning, -, hstep⟩ |
    ⟨j, task', -, hrunning, -, hstep⟩ | ⟨answer, j, task', -, hrunning, -, hstep⟩ |
    ⟨op, m, -, -, -, hstep⟩ | hstep
  · rw [hstep] at htask hwaits
    exact Or.inl ⟨htask, hwaits⟩
  · rw [hstep] at htask hwaits
    have hij : i ≠ j := fun hij => hwaits (congrArg some hij.symm)
    simp only [setTask, Function.update_of_ne hij] at htask
    exact Or.inl ⟨htask, by rw [hrunning]; nofun⟩
  · rw [hstep] at htask hwaits
    have hij : i ≠ j := fun hij => hwaits (congrArg some hij.symm)
    simp only [setTask, Function.update_of_ne hij] at htask
    exact Or.inl ⟨htask, by rw [hrunning]; nofun⟩
  · rw [hstep] at htask hwaits ⊢
    by_cases hij : i = j
    · subst hij
      exact Or.inr (advance_self hrunning htask hwaits)
    · refine Or.inl ⟨advance_of_ne hij htask, ?_⟩
      rw [hrunning]
      exact fun hj => hij (Option.some.inj hj).symm
  · rw [hstep] at htask hwaits
    exact Or.inl ⟨htask, hwaits⟩
  · rw [hstep] at htask
    cases htask

/-- A step of a coroutine does not change what it was started for. -/
lemma advance_job {p : Pool Sys Ans Mem Ev Job} {i : ℕ} {task task' : Task Sys Ans Mem Ev Job}
    {answer : (c : Sys) → Ans c} (htask' : (p.advance i task answer).tasks i = some task') :
    task'.job = task.job := by
  rw [advance] at htask'
  cases hcode : task.code with
  | ret a =>
      simp only [hcode, Function.update_self] at htask'
      cases htask'
  | exit =>
      simp only [hcode] at htask'
      cases htask'
  | _ =>
      simp only [hcode, setTask, Function.update_self] at htask'
      obtain rfl := Option.some.inj htask'
      rfl

/-- **Coroutines are started for what they do**: each of a run was started for its
job. -/
theorem spawn_mem {body : Job → Coro Sys Ans Mem Ev Unit} {effect : Op → Mem → Option Mem}
    {m : Mem} {evs : List (PoolEvent Sys Ans Job Op)} {i : ℕ} {task : Task Sys Ans Mem Ev Job}
    (htask : (Machine.run (Pool.step body effect) ({ mem := m } : Pool Sys Ans Mem Ev Job)
      evs).tasks i = some task) : .spawn i task.job ∈ evs := by
  induction evs using List.reverseRecOn generalizing task with
  | nil => cases htask
  | append_singleton evs ev ih =>
      rw [Machine.run_concat] at htask
      set p := Machine.run (Pool.step body effect) ({ mem := m } : Pool Sys Ans Mem Ev Job) evs
      have hold : ∀ task₀, p.tasks i = some task₀ → task₀.job = task.job →
          .spawn i task.job ∈ evs ++ [ev] := by
        intro task₀ htask₀ hjob
        rw [← hjob]
        exact List.mem_append_left _ (ih htask₀)
      rcases p.step_cases body effect ev with hstep | ⟨j, job, hev, -, -, hstep⟩ |
        ⟨j, task', -, -, htask', hstep⟩ | ⟨answer, j, task', -, -, htask', hstep⟩ |
        ⟨op, m', -, -, -, hstep⟩ | hstep
      · rw [hstep] at htask
        exact hold task htask rfl
      · rw [hstep] at htask
        by_cases hij : i = j
        · subst hij
          simp only [setTask, Function.update_self] at htask
          obtain rfl := Option.some.inj htask
          rw [hev]
          exact List.mem_append_right _ (List.mem_singleton_self _)
        · simp only [setTask, Function.update_of_ne hij] at htask
          exact hold task htask rfl
      · rw [hstep] at htask
        by_cases hij : i = j
        · subst hij
          simp only [setTask, Function.update_self] at htask
          obtain rfl := Option.some.inj htask
          exact hold task' htask' rfl
        · simp only [setTask, Function.update_of_ne hij] at htask
          exact hold task htask rfl
      · rw [hstep] at htask
        by_cases hij : i = j
        · subst hij
          exact hold task' htask' (advance_job htask).symm
        · exact hold task (advance_of_ne hij htask) rfl
      · rw [hstep] at htask
        exact hold task htask rfl
      · rw [hstep] at htask
        cases htask

end Pool

/-! ### What is known of the coroutines -/

/-- What is known of the coroutine of a job while it runs and while it waits, given
its code, the memory and what it has recorded, where the others keep to `O` while it
waits. -/
structure TaskInvariant (Sys : Type) (Ans : Sys → Type) (Mem Ev Job : Type)
    (O : Job → List (Item Sys Ans Mem Ev) → Mem → Mem → Prop) where
  run : Job → Coro Sys Ans Mem Ev Unit → Mem → List (Item Sys Ans Mem Ev) → Prop
  wait : Job → Coro Sys Ans Mem Ev Unit → Mem → List (Item Sys Ans Mem Ev) → Prop
  sys : ∀ job c k m t, run job (.sys c k) m t → ∀ a, run job (k a) m (t ++ [.called m c a])
  suspend : ∀ job k m t, run job (.suspend k) m t → wait job k m t
  resume : ∀ job k m m' t, wait job k m t → O job t m m' → run job k m' (t ++ [.resumed m m'])
  get : ∀ job k m t, run job (.get k) m t → run job (k m) m t
  put : ∀ job k m m' t, run job (.put m' k) m t → run job k m' t
  mark : ∀ job k m e t, run job (.mark e k) m t → run job k m (t ++ [.marked e])

namespace TaskInvariant

variable {O : Job → List (Item Sys Ans Mem Ev) → Mem → Mem → Prop}

/-- All coroutines of the pool are as they should be. -/
def Holds (S : TaskInvariant Sys Ans Mem Ev Job O) (p : Pool Sys Ans Mem Ev Job) : Prop :=
  ∀ i task, p.tasks i = some task →
    (p.running = some i → S.run task.job task.code p.mem task.trace) ∧
    (p.running ≠ some i → S.wait task.job task.code task.left task.trace)

variable {S : TaskInvariant Sys Ans Mem Ev Job O} {p : Pool Sys Ans Mem Ev Job}

/-- A pool with no coroutines. -/
lemma holds_of_none (h : ∀ i, p.tasks i = none) : S.Holds p := by
  intro i task htask
  rw [h i] at htask
  cases htask

/-- The coroutine that runs, or is to run, is put back as it should be, and the others
are left alone. -/
lemma Holds.update {q : Pool Sys Ans Mem Ev Job} {i : ℕ} {task : Task Sys Ans Mem Ev Job}
    (h : S.Holds p) (hp : ∀ j, p.running = some j → j = i)
    (htasks : q.tasks = Function.update p.tasks i (some task))
    (hrunning : ∀ j, q.running = some j → j = i)
    (hrun : q.running = some i → S.run task.job task.code q.mem task.trace)
    (hwait : q.running ≠ some i → S.wait task.job task.code task.left task.trace) :
    S.Holds q := by
  intro j task' htask'
  rw [htasks] at htask'
  by_cases hj : j = i
  · subst hj
    rw [Function.update_self] at htask'
    obtain rfl := Option.some.inj htask'
    exact ⟨hrun, hwait⟩
  · rw [Function.update_of_ne hj] at htask'
    exact ⟨fun hrun' => absurd (hrunning j hrun') hj,
      fun _ => (h j task' htask').2 fun hrun' => hj (hp j hrun')⟩

/-- The coroutine that runs makes a step. -/
lemma Holds.advance (h : S.Holds p) {i : ℕ} {task : Task Sys Ans Mem Ev Job}
    (hrunning : p.running = some i) (htask : p.tasks i = some task)
    (answer : (c : Sys) → Ans c) : S.Holds (p.advance i task answer) := by
  have hp : ∀ j, p.running = some j → j = i := fun j hj =>
    Option.some.inj (hj.symm.trans hrunning)
  have hrun := (h i task htask).1 hrunning
  rw [Pool.advance]
  cases hcode : task.code with
  | ret a =>
      intro j task' htask'
      have hj : j ≠ i := by
        rintro rfl
        simp only [Function.update_self] at htask'
        cases htask'
      simp only [Function.update_of_ne hj] at htask'
      exact ⟨nofun, fun _ => (h j task' htask').2 fun hrun' => hj (hp j hrun')⟩
  | sys c k =>
      rw [hcode] at hrun
      exact h.update hp rfl hp (fun _ => S.sys _ c k _ _ hrun (answer c))
        fun hne => absurd hrunning hne
  | suspend k =>
      rw [hcode] at hrun
      exact h.update hp rfl nofun nofun fun _ => S.suspend _ k _ _ hrun
  | get k =>
      rw [hcode] at hrun
      exact h.update hp rfl hp (fun _ => S.get _ k _ _ hrun) fun hne => absurd hrunning hne
  | put m k =>
      rw [hcode] at hrun
      exact h.update hp rfl hp (fun _ => S.put _ k _ m _ hrun) fun hne => absurd hrunning hne
  | mark e k =>
      rw [hcode] at hrun
      exact h.update hp rfl hp (fun _ => S.mark _ k _ e _ hrun) fun hne => absurd hrunning hne
  | exit => exact holds_of_none fun _ => rfl

/-- **A step of the pool.** What is known of all coroutines is kept, if it is known
of those that are started, and the others kept to their condition when one runs
again. -/
theorem Holds.step {body : Job → Coro Sys Ans Mem Ev Unit} {effect : Op → Mem → Option Mem}
    {ev : PoolEvent Sys Ans Job Op} (h : S.Holds p)
    (hspawn : ∀ i job, ev = .spawn i job → S.run job (body job) p.mem [])
    (hresume : ∀ i task, ev = .resume i → p.running = none → p.tasks i = some task →
      O task.job task.trace task.left p.mem) : S.Holds (p.step body effect ev) := by
  rcases p.step_cases body effect ev with hstep | ⟨i, job, hev, hrunning, htask, hstep⟩ |
    ⟨i, task, hev, hrunning, htask, hstep⟩ | ⟨answer, i, task, -, hrunning, htask, hstep⟩ |
    ⟨op, m, -, hrunning, -, hstep⟩ | hstep
  · rw [hstep]
    exact h
  · rw [hstep]
    exact h.update (fun j hj => by rw [hrunning] at hj; cases hj) rfl
      (fun j hj => (Option.some.inj hj).symm) (fun _ => hspawn i job hev) fun hne => absurd rfl hne
  · rw [hstep]
    have hwait := (h i task htask).2 (by rw [hrunning]; nofun)
    exact h.update (fun j hj => by rw [hrunning] at hj; cases hj) rfl
      (fun j hj => (Option.some.inj hj).symm)
      (fun _ => S.resume _ _ _ _ _ hwait (hresume i task hev hrunning htask))
      fun hne => absurd rfl hne
  · rw [hstep]
    exact h.advance hrunning htask answer
  · rw [hstep]
    intro j task htask
    refine ⟨fun hj => ?_, (h j task htask).2⟩
    rw [show p.running = some j from hj] at hrunning
    cases hrunning
  · rw [hstep]
    exact holds_of_none fun _ => rfl

end TaskInvariant

/-! ### What is written -/

section Writes

variable {W : Mem → Mem → Prop}

/-- The coroutine writes as `W` says. -/
abbrev Writes (W : Mem → Mem → Prop) (code : Coro Sys Ans Mem Ev Unit) : Mem → Prop :=
  code.UsesFrom (fun _ => True) (fun _ => True) W True

/-- Coroutines that write as `W` says. -/
def writesInvariant (W : Mem → Mem → Prop) :
    TaskInvariant Sys Ans Mem Ev Job fun _ _ _ _ => True where
  run := fun _ code m _ => Writes W code m
  wait := fun _ code _ _ => ∀ m, Writes W code m
  sys := fun _ _ _ _ _ h a => h.2 a
  suspend := fun _ _ _ _ h => h
  resume := fun _ _ _ m' _ h _ => h m'
  get := fun _ _ _ _ h => h
  put := fun _ _ _ _ _ h => h.2
  mark := fun _ _ _ _ _ h => h.2

/-- In a pool of such coroutines, a step leaves the memory as it is or writes as `W`
says, unless a function is called. -/
lemma TaskInvariant.Holds.step_mem {p : Pool Sys Ans Mem Ev Job} (h : (writesInvariant W).Holds p)
    (body : Job → Coro Sys Ans Mem Ev Unit) (effect : Op → Mem → Option Mem)
    (ev : PoolEvent Sys Ans Job Op) :
    (p.step body effect ev).mem = p.mem ∨ W p.mem (p.step body effect ev).mem ∨
      ∃ op, ev = .sync op ∧ effect op p.mem = some (p.step body effect ev).mem := by
  rcases p.step_cases body effect ev with hstep | ⟨i, job, -, -, -, hstep⟩ |
    ⟨i, task, -, -, -, hstep⟩ | ⟨answer, i, task, -, hrunning, htask, hstep⟩ |
    ⟨op, m', hev, -, hop, hstep⟩ | hstep
  · exact Or.inl (by rw [hstep])
  · exact Or.inl (by rw [hstep]; rfl)
  · exact Or.inl (by rw [hstep]; rfl)
  · rw [hstep, Pool.advance]
    have hrun : Writes W task.code p.mem := (h i task htask).1 hrunning
    cases hcode : task.code with
    | put m k =>
        rw [hcode] at hrun
        exact Or.inr (Or.inl hrun.1)
    | _ => exact Or.inl rfl
  · exact Or.inr (Or.inr ⟨op, hev, by rw [hstep]; exact hop⟩)
  · exact Or.inl (by rw [hstep]; rfl)

/-- **An invariant of the memory** that all functions and all writes of the
coroutines keep holds in every state of a run. -/
theorem throughout_of_writes {I : Mem → Prop} {body : Job → Coro Sys Ans Mem Ev Unit}
    {effect : Op → Mem → Option Mem} (hbody : ∀ job m, Writes (fun m m' => I m → I m') (body job) m)
    (heffect : ∀ op m m', effect op m = some m' → I m → I m') {m : Mem} (hI : I m)
    (evs : List (PoolEvent Sys Ans Job Op)) :
    Machine.Throughout (Pool.step body effect) (fun p => I p.mem)
      ({ mem := m } : Pool Sys Ans Mem Ev Job) evs := by
  have hboth : ∀ pre, pre <+: evs →
      I (Machine.run (Pool.step body effect) ({ mem := m } : Pool Sys Ans Mem Ev Job) pre).mem ∧
      (writesInvariant fun m m' => I m → I m').Holds
        (Machine.run (Pool.step body effect) ({ mem := m } : Pool Sys Ans Mem Ev Job) pre) := by
    refine Machine.run_induction ⟨hI, TaskInvariant.holds_of_none fun _ => rfl⟩ ?_
    rintro pre ev - ⟨hmem, htasks⟩
    rw [Machine.run_concat]
    refine ⟨?_, htasks.step (fun i job _ => hbody job _) fun i task _ _ _ => trivial⟩
    rcases htasks.step_mem body effect ev with hsame | hwrites | ⟨op, -, hop⟩
    · rw [hsame]
      exact hmem
    · exact hwrites hmem
    · exact heffect op _ _ hop hmem
  exact fun pre hpre => (hboth pre hpre).1

end Writes

/-! ### Coroutines that have not ended yet -/

section Partial

variable {α : Type} {R : Rely Sys Ans Mem Ev}

/-- What the weakest precondition says of the coroutines of a pool, where no answer of
the system is excluded. -/
def wpInvariant (R : Job → Rely Sys Ans Mem Ev)
    (X : Job → Mem → List (Item Sys Ans Mem Ev) → Prop)
    (hcalled : ∀ job t m c a, R job t (.called m c a)) :
    TaskInvariant Sys Ans Mem Ev Job fun job t m m' => R job t (.resumed m m') where
  run := fun job code m t => wp (R job) (X job) code (fun _ => X job) m t
  wait := fun job code m t => ∀ m', R job t (.resumed m m') →
    wp (R job) (X job) code (fun _ => X job) m' (t ++ [Item.resumed m m'])
  sys := fun job c _ m t h a => h a (hcalled job t m c a)
  suspend := fun _ _ _ _ h => h
  resume := fun _ _ _ m' _ h hO => h m' hO
  get := fun _ _ _ _ h => h
  put := fun _ _ _ _ _ h => h
  mark := fun _ _ _ _ _ h => h

/-- What is shown of the record at the end holds of it all along, if it is not lost
when steps are dropped: every run can be completed. -/
theorem wp_partial {J : List (Item Sys Ans Mem Ev) → Prop} {p : Coro Sys Ans Mem Ev α} {m : Mem}
    {t : List (Item Sys Ans Mem Ev)} (hJ : ∀ t i, J (t ++ [i]) → J t)
    (hcalled : ∀ t m c, ∃ a, R t (.called m c a)) (hresumed : ∀ t m, ∃ m', R t (.resumed m m'))
    (h : wp R (fun _ => J) p (fun _ _ => J) m t) : J t := by
  induction p generalizing m t with
  | ret a => exact h
  | sys c k ih =>
      obtain ⟨a, ha⟩ := hcalled t m c
      exact hJ t _ (ih a (h a ha))
  | suspend k ih =>
      obtain ⟨m', hm'⟩ := hresumed t m
      exact hJ t _ (ih (h m' hm'))
  | get k ih => exact ih m h
  | put m' k ih => exact ih h
  | mark e k ih => exact hJ t _ (ih h)
  | exit => exact h

end Partial

end Coro
