/-
The coroutines of a process, next to a kernel.

The kernel has a state of its own, which decides how the calls of the coroutines can be answered.
Others change it too, while no coroutine of the process runs.

* `Kernel`, `KernelPool`, `KernelEvent`, `KernelPool.step`: the pool over a kernel, and its steps;
* `Coro.secure`: the weakest precondition that asks besides for an invariant of the memory at every
  write, and for one of memory and kernel whenever the coroutine gives way;
* `secure_bind`, `secure_mono`: its rules;
* `Secured.step`: a step of the pool keeps what is known of all its coroutines;
* `throughout_of_secure`: the invariant of the memory holds in every state of a run.
-/
import SharedStateAsync.Lib.Pool

namespace Coro

variable {Sys : Type} {Ans : Sys → Type} {Mem Ev Job κ ω α β : Type}

/-! ### The pool -/

/-- A kernel with the state `κ`: its state after a call has been answered, nothing if it cannot be
answered so; whether a coroutine can be started for a job; and what others do to it. -/
structure Kernel (Sys : Type) (Ans : Sys → Type) (Mem Ev Job κ ω : Type) where
  answers : κ → Item Sys Ans Mem Ev → Option κ
  admits : Job → Mem → κ → Bool
  outside : ω → Mem → κ → Option κ

/-- A pool of coroutines, and the state of the kernel. -/
structure KernelPool (Sys : Type) (Ans : Sys → Type) (Mem Ev Job κ : Type) where
  pool : Pool Sys Ans Mem Ev Job
  kernel : κ

/-- What can happen in a process and around it. -/
inductive KernelEvent (Sys : Type) (Ans : Sys → Type) (Job ω : Type) where
  /-- A coroutine is started, and runs. -/
  | spawn (i : ℕ) (job : Job)
  /-- A coroutine that gave way runs again. -/
  | resume (i : ℕ)
  /-- The coroutine that runs makes a step; a call is answered as given. -/
  | advance (answer : (c : Sys) → Ans c)
  /-- Others do something to the kernel. -/
  | outside (e : ω)

/-- The call a coroutine is about to make. -/
def nextCall : Coro Sys Ans Mem Ev α → Option Sys
  | sys c _ => some c
  | _ => none

/-- The call the coroutine that runs is about to make. -/
def Pool.pendingCall (p : Pool Sys Ans Mem Ev Job) : Option Sys :=
  if p.ended then none else p.running.bind fun i => (p.tasks i).bind fun task => nextCall task.code

namespace KernelPool

/-- A step of the pool that the kernel takes no part in. -/
def onPool (body : Job → Coro Sys Ans Mem Ev Unit) (s : KernelPool Sys Ans Mem Ev Job κ)
    (ev : PoolEvent Sys Ans Job Empty) : KernelPool Sys Ans Mem Ev Job κ :=
  { s with pool := s.pool.step body (fun op _ => op.elim) ev }

/-- One step. An event that is not possible changes nothing. -/
def step (body : Job → Coro Sys Ans Mem Ev Unit) (K : Kernel Sys Ans Mem Ev Job κ ω)
    (s : KernelPool Sys Ans Mem Ev Job κ) (ev : KernelEvent Sys Ans Job ω) :
    KernelPool Sys Ans Mem Ev Job κ :=
  match ev with
  | .spawn i job =>
      if K.admits job s.pool.mem s.kernel then s.onPool body (.spawn i job) else s
  | .resume i => s.onPool body (.resume i)
  | .advance answer =>
      match s.pool.pendingCall with
      | none => s.onPool body (.advance answer)
      | some c =>
          match K.answers s.kernel (.called s.pool.mem c (answer c)) with
          | none => s
          | some kernel => { s.onPool body (.advance answer) with kernel := kernel }
  | .outside e =>
      if s.pool.running = none then
        match K.outside e s.pool.mem s.kernel with
        | none => s
        | some kernel => { s with kernel := kernel }
      else s

end KernelPool

/-! ### Weakest preconditions -/

/-- What has to hold before a coroutine so that, however it is answered, `J` holds of the memory
after every write, `I` of memory and kernel whenever it gives way, and `Q` when it returns. While it
waits the others keep `I`. -/
def secure (answers : κ → Item Sys Ans Mem Ev → Option κ) (I : Mem → κ → Prop) (J : Mem → Prop) :
    Coro Sys Ans Mem Ev α → (α → Mem → κ → Prop) → Mem → κ → Prop
  | ret a, Q, m, s => Q a m s
  | sys c k, Q, m, s =>
      ∀ a s', answers s (.called m c a) = some s' → (k a).secure answers I J Q m s'
  | suspend k, Q, m, s => I m s ∧ ∀ m' s', I m' s' → k.secure answers I J Q m' s'
  | get k, Q, m, s => (k m).secure answers I J Q m s
  | put m' k, Q, _, s => J m' ∧ k.secure answers I J Q m' s
  | mark _ k, Q, m, s => k.secure answers I J Q m s
  | exit, _, _, _ => True

section Rules

variable {answers : κ → Item Sys Ans Mem Ev → Option κ} {I : Mem → κ → Prop} {J : Mem → Prop}
  {Q : α → Mem → κ → Prop} {Q' : β → Mem → κ → Prop} {m : Mem} {s : κ}

@[simp] lemma secure_pure (a : α) :
    secure answers I J (pure a : Coro Sys Ans Mem Ev α) Q m s ↔ Q a m s := Iff.rfl

@[simp] lemma secure_call (c : Sys) {Q : Ans c → Mem → κ → Prop} :
    secure answers I J (call c) Q m s ↔
      ∀ a s', answers s (.called m c a) = some s' → Q a m s' := Iff.rfl

@[simp] lemma secure_giveWay {Q : Unit → Mem → κ → Prop} :
    secure answers I J giveWay Q m s ↔ I m s ∧ ∀ m' s', I m' s' → Q () m' s' := Iff.rfl

@[simp] lemma secure_memory {Q : Mem → Mem → κ → Prop} :
    secure answers I J memory Q m s ↔ Q m m s := Iff.rfl

@[simp] lemma secure_setMemory (m' : Mem) {Q : Unit → Mem → κ → Prop} :
    secure answers I J (setMemory m') Q m s ↔ J m' ∧ Q () m' s := Iff.rfl

@[simp] lemma secure_event (e : Ev) {Q : Unit → Mem → κ → Prop} :
    secure answers I J (event e) Q m s ↔ Q () m s := Iff.rfl

@[simp] lemma secure_exit : secure answers I J (exit : Coro Sys Ans Mem Ev α) Q m s := trivial

/-- **Sequence.** -/
@[simp] theorem secure_bind (p : Coro Sys Ans Mem Ev α) (f : α → Coro Sys Ans Mem Ev β) :
    secure answers I J (p >>= f) Q' m s
      ↔ secure answers I J p (fun a => secure answers I J (f a) Q') m s := by
  show secure answers I J (p.bind f) Q' m s ↔ _
  induction p generalizing m s with
  | ret a => exact Iff.rfl
  | sys c k ih => exact forall_congr' fun a => forall_congr' fun s' => imp_congr_right fun _ => ih a
  | suspend k ih =>
      exact and_congr_right fun _ =>
        forall_congr' fun m' => forall_congr' fun s' => imp_congr_right fun _ => ih
  | get k ih => exact ih m
  | put m' k ih => exact and_congr_right fun _ => ih
  | mark e k ih => exact ih
  | exit => exact Iff.rfl

/-- **Consequence.** -/
theorem secure_mono {p : Coro Sys Ans Mem Ev α} {Q₁ Q₂ : α → Mem → κ → Prop}
    (h : secure answers I J p Q₁ m s) (hQ : ∀ a m' s', Q₁ a m' s' → Q₂ a m' s') :
    secure answers I J p Q₂ m s := by
  induction p generalizing m s with
  | ret a => exact hQ a m s h
  | sys c k ih => exact fun a s' ha => ih a (h a s' ha)
  | suspend k ih => exact ⟨h.1, fun m' s' hI => ih (h.2 m' s' hI)⟩
  | get k ih => exact ih m h
  | put m' k ih => exact ⟨h.1, ih h.2⟩
  | mark e k ih => exact ih h
  | exit => trivial

end Rules

/-! ### Runs -/

/-- What is known of a pool over a kernel: the memory is `J`, memory and kernel are `I` while no
coroutine runs, and the coroutines keep to that. -/
structure Secured (answers : κ → Item Sys Ans Mem Ev → Option κ) (I : Mem → κ → Prop)
    (J : Mem → Prop) (s : KernelPool Sys Ans Mem Ev Job κ) : Prop where
  mem : J s.pool.mem
  idle : s.pool.running = none → s.pool.ended = false → I s.pool.mem s.kernel
  running : ∀ i task, s.pool.tasks i = some task → s.pool.running = some i →
    secure answers I J task.code (fun _ => I) s.pool.mem s.kernel
  waiting : ∀ i task, s.pool.tasks i = some task → s.pool.running ≠ some i →
    ∀ m' s', I m' s' → secure answers I J task.code (fun _ => I) m' s'

section Runs

variable {answers : κ → Item Sys Ans Mem Ev → Option κ} {I : Mem → κ → Prop} {J : Mem → Prop}
  {s : KernelPool Sys Ans Mem Ev Job κ} {i : ℕ} {task : Task Sys Ans Mem Ev Job}

/-- The process has ended. -/
lemma Secured.exited (h : Secured answers I J s) (kernel : κ) :
    Secured answers I J ⟨s.pool.exited, kernel⟩ where
  mem := h.mem
  idle := fun _ hended => Bool.noConfusion hended
  running := fun _ _ htask _ => nomatch htask
  waiting := fun _ _ htask _ => nomatch htask

/-- One coroutine is put back and runs, or goes on running. -/
lemma Secured.runs (h : Secured answers I J s) (hother : ∀ j, s.pool.running = some j → j = i)
    {p : Pool Sys Ans Mem Ev Job} {kernel : κ}
    (htasks : p.tasks = Function.update s.pool.tasks i (some task))
    (hrunning : p.running = some i) (hmem : J p.mem)
    (hsecure : secure answers I J task.code (fun _ => I) p.mem kernel) :
    Secured answers I J ⟨p, kernel⟩ where
  mem := hmem
  idle := fun hnone => by
    rw [hrunning] at hnone
    cases hnone
  running := by
    intro j task' htask' hj
    obtain rfl := Option.some.inj (hrunning.symm.trans hj)
    simp only [htasks, Function.update_self] at htask'
    obtain rfl := Option.some.inj htask'
    exact hsecure
  waiting := by
    intro j task' htask' hj
    have hne : j ≠ i := fun hji => hj (hrunning.trans (congrArg some hji.symm))
    simp only [htasks, Function.update_of_ne hne] at htask'
    exact h.waiting j task' htask' fun hj' => hne (hother j hj')

/-- The coroutine that ran has given way or returned. -/
lemma Secured.rests (h : Secured answers I J s) (hother : ∀ j, s.pool.running = some j → j = i)
    {p : Pool Sys Ans Mem Ev Job} {left : Option (Task Sys Ans Mem Ev Job)}
    (htasks : p.tasks = Function.update s.pool.tasks i left) (hrunning : p.running = none)
    (hmem : p.mem = s.pool.mem) (hI : I s.pool.mem s.kernel)
    (hsecure : ∀ task, left = some task → ∀ m' s', I m' s' →
      secure answers I J task.code (fun _ => I) m' s') :
    Secured answers I J ⟨p, s.kernel⟩ where
  mem := hmem ▸ h.mem
  idle := fun _ _ => hmem ▸ hI
  running := fun j _ _ hj => by
    rw [hrunning] at hj
    cases hj
  waiting := by
    intro j task' htask' _
    by_cases hne : j = i
    · subst hne
      simp only [htasks, Function.update_self] at htask'
      exact hsecure task' htask'
    · simp only [htasks, Function.update_of_ne hne] at htask'
      exact h.waiting j task' htask' fun hj' => hne (hother j hj')

/-- The coroutine that runs makes a step, and the kernel answers if it is called. -/
lemma Secured.advance (h : Secured answers I J s) (hrunning : s.pool.running = some i)
    (htask : s.pool.tasks i = some task) (answer : (c : Sys) → Ans c) {kernel : κ}
    (hkernel : (nextCall task.code).elim (kernel = s.kernel) fun c =>
      answers s.kernel (.called s.pool.mem c (answer c)) = some kernel) :
    Secured answers I J ⟨s.pool.advance i task answer, kernel⟩ := by
  have hother : ∀ j, s.pool.running = some j → j = i := fun j hj =>
    Option.some.inj (hj.symm.trans hrunning)
  have hrun := h.running i task htask hrunning
  rw [Pool.advance]
  cases hcode : task.code with
  | sys c k =>
      rw [hcode] at hrun hkernel
      exact h.runs hother rfl hrunning h.mem (hrun _ _ hkernel)
  | ret a =>
      rw [hcode] at hrun hkernel
      obtain rfl : kernel = s.kernel := hkernel
      exact h.rests hother rfl rfl rfl hrun fun task' hleft =>
        absurd hleft (Option.some_ne_none task').symm
  | suspend k =>
      rw [hcode] at hrun hkernel
      obtain rfl : kernel = s.kernel := hkernel
      refine h.rests hother rfl rfl rfl hrun.1 fun task' htask' => ?_
      obtain rfl := Option.some.inj htask'
      exact hrun.2
  | get k =>
      rw [hcode] at hrun hkernel
      obtain rfl : kernel = s.kernel := hkernel
      exact h.runs hother rfl hrunning h.mem hrun
  | put m k =>
      rw [hcode] at hrun hkernel
      obtain rfl : kernel = s.kernel := hkernel
      exact h.runs hother rfl hrunning hrun.1 hrun.2
  | mark e k =>
      rw [hcode] at hrun hkernel
      obtain rfl : kernel = s.kernel := hkernel
      exact h.runs hother rfl hrunning h.mem hrun
  | exit => exact h.exited kernel

variable {body : Job → Coro Sys Ans Mem Ev Unit}

lemma onPool_ended (hended : s.pool.ended = true) (ev : PoolEvent Sys Ans Job Empty) :
    s.onPool body ev = s := by
  unfold KernelPool.onPool Pool.step
  rw [if_pos hended]

/-- A coroutine is started, or one that waited runs again. -/
lemma Secured.onPool (h : Secured answers I J s) {ev : PoolEvent Sys Ans Job Empty}
    (hspawn : ∀ i job, ev = .spawn i job → I s.pool.mem s.kernel →
      secure answers I J (body job) (fun _ => I) s.pool.mem s.kernel)
    (hadvance : ∀ answer, ev ≠ .advance answer) : Secured answers I J (s.onPool body ev) := by
  by_cases hended : s.pool.ended = true
  · rw [onPool_ended hended]
    exact h
  have hidle : s.pool.running = none → I s.pool.mem s.kernel := fun hrunning =>
    h.idle hrunning (Bool.eq_false_iff.mpr hended)
  have hother : s.pool.running = none → ∀ i j, s.pool.running = some j → j = i := by
    intro hrunning i j hj
    rw [hrunning] at hj
    cases hj
  rw [KernelPool.onPool]
  rcases s.pool.step_cases body (fun op _ => op.elim) ev with hstep |
    ⟨i, job, hev, hrunning, htask, hstep⟩ | ⟨i, task, -, hrunning, htask, hstep⟩ |
    ⟨answer, i, task, hev, -⟩ | ⟨op, -⟩ | hstep
  · rw [hstep]
    exact h
  · rw [hstep]
    exact h.runs (hother hrunning i) rfl rfl h.mem (hspawn i job hev (hidle hrunning))
  · rw [hstep]
    have hwaits : s.pool.running ≠ some i := by
      rw [hrunning]
      nofun
    exact h.runs (hother hrunning i) rfl rfl h.mem
      (h.waiting i task htask hwaits _ _ (hidle hrunning))
  · exact absurd hev (hadvance answer)
  · exact op.elim
  · rw [hstep]
    exact h.exited s.kernel

/-- The coroutine that runs makes a step, and the kernel answers its call. -/
lemma Secured.advances (h : Secured answers I J s) (answer : (c : Sys) → Ans c) {kernel : κ}
    (hkernel : s.pool.pendingCall.elim (kernel = s.kernel) fun c =>
      answers s.kernel (.called s.pool.mem c (answer c)) = some kernel) :
    Secured answers I J { s.onPool body (.advance answer) with kernel := kernel } := by
  rw [Pool.pendingCall] at hkernel
  by_cases hended : s.pool.ended = true
  · rw [if_pos hended] at hkernel
    obtain rfl : kernel = s.kernel := hkernel
    rw [onPool_ended hended]
    exact h
  rw [if_neg hended] at hkernel
  unfold KernelPool.onPool Pool.step
  rw [if_neg hended]
  cases hrunning : s.pool.running with
  | none =>
      rw [hrunning] at hkernel
      obtain rfl : kernel = s.kernel := hkernel
      exact h
  | some i =>
      rw [hrunning, Option.bind_some] at hkernel
      dsimp only
      cases htask : s.pool.tasks i with
      | none =>
          rw [htask] at hkernel
          obtain rfl : kernel = s.kernel := hkernel
          exact h
      | some task =>
          rw [htask, Option.bind_some] at hkernel
          exact h.advance hrunning htask answer hkernel

/-- **A step** keeps what is known, if the coroutines that are started are secure and the others
keep `I`. -/
theorem Secured.step {K : Kernel Sys Ans Mem Ev Job κ ω} (h : Secured K.answers I J s)
    (hbody : ∀ job m kernel, I m kernel → K.admits job m kernel →
      secure K.answers I J (body job) (fun _ => I) m kernel)
    (houtside : ∀ e m kernel kernel', I m kernel → K.outside e m kernel = some kernel' →
      I m kernel')
    (ev : KernelEvent Sys Ans Job ω) : Secured K.answers I J (s.step body K ev) := by
  rw [KernelPool.step.eq_def]
  cases ev with
  | spawn i job =>
      dsimp only
      split_ifs with hadmits
      · refine h.onPool (fun i' job' hev hI => ?_) nofun
        obtain ⟨rfl, rfl⟩ := PoolEvent.spawn.inj hev
        exact hbody job _ _ hI hadmits
      · exact h
  | resume i => exact h.onPool nofun nofun
  | advance answer =>
      dsimp only
      cases hcall : s.pool.pendingCall with
      | none =>
          have hkernel : s.pool.pendingCall.elim (s.kernel = s.kernel) fun c =>
              K.answers s.kernel (.called s.pool.mem c (answer c)) = some s.kernel := by
            rw [hcall]
            rfl
          exact h.advances answer hkernel
      | some c =>
          dsimp only
          cases hanswer : K.answers s.kernel (.called s.pool.mem c (answer c)) with
          | none => exact h
          | some kernel => exact h.advances answer (by rw [hcall]; exact hanswer)
  | outside e =>
      dsimp only
      split_ifs with hrunning
      · cases hkernel : K.outside e s.pool.mem s.kernel with
        | none => exact h
        | some kernel =>
            refine ⟨h.mem, fun hnone hended => ?_, fun i task htask hi => ?_, h.waiting⟩
            · exact houtside e _ _ _ (h.idle hnone hended) hkernel
            · rw [hrunning] at hi
              cases hi
      · exact h

/-- **An invariant of the memory** holds in every state of a run, if the coroutines keep it at every
write, and one of memory and kernel whenever they give way. -/
theorem throughout_of_secure {K : Kernel Sys Ans Mem Ev Job κ ω}
    (hIJ : ∀ m kernel, I m kernel → J m)
    (hbody : ∀ job m kernel, I m kernel → K.admits job m kernel →
      secure K.answers I J (body job) (fun _ => I) m kernel)
    (houtside : ∀ e m kernel kernel', I m kernel → K.outside e m kernel = some kernel' →
      I m kernel')
    {m : Mem} {kernel : κ} (hI : I m kernel) (evs : List (KernelEvent Sys Ans Job ω)) :
    Machine.Throughout (KernelPool.step body K) (fun s => J s.pool.mem) ⟨{ mem := m }, kernel⟩
      evs := by
  have hall : ∀ pre, pre <+: evs → Secured K.answers I J
      (Machine.run (KernelPool.step body K) ⟨{ mem := m }, kernel⟩ pre) := by
    refine Machine.run_induction ⟨hIJ m kernel hI, fun _ _ => hI, nofun, nofun⟩ ?_
    rintro pre ev - h
    rw [Machine.run_concat]
    exact h.step hbody houtside ev
  exact fun pre hpre => (hall pre hpre).mem

end Runs

end Coro
