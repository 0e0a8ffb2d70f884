/-
Awaiting a system call (`include/awaitable_syscall.hh`), with the queue of its descriptor
(`include/async_file_descriptor.hh`).

A call that would block queues its coroutine on the descriptor; a wake-up of the descriptor
resumes what is queued, and the resumed coroutine makes the call again. If that would block
once more, the coroutine goes on all the same: with the error if the call is single-shot, and if
it is multi-shot with the error value and queued a second time.

* `Pending`, `resumePendingOps`: the queue of a descriptor, and its wake-up;
* `resumeLoop_due`: the loop goes through the queue it began with;
* `resumePendingOps_once`: which coroutines a wake-up resumes, and which it leaves queued;
* `AwaitableSyscall`, `await_suspend`, `await_resume`: the call, and its two attempts;
* `AwaitableSyscall.run`: the coroutine reaches the call, and the descriptor is woken up;
* `run_continued`: what the coroutine goes on with;
* `awaitSyscall_exec`: the same of `awaitSyscall`, in any environment;
* `YieldsFinal`, `yieldsFinal_iff`: when it is the first result that does not mean waiting.
-/
import SharedStateAsync.Io.Process

namespace SharedStateAsync

open Coro

variable {H α σ : Type}

/-! ### The queue of a descriptor -/

/-- The queue of a descriptor, `mPendigOps`, and all that its coroutines change besides. -/
structure Pending (H σ : Type) where
  mPendigOps : List H
  rest : σ

namespace Pending

/-- `addPendingOp`. -/
def addPendingOp (s : Pending H σ) (op : H) : Pending H σ :=
  { s with mPendigOps := s.mPendigOps ++ [op] }

/-- `mPendigOps.pop()`. -/
def pop (s : Pending H σ) : Pending H σ := { s with mPendigOps := s.mPendigOps.tail }

/-- The loop of `resumePendingOps`: the coroutine in front is resumed, and then taken off. -/
def resumeLoop (resume : H → Pending H σ → Pending H σ) : ℕ → Pending H σ → Pending H σ
  | 0, s => s
  | numPending + 1, s =>
      match s.mPendigOps with
      | [] => s
      | op :: _ => resumeLoop resume numPending (resume op s).pop

/-- `resumePendingOps`: as many as there are when it is called. -/
def resumePendingOps (resume : H → Pending H σ → Pending H σ) (s : Pending H σ) :
    Bool × Pending H σ :=
  let numPending := s.mPendigOps.length
  if numPending = 0 then (false, s) else (true, resumeLoop resume numPending s)

lemma resumePendingOps_snd (resume : H → Pending H σ → Pending H σ) (s : Pending H σ) :
    (resumePendingOps resume s).2 = resumeLoop resume s.mPendigOps.length s := by
  rw [resumePendingOps]
  split_ifs with hzero
  · rw [hzero, resumeLoop]
  · rfl

/-- What resuming and taking off keep, the loop keeps. -/
lemma resumeLoop_induction {resume : H → Pending H σ → Pending H σ} {P : Pending H σ → Prop}
    (hstep : ∀ op s, P s → P (resume op s).pop) (n : ℕ) {s : Pending H σ} (hs : P s) :
    P (resumeLoop resume n s) := by
  induction n generalizing s with
  | zero => exact hs
  | succ n ih =>
      rw [resumeLoop]
      cases s.mPendigOps with
      | nil => exact hs
      | cons op q => exact ih (hstep op s hs)

/-- **The queue it began with** is what the loop goes through: if every handle that is due is in
front when its turn comes, and `I` says what is still due then, nothing is due in the end. -/
lemma resumeLoop_due {resume : H → Pending H σ → Pending H σ} {I : List H → Pending H σ → Prop}
    (hstep : ∀ op due s, I (op :: due) s →
      s.mPendigOps.head? = some op ∧ I due (resume op s).pop)
    {due : List H} {s : Pending H σ} (hs : I due s) : I [] (resumeLoop resume due.length s) := by
  induction due generalizing s with
  | nil => exact hs
  | cons op due ih =>
      obtain ⟨hhead, hnext⟩ := hstep op due s hs
      obtain ⟨queue, hqueue⟩ := List.head?_eq_some_iff.mp hhead
      rw [List.length_cons, resumeLoop, hqueue]
      exact ih hnext

/-- The loop may be interrupted. -/
lemma resumeLoop_add (resume : H → Pending H σ → Pending H σ) (n m : ℕ) (s : Pending H σ) :
    resumeLoop resume (n + m) s = resumeLoop resume m (resumeLoop resume n s) := by
  induction n generalizing s with
  | zero => rw [Nat.zero_add, resumeLoop]
  | succ n ih =>
      rw [Nat.succ_add, resumeLoop, resumeLoop]
      cases hqueue : s.mPendigOps with
      | nil =>
          cases m with
          | zero => rfl
          | succ m => rw [resumeLoop, hqueue]
      | cons op queue => exact ih _

/-! ### One wake-up -/

/-- A behaviour of the coroutines that only appends to the queue: a resumed one may queue itself,
or others, any number of times. -/
structure AppendOnly (H σ : Type) where
  resume : H → Pending H σ → Pending H σ
  appends : ∀ op s, s.mPendigOps <+: (resume op s).mPendigOps

/-- The same behaviour, with a record of which handles are resumed and what each appends. -/
def recording (resume : H → Pending H σ → Pending H σ) (op : H)
    (s : Pending H (σ × List (H × List H))) : Pending H (σ × List (H × List H)) :=
  let s' := resume op ⟨s.mPendigOps, s.rest.1⟩
  ⟨s'.mPendigOps, s'.rest, s.rest.2 ++ [(op, s'.mPendigOps.drop s.mPendigOps.length)]⟩

/-- The state without the record. -/
def forget (s : Pending H (σ × List (H × List H))) : Pending H σ := ⟨s.mPendigOps, s.rest.1⟩

/-- The record changes nothing. -/
lemma forget_resumeLoop (resume : H → Pending H σ → Pending H σ) (n : ℕ)
    (s : Pending H (σ × List (H × List H))) :
    (resumeLoop (recording resume) n s).forget = resumeLoop resume n s.forget := by
  induction n generalizing s with
  | zero => rfl
  | succ n ih =>
      obtain ⟨queue, rest, record⟩ := s
      cases queue with
      | nil => rfl
      | cons op queue => exact ih _

/-- A resumed coroutine leaves the queue, and what it appends comes last. -/
lemma AppendOnly.recording_pop (b : AppendOnly H σ) (op : H) (queue : List H) (rest : σ)
    (record : List (H × List H)) :
    ∃ appended rest', (recording b.resume op ⟨op :: queue, rest, record⟩).pop
      = ⟨queue ++ appended, rest', record ++ [(op, appended)]⟩ := by
  obtain ⟨appended, happended⟩ := b.appends op ⟨op :: queue, rest⟩
  refine ⟨appended, (b.resume op ⟨op :: queue, rest⟩).rest, ?_⟩
  rw [recording, pop]
  simp only [← happended]
  rw [List.drop_left]
  rfl

/-- The loop of one call: all that was queued, and what is queued then. -/
lemma AppendOnly.resumeLoop_all (b : AppendOnly H σ) (queue : List H) (rest : σ) :
    ∃ rest' record, resumeLoop (recording b.resume) queue.length ⟨queue, rest, []⟩
        = ⟨record.flatMap Prod.snd, rest', record⟩ ∧
      record.map Prod.fst = queue ∧
      resumeLoop b.resume queue.length ⟨queue, rest⟩ = ⟨record.flatMap Prod.snd, rest'⟩ := by
  -- what was due is in the record or still in front, and behind it what the record appended
  let I : List H → Pending H (σ × List (H × List H)) → Prop := fun due s =>
    s.rest.2.map Prod.fst ++ due = queue ∧ s.mPendigOps = due ++ s.rest.2.flatMap Prod.snd
  have hstep : ∀ op due s, I (op :: due) s →
      s.mPendigOps.head? = some op ∧ I due (recording b.resume op s).pop := by
    rintro op due ⟨queue', rest₁, record⟩ ⟨hdue, hqueue⟩
    obtain rfl : queue' = op :: due ++ record.flatMap Prod.snd := hqueue
    obtain ⟨appended, rest₂, hpop⟩ :=
      b.recording_pop op (due ++ record.flatMap Prod.snd) rest₁ record
    refine ⟨rfl, ?_⟩
    rw [List.cons_append, hpop]
    exact ⟨by simpa using hdue, by simp⟩
  obtain ⟨hrecord, hqueue⟩ := resumeLoop_due (s := ⟨queue, rest, []⟩) hstep
    ⟨rfl, (List.append_nil queue).symm⟩
  have hforget : (resumeLoop (recording b.resume) queue.length ⟨queue, rest, []⟩).forget
      = resumeLoop b.resume queue.length ⟨queue, rest⟩ := forget_resumeLoop _ _ _
  generalize resumeLoop (recording b.resume) queue.length ⟨queue, rest, []⟩ = s at *
  obtain ⟨queue', rest', record⟩ := s
  obtain rfl : queue' = record.flatMap Prod.snd := hqueue
  exact ⟨rest', record, rfl, (List.append_nil _).symm.trans hrecord, hforget.symm⟩

/-- Which handles one call of `resumePendingOps` resumes, and what each appends. -/
def AppendOnly.wakings (b : AppendOnly H σ) (queue : List H) (rest : σ) : List (H × List H) :=
  (resumePendingOps (recording b.resume) ⟨queue, rest, []⟩).2.rest.2

/-- **One wake-up** resumes what was queued when it began, each handle once and in the order of
the queue, and leaves in the queue what was appended meanwhile, in order. -/
theorem resumePendingOps_once (b : AppendOnly H σ) (queue : List H) (rest : σ) :
    (b.wakings queue rest).map Prod.fst = queue ∧
      (resumePendingOps b.resume ⟨queue, rest⟩).2.mPendigOps
        = (b.wakings queue rest).flatMap Prod.snd ∧
      (resumePendingOps (recording b.resume) ⟨queue, rest, []⟩).2.forget
        = (resumePendingOps b.resume ⟨queue, rest⟩).2 ∧
      ((resumePendingOps b.resume ⟨queue, rest⟩).1 ↔ queue ≠ []) := by
  obtain ⟨rest', record, hrecording, hrecord, hloop⟩ := b.resumeLoop_all queue rest
  rw [AppendOnly.wakings, resumePendingOps_snd, resumePendingOps_snd, hrecording, hloop]
  refine ⟨hrecord, rfl, rfl, ?_⟩
  rw [resumePendingOps]
  cases queue with
  | nil => exact iff_of_false Bool.false_ne_true (fun hc => hc rfl)
  | cons op queue => exact iff_of_true rfl (List.cons_ne_nil _ _)

end Pending

/-! ### The call -/

/-- `AwaitableSyscall`, with its template parameter: what is fixed when it is awaited.
`syscall n` is what the call returns when it is made for the `n`-th time, counted from zero. -/
structure AwaitableSyscall (H α : Type) where
  multiShot : Bool
  mError : ErrBub
  mAwaitingCoroutine : H
  syscall : ℕ → Except Errno α

/-- The members that change, and what becomes of the coroutine. -/
structure Awaiting (α : Type) where
  mDidSuspend : Bool := false
  /-- The error value, before the first attempt. -/
  mReturnValue : Except Errno α := .error (.other 0)
  /-- The number of attempts so far. -/
  attempts : ℕ := 0
  /-- The coroutine is suspended at this call. -/
  suspended : Bool := false
  /-- The values the coroutine has gone on with. -/
  continued : List (Except Errno α) := []
  /-- The errors that were stored for the caller. -/
  stored : List ErrorCondition := []
  /-- The process has ended. -/
  exited : Bool := false
  /-- How often other coroutines have run. -/
  turns : ℕ := 0

namespace AwaitableSyscall

variable (call : AwaitableSyscall H α)

/-- `mReturnValue = syscall()`. -/
def attempt (s : Pending H (Awaiting α)) : Pending H (Awaiting α) :=
  { s with rest := { s.rest with
      mReturnValue := call.syscall s.rest.attempts, attempts := s.rest.attempts + 1 } }

/-- `suspend`. -/
def suspend (s : Pending H (Awaiting α)) : Pending H (Awaiting α) :=
  Pending.addPendingOp { s with rest := { s.rest with mDidSuspend := true } }
    call.mAwaitingCoroutine

/-- The error value goes to `rs_error_bubble_or_exit`. -/
def report (s : Pending H (Awaiting α)) : Pending H (Awaiting α) :=
  match s.rest.mReturnValue, call.mError with
  | .ok _, _ => s
  | .error _, .null => { s with rest := { s.rest with exited := true } }
  | .error e, .storage =>
      { s with rest := { s.rest with stored := s.rest.stored ++ [.errno e] } }

lemma report_of_ok {s : Pending H (Awaiting α)} {a : α} (h : s.rest.mReturnValue = .ok a) :
    call.report s = s := by
  rw [report, h]

lemma report_of_null {s : Pending H (Awaiting α)} {e : Errno} (h : s.rest.mReturnValue = .error e)
    (herror : call.mError = .null) :
    call.report s = { s with rest := { s.rest with exited := true } } := by
  rw [report, h, herror]

lemma report_of_storage {s : Pending H (Awaiting α)} {e : Errno}
    (h : s.rest.mReturnValue = .error e) (herror : call.mError = .storage) :
    call.report s = { s with rest := { s.rest with stored := s.rest.stored ++ [.errno e] } } := by
  rw [report, h, herror]

lemma report_mDidSuspend (s : Pending H (Awaiting α)) :
    (call.report s).rest.mDidSuspend = s.rest.mDidSuspend := by
  cases hv : s.rest.mReturnValue with
  | ok a => rw [call.report_of_ok hv]
  | error e =>
      cases herror : call.mError with
      | null => rw [call.report_of_null hv herror]
      | storage => rw [call.report_of_storage hv herror]

/-- `await_suspend`: whether the coroutine is to be suspended. -/
def await_suspend (s : Pending H (Awaiting α)) : Bool × Pending H (Awaiting α) :=
  let s := call.attempt s
  if shouldWait s.rest.mReturnValue then (true, call.suspend s) else (false, call.report s)

/-- `await_resume`, which returns `mReturnValue`. -/
def await_resume (s : Pending H (Awaiting α)) : Pending H (Awaiting α) :=
  if !s.rest.mDidSuspend then s
  else
    let s := call.attempt s
    if call.multiShot && shouldWait s.rest.mReturnValue then call.suspend s else call.report s

end AwaitableSyscall

/-- The coroutine goes on past the call. -/
def Pending.goOn (s : Pending H (Awaiting α)) : Pending H (Awaiting α) :=
  if s.rest.exited then s
  else { s with rest := { s.rest with
      suspended := false, continued := s.rest.continued ++ [s.rest.mReturnValue] } }

/-- Other coroutines run, and queue themselves on the descriptor. -/
def Pending.othersRun (appends : ℕ → List H) (s : Pending H (Awaiting α)) :
    Pending H (Awaiting α) where
  mPendigOps := s.mPendigOps ++ appends s.rest.turns
  rest := { s.rest with turns := s.rest.turns + 1 }

namespace AwaitableSyscall

variable (call : AwaitableSyscall H α)

/-- `co_await`: a call that need not wait does not suspend. -/
def coAwait (s : Pending H (Awaiting α)) : Pending H (Awaiting α) :=
  match call.await_suspend s with
  | (true, s) => { s with rest := { s.rest with suspended := true } }
  | (false, s) => (call.await_resume s).goOn

variable [DecidableEq H] (appends : ℕ → List H)

/-- A coroutine of the queue is resumed: the one that awaits the call goes on with it, if it is
suspended there, and all run on until they give way. -/
def resume (op : H) (s : Pending H (Awaiting α)) : Pending H (Awaiting α) :=
  if s.rest.exited then s
  else if op = call.mAwaitingCoroutine ∧ s.rest.suspended then
    (call.await_resume s).goOn.othersRun appends
  else s.othersRun appends

/-- Other coroutines run, and then the descriptor is woken up. -/
def wakeUp (s : Pending H (Awaiting α)) : Pending H (Awaiting α) :=
  (Pending.resumePendingOps (call.resume appends) (s.othersRun appends)).2

/-- The coroutine awaits the call, and then the descriptor is woken up `m` times. -/
def run (queue : List H) (m : ℕ) : Pending H (Awaiting α) :=
  (call.wakeUp appends)^[m] (call.coAwait ⟨queue, {}⟩)

end AwaitableSyscall

/-! ### Once the coroutine has gone on -/

/-- Nothing more comes of the call: its coroutine is not suspended there, or the process has
ended. -/
def Pending.Settled (s : Pending H (Awaiting α)) : Prop :=
  s.rest.suspended = false ∨ s.rest.exited = true

namespace AwaitableSyscall

section Settled

variable [DecidableEq H] {call : AwaitableSyscall H α} {appends : ℕ → List H}
  {s : Pending H (Awaiting α)} {values : List (Except Errno α)}

/-- What holds from then on: the coroutine has gone on with `values`. -/
def Over (values : List (Except Errno α)) (s : Pending H (Awaiting α)) : Prop :=
  s.Settled ∧ s.rest.continued = values

/-- Resuming a coroutine then lets others run, or does nothing. -/
lemma resume_of_settled (h : s.Settled) (op : H) :
    call.resume appends op s = s ∨ call.resume appends op s = s.othersRun appends := by
  rw [resume]
  split_ifs with hexited hop
  · exact Or.inl rfl
  · rcases h with hnot | hexited'
    · rw [hnot] at hop
      cases hop.2
    · exact absurd hexited' hexited
  · exact Or.inr rfl

/-- It stays over while the queue is resumed. -/
lemma Over.resumeLoop (h : Over values s) (n : ℕ) :
    Over values (Pending.resumeLoop (call.resume appends) n s) := by
  refine Pending.resumeLoop_induction (fun op s hs => ?_) n h
  rcases resume_of_settled hs.1 op with heq | heq
  · rw [heq]
    exact hs
  · rw [heq]
    exact hs

omit [DecidableEq H] in
lemma Over.othersRun (h : Over values s) : Over values (s.othersRun appends) := h

omit [DecidableEq H] in
lemma not_mem_othersRun (happends : ∀ i, call.mAwaitingCoroutine ∉ appends i)
    (hmem : call.mAwaitingCoroutine ∉ s.mPendigOps) :
    call.mAwaitingCoroutine ∉ (s.othersRun appends).mPendigOps :=
  fun hc => (List.mem_append.mp hc).elim hmem (happends _)

/-- And the handle stays out of the queue. -/
lemma Over.not_mem_resumeLoop (happends : ∀ i, call.mAwaitingCoroutine ∉ appends i)
    (h : Over values s) (hmem : call.mAwaitingCoroutine ∉ s.mPendigOps) (n : ℕ) :
    call.mAwaitingCoroutine ∉ (Pending.resumeLoop (call.resume appends) n s).mPendigOps := by
  refine (Pending.resumeLoop_induction (P := fun s => Over values s ∧
    call.mAwaitingCoroutine ∉ s.mPendigOps) ?_ n ⟨h, hmem⟩).2
  rintro op s ⟨hs, hmem⟩
  rcases resume_of_settled hs.1 op with heq | heq
  · rw [heq]
    exact ⟨hs, fun hc => hmem (List.mem_of_mem_tail hc)⟩
  · rw [heq]
    exact ⟨hs, fun hc => not_mem_othersRun happends hmem (List.mem_of_mem_tail hc)⟩

lemma Over.wakeUp (h : Over values s) : Over values (call.wakeUp appends s) := by
  rw [AwaitableSyscall.wakeUp, Pending.resumePendingOps_snd]
  exact h.othersRun.resumeLoop _

lemma Over.not_mem_wakeUp (happends : ∀ i, call.mAwaitingCoroutine ∉ appends i)
    (h : Over values s) (hmem : call.mAwaitingCoroutine ∉ s.mPendigOps) :
    call.mAwaitingCoroutine ∉ (call.wakeUp appends s).mPendigOps := by
  rw [AwaitableSyscall.wakeUp, Pending.resumePendingOps_snd]
  exact h.othersRun.not_mem_resumeLoop happends (not_mem_othersRun happends hmem) _

end Settled

/-! ### The first wake-up -/

/-- What the coroutine goes on with when an attempt has given `v`: nothing, if the error ends the
process. -/
def outcome (call : AwaitableSyscall H α) (v : Except Errno α) : List (Except Errno α) :=
  if v.isOk = false ∧ (call.multiShot && shouldWait v) = false ∧ call.mError = .null then []
  else [v]

/-- The coroutine is suspended at the call. -/
structure Waiting (s : Pending H (Awaiting α)) : Prop where
  exited : s.rest.exited = false
  suspended : s.rest.suspended = true
  mDidSuspend : s.rest.mDidSuspend = true
  attempts : s.rest.attempts = 1
  continued : s.rest.continued = []

section Waiting

variable {call : AwaitableSyscall H α} {appends : ℕ → List H} {s : Pending H (Awaiting α)}

lemma over_goOn (hexited : s.rest.exited = false) (hcontinued : s.rest.continued = []) :
    Over [s.rest.mReturnValue] s.goOn ∧ s.goOn.mPendigOps = s.mPendigOps := by
  rw [Pending.goOn, hexited, if_neg Bool.false_ne_true, hcontinued]
  exact ⟨⟨Or.inl rfl, rfl⟩, rfl⟩

/-- What is reported, the coroutine goes on with, unless the process ends. -/
lemma over_goOn_report (hexited : s.rest.exited = false) (hcontinued : s.rest.continued = [])
    (hfinal : (call.multiShot && shouldWait s.rest.mReturnValue) = false) :
    Over (call.outcome s.rest.mReturnValue) (call.report s).goOn ∧
      (call.report s).goOn.mPendigOps = s.mPendigOps := by
  rw [outcome]
  simp only [hfinal, true_and]
  cases hv : s.rest.mReturnValue with
  | ok a =>
      rw [call.report_of_ok hv, if_neg (fun hc => Bool.noConfusion hc.1), ← hv]
      exact over_goOn hexited hcontinued
  | error e =>
      cases herror : call.mError with
      | null =>
          rw [call.report_of_null hv herror, if_pos ⟨rfl, rfl⟩]
          exact ⟨⟨Or.inr rfl, hcontinued⟩, rfl⟩
      | storage =>
          rw [call.report_of_storage hv herror, if_neg (fun hc => ErrBub.noConfusion hc.2), ← hv]
          exact over_goOn hexited hcontinued

/-- The coroutine that waits is resumed. -/
lemma Waiting.goOn (h : Waiting s) :
    Over (call.outcome (call.syscall 1)) (call.await_resume s).goOn ∧
      (call.await_resume s).goOn.mPendigOps
        = if call.multiShot && shouldWait (call.syscall 1)
          then s.mPendigOps ++ [call.mAwaitingCoroutine] else s.mPendigOps := by
  have hvalue : (call.attempt s).rest.mReturnValue = call.syscall 1 :=
    congrArg call.syscall h.attempts
  rw [await_resume, h.mDidSuspend]
  simp only [Bool.not_true, Bool.false_eq_true, if_false]
  rw [hvalue]
  cases hagain : call.multiShot && shouldWait (call.syscall 1) with
  | true =>
      -- the handle is queued once more, and the coroutine goes on with the error value
      rw [if_pos rfl, if_pos rfl, outcome, hagain, if_neg (fun hc => Bool.noConfusion hc.2.1)]
      have hgoes := over_goOn (s := call.suspend (call.attempt s)) h.exited h.continued
      rw [show (call.suspend (call.attempt s)).rest.mReturnValue = _ from hvalue] at hgoes
      exact hgoes
  | false =>
      rw [if_neg Bool.false_ne_true, if_neg Bool.false_ne_true, ← hvalue]
      exact over_goOn_report h.exited h.continued (by rw [hvalue, hagain])

variable [DecidableEq H]

/-- What is queued before the coroutine that waits is resumed, and leaves it in front. -/
lemma Waiting.resumeLoop_front (happends : ∀ i, call.mAwaitingCoroutine ∉ appends i)
    {q₁ q₂ : List H} (h : Waiting s) (hqueue : s.mPendigOps = q₁ ++ call.mAwaitingCoroutine :: q₂)
    (h₁ : call.mAwaitingCoroutine ∉ q₁) (h₂ : call.mAwaitingCoroutine ∉ q₂) :
    let s' := Pending.resumeLoop (call.resume appends) q₁.length s
    Waiting s' ∧ ∃ q, s'.mPendigOps = call.mAwaitingCoroutine :: q ∧
      call.mAwaitingCoroutine ∉ q := by
  let I : List H → Pending H (Awaiting α) → Prop := fun due s =>
    call.mAwaitingCoroutine ∉ due ∧ Waiting s ∧
      ∃ q, s.mPendigOps = due ++ call.mAwaitingCoroutine :: q ∧ call.mAwaitingCoroutine ∉ q
  have hstep : ∀ op due s, I (op :: due) s →
      s.mPendigOps.head? = some op ∧ I due (call.resume appends op s).pop := by
    rintro op due s ⟨hdue, hs, q, hq, hfree⟩
    rw [List.mem_cons, not_or] at hdue
    have hresume : call.resume appends op s = s.othersRun appends := by
      rw [resume, hs.exited, if_neg Bool.false_ne_true, if_neg fun hc => hdue.1 hc.1.symm]
    rw [hresume]
    refine ⟨by rw [hq]; rfl, hdue.2,
      ⟨hs.exited, hs.suspended, hs.mDidSuspend, hs.attempts, hs.continued⟩,
      q ++ appends s.rest.turns, ?_, fun hc => (List.mem_append.mp hc).elim hfree (happends _)⟩
    rw [Pending.pop, Pending.othersRun, hq]
    simp
  exact (Pending.resumeLoop_due hstep ⟨h₁, h, q₂, hqueue, h₂⟩).2

/-- The loop comes to the coroutine that waits. -/
lemma Waiting.resumeLoop (happends : ∀ i, call.mAwaitingCoroutine ∉ appends i)
    {q₁ q₂ : List H} {n : ℕ} (h : Waiting s)
    (hqueue : s.mPendigOps = q₁ ++ call.mAwaitingCoroutine :: q₂)
    (h₁ : call.mAwaitingCoroutine ∉ q₁) (h₂ : call.mAwaitingCoroutine ∉ q₂) :
    Over (call.outcome (call.syscall 1))
        (Pending.resumeLoop (call.resume appends) (q₁.length + (n + 1)) s) ∧
      ((call.multiShot && shouldWait (call.syscall 1)) = false → call.mAwaitingCoroutine ∉
        (Pending.resumeLoop (call.resume appends) (q₁.length + (n + 1)) s).mPendigOps) := by
  obtain ⟨h', q, hq, hfree⟩ := h.resumeLoop_front happends hqueue h₁ h₂
  rw [Pending.resumeLoop_add]
  generalize Pending.resumeLoop (call.resume appends) q₁.length s = s' at *
  have hresume : call.resume appends call.mAwaitingCoroutine s'
      = (call.await_resume s').goOn.othersRun appends := by
    rw [resume, h'.exited, if_neg Bool.false_ne_true, if_pos ⟨rfl, h'.suspended⟩]
  obtain ⟨hover, hrest⟩ : Over (call.outcome (call.syscall 1)) (call.await_resume s').goOn ∧ _ :=
    h'.goOn
  rw [Pending.resumeLoop, hq]
  dsimp only
  rw [hresume]
  have hover' : Over (call.outcome (call.syscall 1))
      ((call.await_resume s').goOn.othersRun appends).pop := hover
  refine ⟨hover'.resumeLoop n, fun hfinal => ?_⟩
  refine hover'.not_mem_resumeLoop happends (fun hc => ?_) n
  rw [hfinal, if_neg Bool.false_ne_true, hq] at hrest
  rw [Pending.pop, Pending.othersRun, hrest] at hc
  exact (List.mem_append.mp hc).elim hfree (happends _)

/-- **The wake-up of a coroutine that waits.** -/
lemma Waiting.wakeUp (happends : ∀ i, call.mAwaitingCoroutine ∉ appends i) (h : Waiting s)
    {queue : List H} (hqueue : s.mPendigOps = queue ++ [call.mAwaitingCoroutine])
    (hfree : call.mAwaitingCoroutine ∉ queue) :
    Over (call.outcome (call.syscall 1)) (call.wakeUp appends s) ∧
      ((call.multiShot && shouldWait (call.syscall 1)) = false →
        call.mAwaitingCoroutine ∉ (call.wakeUp appends s).mPendigOps) := by
  have hwaiting : Waiting (s.othersRun appends) :=
    ⟨h.exited, h.suspended, h.mDidSuspend, h.attempts, h.continued⟩
  have hqueue' : (s.othersRun appends).mPendigOps
      = queue ++ call.mAwaitingCoroutine :: appends s.rest.turns := by
    rw [Pending.othersRun, hqueue, List.append_assoc]
    rfl
  rw [AwaitableSyscall.wakeUp, Pending.resumePendingOps_snd, hqueue', List.length_append,
    List.length_cons]
  exact hwaiting.resumeLoop happends hqueue' hfree (happends _)

end Waiting

/-! ### Runs -/

section Run

variable {call : AwaitableSyscall H α} {appends : ℕ → List H} {queue : List H}

/-- A call that would block queues its coroutine. -/
lemma coAwait_of_shouldWait (queue : List H) (hwait : shouldWait (call.syscall 0)) :
    Waiting (call.coAwait ⟨queue, {}⟩) ∧
      (call.coAwait ⟨queue, {}⟩).mPendigOps = queue ++ [call.mAwaitingCoroutine] := by
  rw [coAwait, await_suspend]
  simp only [show (call.attempt ⟨queue, {}⟩).rest.mReturnValue = call.syscall 0 from rfl, hwait,
    if_true]
  exact ⟨⟨rfl, rfl, rfl, rfl, rfl⟩, rfl⟩

/-- A call that does not lets it go on. -/
lemma coAwait_of_not (queue : List H) (hwait : shouldWait (call.syscall 0) = false) :
    Over (call.outcome (call.syscall 0)) (call.coAwait ⟨queue, {}⟩) ∧
      (call.coAwait ⟨queue, {}⟩).mPendigOps = queue := by
  rw [coAwait, await_suspend]
  simp only [show (call.attempt ⟨queue, {}⟩).rest.mReturnValue = call.syscall 0 from rfl, hwait,
    Bool.false_eq_true, if_false]
  have hresume : call.await_resume (call.report (call.attempt ⟨queue, {}⟩))
      = call.report (call.attempt ⟨queue, {}⟩) := by
    rw [await_resume, report_mDidSuspend]
    rfl
  rw [hresume]
  exact over_goOn_report rfl rfl (by
    rw [show (call.attempt ⟨queue, {}⟩).rest.mReturnValue = call.syscall 0 from rfl, hwait,
      Bool.and_false])

/-- The result the coroutine goes on with: the one of the first attempt, or of the second if that
means waiting. -/
def lastResult (call : AwaitableSyscall H α) : Except Errno α :=
  if shouldWait (call.syscall 0) then call.syscall 1 else call.syscall 0

variable [DecidableEq H]

/-- **What the coroutine goes on with**, as soon as it does. -/
theorem run_continued (happends : ∀ i, call.mAwaitingCoroutine ∉ appends i)
    (hfree : call.mAwaitingCoroutine ∉ queue) {m : ℕ}
    (hm : shouldWait (call.syscall 0) → 0 < m) :
    Over (call.outcome call.lastResult) (call.run appends queue m) ∧
      ((call.multiShot && shouldWait call.lastResult) = false →
        call.mAwaitingCoroutine ∉ (call.run appends queue m).mPendigOps) := by
  rw [lastResult]
  induction m with
  | zero =>
      have hwait : shouldWait (call.syscall 0) = false := by
        rw [← Bool.not_eq_true]
        exact fun hc => lt_irrefl _ (hm hc)
      rw [hwait, if_neg Bool.false_ne_true]
      obtain ⟨hover, hqueue⟩ := coAwait_of_not queue hwait
      refine ⟨hover, fun _ hc => hfree ?_⟩
      rwa [← hqueue]
  | succ m ih =>
      rw [run, Function.iterate_succ_apply', ← run]
      by_cases hfirst : shouldWait (call.syscall 0) ∧ m = 0
      · obtain ⟨hwait, rfl⟩ := hfirst
        obtain ⟨hwaiting, hqueue⟩ := coAwait_of_shouldWait queue hwait
        rw [if_pos hwait]
        exact hwaiting.wakeUp happends hqueue hfree
      · obtain ⟨hover, hmem⟩ := ih fun hwait => Nat.pos_of_ne_zero fun hc => hfirst ⟨hwait, hc⟩
        exact ⟨hover.wakeUp, fun hagain => hover.not_mem_wakeUp happends (hmem hagain)⟩

/-- Reporting a result, and returning it. -/
lemma reportError_exec {D ε : Type} (env : Env SysCall Ans (Process D) ε) (errbub : ErrBub)
    (v : Except Errno α) (w : World SysCall Ans (Process D) Mark ε) :
    ((reportError errbub v >>= fun _ => pure v : Io D _).exec env w).1
      = if v.isOk = false ∧ errbub = .null then none else some v := by
  cases v with
  | ok a => rfl
  | error e =>
      cases errbub with
      | null => rfl
      | storage => rfl

/-- **The simpler account**: `awaitSyscall` returns what the coroutine goes on with. -/
theorem awaitSyscall_exec {D ε : Type} (env : Env SysCall Ans (Process D) ε)
    (w : World SysCall Ans (Process D) Mark ε) (happends : ∀ i, call.mAwaitingCoroutine ∉ appends i)
    (hfree : call.mAwaitingCoroutine ∉ queue) {m : ℕ}
    (hm : shouldWait (call.syscall 0) → 0 < m) :
    ((awaitSyscall call.multiShot call.mError
        fun again => pure (call.syscall (if again then 1 else 0))).exec env w).1
      = (call.run appends queue m).rest.continued.head? := by
  obtain ⟨⟨-, hcontinued⟩, -⟩ := run_continued happends hfree hm
  rw [hcontinued, outcome, lastResult]
  cases hwait : shouldWait (call.syscall 0) with
  | false =>
      have hprogram : (awaitSyscall call.multiShot call.mError
          fun again => pure (call.syscall (if again then 1 else 0)) : Io D _)
            = reportError call.mError (call.syscall 0) >>= fun _ => pure (call.syscall 0) :=
        if_neg (by rw [if_neg Bool.false_ne_true, hwait]; exact Bool.false_ne_true)
      rw [hprogram, reportError_exec, if_neg Bool.false_ne_true, hwait, Bool.and_false]
      simp only [true_and]
      split_ifs <;> rfl
  | true =>
      have hprogram : (awaitSyscall call.multiShot call.mError
          fun again => pure (call.syscall (if again then 1 else 0)) : Io D _)
            = giveWay >>= fun _ =>
                if call.multiShot && shouldWait (call.syscall 1)
                then event .requeued >>= fun _ => pure (call.syscall 1)
                else reportError call.mError (call.syscall 1) >>= fun _ => pure (call.syscall 1) :=
        if_pos (by rw [if_neg Bool.false_ne_true, hwait])
      rw [hprogram, if_pos rfl]
      change ((ite _ _ _ : Io D _).exec env (w.resumed env)).1 = _
      cases hagain : call.multiShot && shouldWait (call.syscall 1) with
      | true =>
          rw [if_pos rfl, if_neg fun hc => Bool.noConfusion hc.2.1]
          rfl
      | false =>
          rw [if_neg Bool.false_ne_true, reportError_exec]
          simp only [true_and]
          split_ifs <;> rfl

/-- From the `n`-th wake-up on the coroutine has gone on once, with the value `r`, and its handle
is not in the queue. -/
def YieldsFinal (call : AwaitableSyscall H α) (appends : ℕ → List H) (queue : List H) (n : ℕ)
    (r : Except Errno α) : Prop :=
  ∀ m, n ≤ m → (call.run appends queue m).rest.continued = [r] ∧
    call.mAwaitingCoroutine ∉ (call.run appends queue m).mPendigOps

/-- What the coroutine has gone on with, when at most one attempt means waiting. -/
lemma run_of_le_one (happends : ∀ i, call.mAwaitingCoroutine ∉ appends i)
    (hfree : call.mAwaitingCoroutine ∉ queue) {n m : ℕ}
    (hwait : ∀ i < n, shouldWait (call.syscall i))
    (hfinal : shouldWait (call.syscall n) = false) (hn : n ≤ 1) (hm : n ≤ m) :
    Over (call.outcome (call.syscall n)) (call.run appends queue m) ∧
      call.mAwaitingCoroutine ∉ (call.run appends queue m).mPendigOps := by
  have hlast : call.lastResult = call.syscall n := by
    rw [lastResult]
    interval_cases n
    · rw [hfinal, if_neg Bool.false_ne_true]
    · rw [if_pos (hwait 0 one_pos)]
  have hafter : shouldWait (call.syscall 0) → 0 < m := by
    intro hwaits
    by_contra hzero
    obtain rfl : n = 0 := by omega
    rw [hfinal] at hwaits
    cases hwaits
  obtain ⟨hover, hmem⟩ := run_continued happends hfree hafter
  rw [hlast] at hover hmem
  exact ⟨hover, hmem (by rw [hfinal, Bool.and_false])⟩

/-- The second result that means waiting is what the coroutine goes on with. -/
lemma not_yieldsFinal_of_lt (happends : ∀ i, call.mAwaitingCoroutine ∉ appends i)
    (hfree : call.mAwaitingCoroutine ∉ queue) {n : ℕ}
    (hwait : ∀ i < n, shouldWait (call.syscall i))
    (hfinal : shouldWait (call.syscall n) = false) (hn : 1 < n) :
    ¬ call.YieldsFinal appends queue n (call.syscall n) := by
  intro hyields
  have hwait₀ := hwait 0 (by omega)
  have hwait₁ := hwait 1 hn
  obtain ⟨⟨-, hover⟩, -⟩ := run_continued happends hfree (m := n) fun _ => by omega
  rw [(hyields n le_rfl).1, lastResult, if_pos hwait₀, outcome] at hover
  split_ifs at hover
  obtain ⟨hsame, -⟩ := List.cons.inj hover
  rw [hsame, hwait₁] at hfinal
  cases hfinal

/-- **Awaiting a system call** yields the first result that does not mean waiting if and only if
at most one attempt before it does, and that result is no error where there is no error
pointer. -/
theorem yieldsFinal_iff (happends : ∀ i, call.mAwaitingCoroutine ∉ appends i)
    (hfree : call.mAwaitingCoroutine ∉ queue) {n : ℕ}
    (hwait : ∀ i < n, shouldWait (call.syscall i)) (hfinal : ¬ shouldWait (call.syscall n)) :
    call.YieldsFinal appends queue n (call.syscall n) ↔
      n ≤ 1 ∧ ((call.syscall n).isOk = false → call.mError ≠ .null) := by
  rw [Bool.not_eq_true] at hfinal
  by_cases hn : n ≤ 1
  · have hrun : ∀ m, n ≤ m → Over (call.outcome (call.syscall n)) (call.run appends queue m) ∧
        call.mAwaitingCoroutine ∉ (call.run appends queue m).mPendigOps :=
      fun m hm => run_of_le_one happends hfree hwait hfinal hn hm
    rw [and_iff_right hn]
    constructor
    · intro hyields herror hnull
      have hover := (hrun n le_rfl).1.2
      rw [outcome, if_pos ⟨herror, by rw [hfinal, Bool.and_false], hnull⟩,
        (hyields n le_rfl).1] at hover
      cases hover
    · intro herror m hm
      obtain ⟨⟨-, hover⟩, hmem⟩ := hrun m hm
      rw [outcome, if_neg fun hc => herror hc.1 hc.2.2] at hover
      exact ⟨hover, hmem⟩
  · exact iff_of_false (not_yieldsFinal_of_lt happends hfree hwait hfinal (not_le.mp hn))
      fun hc => hn hc.1

end Run

/-- A call that means waiting `n` times, as `waitpid` does while the child runs, and returns 42
then. -/
def delayedCall (multiShot : Bool) (n : ℕ) : AwaitableSyscall ℕ ℤ where
  multiShot := multiShot
  mError := .storage
  mAwaitingCoroutine := 0
  syscall := fun i => if i < n then .error .eagain else .ok 42

/-- One wake-up is enough for a call that means waiting once. -/
theorem yieldsFinal_onceDelayed :
    (delayedCall true 1).YieldsFinal (fun _ => [7]) [3] 1 (.ok 42) := by
  refine (yieldsFinal_iff ?_ ?_ ?_ ?_).mpr ⟨le_rfl, ?_⟩
  · exact fun i => by decide
  · decide
  · intro i hi
    obtain rfl : i = 0 := by omega
    rfl
  · decide
  · exact fun _ => ErrBub.noConfusion

/-- A call that means waiting twice does not yield its result, be it single-shot or multi-shot. -/
theorem not_yieldsFinal_twiceDelayed :
    ¬ (delayedCall false 2).YieldsFinal (fun _ => [7]) [3] 2 (.ok 42) ∧
      ¬ (delayedCall true 2).YieldsFinal (fun _ => [7]) [3] 2 (.ok 42) := by
  have hall : ∀ multiShot, ((delayedCall multiShot 2).run (fun _ => [7]) [3] 2).rest.continued
      = [.error .eagain] := by
    intro multiShot
    cases multiShot with
    | false => rfl
    | true => rfl
  constructor
  · intro hyields
    have hcontinued := (hall false).symm.trans (hyields 2 le_rfl).1
    cases hcontinued
  · intro hyields
    have hcontinued := (hall true).symm.trans (hyields 2 le_rfl).1
    cases hcontinued

end AwaitableSyscall

end SharedStateAsync
