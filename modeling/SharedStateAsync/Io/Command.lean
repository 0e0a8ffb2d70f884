/-
Child processes (`src/async_command.cc`).

A command is managed through a descriptor that becomes readable when it ends,
and through the two pipes to its standard input and from its standard output.
Only the parent's side is modelled.
-/
import SharedStateAsync.Io.Socket

namespace SharedStateAsync

open Coro

variable {D : Type}

/-- Close descriptors without looking at the outcome. -/
def closeAll : List ℤ → Io D Unit
  | [] => pure ()
  | fd :: fds => do
      let _ ← sysCall (.close fd)
      closeAll fds

/-- Change an object in place. -/
def modifyObject (id : ObjId) (f : AsyncFd → AsyncFd) : Io D Unit := do
  let m ← memory
  setMemory (m.setObject id (f (m.objects id)))

/-- Make the objects of a command that runs: the one to wait with, the one to
read from and the one to write to. None of the three registrations is given an
error pointer. -/
def adoptChild (pid childWaitFD parentRead parentWrite : ℤ) : Io D (Option ObjId) := do
  match ← registerFD childWaitFD with
  | none => return none
  | some tPac =>
      attach tPac
      modifyObject tPac fun o => { o with mProcessId := pid }
      let mStdOut ← registerFD parentRead
      modifyObject tPac fun o => { o with mStdOut := mStdOut }
      mStdOut.forM attach
      let mStdIn ← registerFD parentWrite
      modifyObject tPac fun o => { o with mStdIn := mStdIn }
      mStdIn.forM attach
      return some tPac

/-- `AsyncCommand::execute`. -/
def execute (cmd : StdString) (errbub : ErrBub) : Io D (Option ObjId) := do
  match ← sysCall .pipe with
  | .error e =>
      rs_error_bubble_or_exit (.errno e) errbub
      return none
  | .ok (childRead, parentWrite) =>
      match ← sysCall .pipe with
      | .error e =>
          closeAll [parentWrite, childRead]
          rs_error_bubble_or_exit (.errno e) errbub
          return none
      | .ok (parentRead, childWrite) =>
          match ← sysCall (.fork cmd) with
          | .error e =>
              closeAll [childRead, childWrite, parentRead, parentWrite]
              rs_error_bubble_or_exit (.errno e) errbub
              return none
          | .ok pid =>
              match ← sysCall (.pidfdOpen pid) with
              | .error e =>
                  closeAll [childRead, childWrite, parentRead, parentWrite]
                  let _ ← sysCall (.kill pid)
                  rs_error_bubble_or_exit (.errno e) errbub
                  return none
              | .ok childWaitFD =>
                  let tPac ← adoptChild pid childWaitFD parentRead parentWrite
                  closeAll [childRead, childWrite]
                  return tPac

/-- `asyncWrite`. -/
def asyncWrite (aFD : ObjId) (buffer : StdString) (errbub : ErrBub) : Io D ℤ :=
  writeLoop (fun b => do sysCall (.write (← getFD aFD) b)) errbub buffer 0

/-- `AsyncCommand::writeStdIn`. There is no such object once it was closed. -/
def writeStdIn (pac : ObjId) (buffer : StdString) (errbub : ErrBub) : Io D ℤ := do
  let m ← memory
  match (m.objects pac).mStdIn with
  | none => return -1
  | some mStdIn => asyncWrite mStdIn buffer errbub

/-- `AsyncCommand::closeStdIn`. -/
def closeStdIn (pac : ObjId) (errbub : ErrBub) : Io D Bool := do
  let m ← memory
  let mRet ← closeAFD (m.objects pac).mStdIn errbub
  if mRet then modifyObject pac fun o => { o with mStdIn := none }
  return mRet

/-- `AsyncCommand::closeStdOut`. -/
def closeStdOut (pac : ObjId) (errbub : ErrBub) : Io D Bool := do
  let m ← memory
  let mRet ← closeAFD (m.objects pac).mStdOut errbub
  if mRet then modifyObject pac fun o => { o with mStdOut := none }
  return mRet

/-- Close a pipe if there is one. -/
def closeIfSome (pipe : Option ObjId) (closePipe : Io D Bool) : Io D Bool :=
  if pipe.isSome then closePipe else pure true

@[simp] lemma closeIfSome_some (pipe : ObjId) (closePipe : Io D Bool) :
    closeIfSome (some pipe) closePipe = closePipe := rfl

@[simp] lemma closeIfSome_none (closePipe : Io D Bool) :
    closeIfSome none closePipe = pure true := rfl

/-- The specialisation of `IOContext::closeAFD` for commands. -/
def closeCommand (pac : ObjId) (errbub : ErrBub) : Io D Bool := do
  let m ← memory
  let inClosed ← closeIfSome (m.objects pac).mStdIn (closeStdIn pac errbub)
  if !inClosed then return false
  let m ← memory
  let outClosed ← closeIfSome (m.objects pac).mStdOut (closeStdOut pac errbub)
  if !outClosed then return false
  modifyObject pac fun o => { o with mProcessId := -1 }
  closeAFD (some pac) errbub

/-- `WaitpidOperation::syscall`. -/
def waitpidSyscall (pac : ObjId) : Io D (Except Errno ℤ) := do
  let m ← memory
  match ← sysCall (.waitpid (m.objects pac).mProcessId) with
  | .ok 0 => return .error .eagain
  | waitPidRet => return waitPidRet

/-- `AsyncCommand::waitTermination`. -/
def waitTermination (pac : ObjId) (errbub : ErrBub) : Io D Bool := do
  let m ← memory
  let tPid := (m.objects pac).mProcessId
  let waitPidRet ← awaitSyscall true errbub fun _ => waitpidSyscall pac
  if tPid = waitPidRet.toOption.getD (-1) then closeCommand pac errbub else return false

/-! ### What commands call -/

/-- The calls, marks and writes of a coroutine that runs commands are among the
given ones, and it may end the process. -/
structure RunsCommands (C : SysCall → Prop) (E : Mark → Prop) (W : Process D → Process D → Prop)
    (Z : Prop) : Prop extends Manages C E W Z where
  pipe : C .pipe
  fork : ∀ cmd, C (.fork cmd)
  pidfdOpen : ∀ pid, C (.pidfdOpen pid)
  kill : ∀ pid, C (.kill pid)
  waitpid : ∀ pid, C (.waitpid pid)
  write : ∀ fd buffer, C (.write fd buffer)
  requeued : E .requeued
  setObject : ∀ m id o, W m (m.setObject id o)

section Uses

variable {C : SysCall → Prop} {E : Mark → Prop} {W : Process D → Process D → Prop} {Z : Prop}
  (h : RunsCommands C E W Z)

include h

lemma uses_closeAll (fds : List ℤ) : (closeAll fds : Io D Unit).Uses C E W Z := by
  induction fds with
  | nil => exact uses_pure ()
  | cons fd fds ih => exact uses_bind (uses_call (h.close fd)) fun _ => ih

lemma uses_modifyObject (id : ObjId) (f : AsyncFd → AsyncFd) :
    (modifyObject id f : Io D Unit).Uses C E W Z :=
  uses_update (fun m => h.setObject m id _) fun _ => uses_pure ()

lemma uses_adoptChild (pid childWaitFD parentRead parentWrite : ℤ) :
    (adoptChild pid childWaitFD parentRead parentWrite : Io D _).Uses C E W Z := by
  have hattach : ∀ pipe : Option ObjId, (pipe.forM attach : Io D Unit).Uses C E W Z := by
    intro pipe
    cases pipe with
    | none => exact uses_pure ()
    | some id => exact uses_attach h.toManages id
  refine uses_bind (uses_registerFD h.toManages _ _) fun registered => ?_
  cases registered with
  | none => exact uses_pure none
  | some tPac =>
      refine uses_bind (uses_attach h.toManages _) fun _ => ?_
      refine uses_bind (uses_modifyObject h _ _) fun _ => ?_
      refine uses_bind (uses_registerFD h.toManages _ _) fun mStdOut => ?_
      refine uses_bind (uses_modifyObject h _ _) fun _ => uses_bind (hattach mStdOut) fun _ => ?_
      refine uses_bind (uses_registerFD h.toManages _ _) fun mStdIn => ?_
      refine uses_bind (uses_modifyObject h _ _) fun _ => uses_bind (hattach mStdIn) fun _ => ?_
      exact uses_pure _

lemma uses_execute (cmd : StdString) : (execute cmd .storage : Io D _).Uses C E W Z := by
  have hfail : ∀ c, (do
      rs_error_bubble_or_exit c .storage
      pure none : Io D (Option ObjId)).Uses C E W Z :=
    fun c => uses_bind (h.uses_bubble c .storage) fun _ => uses_pure none
  refine uses_bind (uses_call h.pipe) fun fds₁ => ?_
  cases fds₁ with
  | error e => exact hfail _
  | ok fds₁ =>
      refine uses_bind (uses_call h.pipe) fun fds₂ => ?_
      cases fds₂ with
      | error e => exact uses_bind (uses_closeAll h _) fun _ => hfail _
      | ok fds₂ =>
          refine uses_bind (uses_call (h.fork cmd)) fun pid => ?_
          cases pid with
          | error e => exact uses_bind (uses_closeAll h _) fun _ => hfail _
          | ok pid =>
              refine uses_bind (uses_call (h.pidfdOpen pid)) fun childWaitFD => ?_
              cases childWaitFD with
              | error e =>
                  exact uses_bind (uses_closeAll h _) fun _ =>
                    uses_bind (uses_call (h.kill pid)) fun _ => hfail _
              | ok childWaitFD =>
                  exact uses_bind (uses_adoptChild h _ _ _ _) fun tPac =>
                    uses_bind (uses_closeAll h _) fun _ => uses_pure tPac

lemma uses_writeStdIn (pac : ObjId) (buffer : StdString) :
    (writeStdIn pac buffer .storage : Io D ℤ).Uses C E W Z := by
  refine uses_bind uses_memory fun m => ?_
  cases (m.objects pac).mStdIn with
  | none => exact uses_pure _
  | some mStdIn =>
      exact uses_writeLoop h.bubbled
        (fun b => uses_bind (uses_bind uses_memory fun _ => uses_pure _)
          fun fd => uses_call (h.write fd b)) buffer 0

/-- Closing a pipe and forgetting it. -/
lemma uses_closePipe (pipe : Process D → Option ObjId) (pac : ObjId) (f : AsyncFd → AsyncFd) :
    (do
      let m ← memory
      let mRet ← closeAFD (pipe m) .storage
      if mRet then modifyObject pac f
      pure mRet : Io D Bool).Uses C E W Z := by
  refine uses_bind uses_memory fun m => uses_bind (uses_closeAFD h.toManages _ _) fun mRet => ?_
  simp only
  split_ifs
  · exact uses_bind (uses_modifyObject h _ _) fun _ => uses_pure mRet
  · exact uses_pure mRet

lemma uses_closeCommand (pac : ObjId) : (closeCommand pac .storage : Io D Bool).Uses C E W Z := by
  have hclose : ∀ (pipe : Option ObjId) (closePipe : Io D Bool), closePipe.Uses C E W Z →
      (closeIfSome pipe closePipe).Uses C E W Z := by
    intro pipe closePipe hp
    rw [closeIfSome]
    split_ifs
    · exact hp
    · exact uses_pure true
  refine uses_bind uses_memory fun m => ?_
  refine uses_bind (hclose _ _ (uses_closePipe h _ pac _)) fun inClosed => ?_
  split_ifs
  · exact uses_pure false
  refine uses_bind uses_memory fun m => ?_
  refine uses_bind (hclose _ _ (uses_closePipe h _ pac _)) fun outClosed => ?_
  split_ifs
  · exact uses_pure false
  · exact uses_bind (uses_modifyObject h _ _) fun _ => uses_closeAFD h.toManages _ _

lemma uses_waitTermination (pac : ObjId) :
    (waitTermination pac .storage : Io D Bool).Uses C E W Z := by
  refine uses_bind uses_memory fun m => ?_
  refine uses_bind (uses_awaitSyscall h.bubbled (fun _ => h.requeued) fun _ => ?_) fun r => ?_
  · refine uses_bind uses_memory fun m => uses_bind (uses_call (h.waitpid _)) fun r => ?_
    split
    · exact uses_pure _
    · exact uses_pure _
  · split_ifs
    · exact uses_closeCommand h pac
    · exact uses_pure false

end Uses

end SharedStateAsync
