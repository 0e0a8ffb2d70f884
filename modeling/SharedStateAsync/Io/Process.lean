/-
The process as its coroutines see it.

All coroutines of the daemon run in one thread, share the `SharedState` object
and the table of the descriptors `IOContext` manages, and give way to each other
whenever a system call would block. The system calls of the source are the calls
of the coroutines here, with the error number in place of the `-1`.

* `SysCall`, `Ans`: the system calls and their results;
* `AsyncFd`, `Process`: the descriptor objects on the heap, and the memory the
  coroutines share;
* `rs_error_bubble_or_exit`: an error ends the process when there is nowhere to
  store it;
* `awaitSyscall`: `co_await` of an `AwaitableSyscall`;
* `registerFD`, `closeAFD`: the table of managed descriptors;
* `Process.TableOk`: the table lists exactly the open descriptors, each under its
  own object.
-/
import SharedStateAsync.Lib.Coroutine
import SharedStateAsync.Basic

namespace SharedStateAsync

open Coro

/-! ### System calls -/

/-- The system calls, and the few library calls that reach the system. -/
inductive SysCall where
  | socket
  | accept (fd : ℤ)
  | connect (fd : ℤ) (addr : SockAddr)
  | getpeername (fd : ℤ)
  | recv (fd : ℤ) (len : ℕ)
  | send (fd : ℤ) (buffer : StdString)
  | read (fd : ℤ) (len : ℕ)
  | write (fd : ℤ) (buffer : StdString)
  | close (fd : ℤ)
  | fcntlGetFl (fd : ℤ)
  | fcntlSetFl (fd : ℤ) (flags : ℕ)
  | epollAdd (fd : ℤ)
  | epollDel (fd : ℤ)
  | pipe
  /-- In the parent; the child executes the command or ends. -/
  | fork (cmd : StdString)
  | pidfdOpen (pid : ℤ)
  | kill (pid : ℤ)
  /-- With `WNOHANG`: zero while the child runs. -/
  | waitpid (pid : ℤ)
  /-- `std::chrono::steady_clock::now`, in nanoseconds. -/
  | steadyClock
  | isDirectory (path : StdString)
  /-- The entries of a directory with, where their status can be read, whether
  the owner may execute them; nothing when opening it throws. -/
  | directory (path : StdString)
  /-- `open` of a file for reading and writing, created if need be. -/
  | openFile (path : StdString)
  | flock (fd : ℤ) (exclusive : Bool)
  /-- The content of a file, if it opens. -/
  | readFile (path : StdString)
  /-- Truncate a file and write it; whether it opened. -/
  | writeFile (path content : StdString)
  /-- The value of an object that was never assigned one. -/
  | indeterminate

/-- The result of a call. -/
abbrev Ans : SysCall → Type
  | .socket | .accept _ | .pidfdOpen _ | .fork _ | .waitpid _ | .openFile _ => Except Errno ℤ
  | .getpeername _ => Except Errno SockAddr
  | .recv _ len | .read _ len => Except Errno { b : StdString // b.length ≤ len }
  | .send _ buffer | .write _ buffer => Except Errno { n : ℕ // n ≤ buffer.length }
  | .fcntlGetFl _ => Except Errno ℕ
  | .pipe => Except Errno (ℤ × ℤ)
  | .connect _ _ | .close _ | .fcntlSetFl _ _ | .epollAdd _ | .epollDel _ | .kill _
  | .flock _ _ => Except Errno Unit
  | .steadyClock | .indeterminate => ℤ
  | .isDirectory _ | .writeFile _ _ => Bool
  | .directory _ => Option (List (StdString × Option Bool))
  | .readFile _ => Option StdString

/-- Success, with nothing to report. -/
def quietAnswer : (c : SysCall) → Ans c
  | .socket | .accept _ | .pidfdOpen _ | .fork _ | .waitpid _ | .openFile _ => .ok 0
  | .getpeername _ => .ok []
  | .recv _ _ | .read _ _ => .ok ⟨[], Nat.zero_le _⟩
  | .send _ buffer | .write _ buffer => .ok ⟨buffer.length, le_rfl⟩
  | .fcntlGetFl _ => .ok 0
  | .pipe => .ok (0, 0)
  | .connect _ _ | .close _ | .fcntlSetFl _ _ | .epollAdd _ | .epollDel _ | .kill _
  | .flock _ _ => .ok ()
  | .steadyClock | .indeterminate => (0 : ℤ)
  | .isDirectory _ | .writeFile _ _ => false
  | .directory _ => none
  | .readFile _ => none

/-! ### Shared memory -/

/-- An object on the heap, by number. -/
abbrev ObjId : Type := ℕ

/-- `AsyncFileDescriptor`, with the members `AsyncCommand` adds. -/
structure AsyncFd where
  mFD : ℤ := -1
  mProcessId : ℤ := -1
  mStdOut : Option ObjId := none
  mStdIn : Option ObjId := none
  deriving DecidableEq, Repr

/-- What the coroutines of the process share. -/
structure Process (D : Type) where
  shared : SharedState D
  mManagedFD : OrdMap ℤ ObjId := ∅
  objects : ObjId → AsyncFd := fun _ => {}
  /-- The number of the next object to be made. -/
  nextObject : ObjId := 0

/-- Points of a run that the properties refer to. -/
inductive Mark where
  /-- `accept` was called. -/
  | accepting
  /-- An error was stored for the caller. -/
  | bubbled (c : ErrorCondition)
  /-- A multi-shot operation queued its coroutine again and went on. -/
  | requeued
  /-- `registerFD` made an object. -/
  | registered (id : ObjId)
  /-- A session has received a message. -/
  | messageIn (typeName data : StdString)
  /-- A session goes on to send a message. -/
  | messageOut (typeName data : StdString)
  /-- `merge` of a slice of the type returned. -/
  | merged (typeName : StdString) (changes : ℤ)
  /-- `notifyHooks` was called for the type. -/
  | notifyHooks (typeName : StdString)
  /-- The state of a type was read through a reference although it is gone. -/
  | danglingState (typeName : StdString)
  deriving DecidableEq, Repr

/-- A coroutine of the process. -/
abbrev Io (D : Type) : Type → Type := Coro SysCall Ans (Process D) Mark

/-- Make a system call. -/
abbrev sysCall {D : Type} (c : SysCall) : Io D (Ans c) := call c

/-- A step of a run. -/
abbrev Step (D : Type) : Type := Item SysCall Ans (Process D) Mark

abbrev Trace (D : Type) : Type := List (Step D)

variable {D α : Type}

namespace Process

/-- Put `o` in place of an object. -/
def setObject (m : Process D) (id : ObjId) (o : AsyncFd) : Process D :=
  { m with objects := Function.update m.objects id o }

/-- A new object for `fd`, entered in the table. -/
def register (m : Process D) (fd : ℤ) : Process D where
  shared := m.shared
  mManagedFD := m.mManagedFD.insert fd m.nextObject
  objects := Function.update m.objects m.nextObject { mFD := fd }
  nextObject := m.nextObject + 1

/-- `aFD->mFD = -1; mManagedFD.erase(fdIt)`. -/
def release (m : Process D) (id : ObjId) (fd : ℤ) : Process D where
  shared := m.shared
  mManagedFD := m.mManagedFD.erase fd
  objects := Function.update m.objects id { m.objects id with mFD := -1 }
  nextObject := m.nextObject

section Objects

variable (m : Process D) (id : ObjId) {id' : ObjId}

lemma setObject_objects_self (o : AsyncFd) : (m.setObject id o).objects id = o :=
  Function.update_self _ _ _

lemma setObject_objects_of_ne (h : id' ≠ id) (o : AsyncFd) :
    (m.setObject id o).objects id' = m.objects id' :=
  Function.update_of_ne h _ _

lemma register_objects_self (fd : ℤ) : (m.register fd).objects m.nextObject = { mFD := fd } :=
  Function.update_self _ _ _

lemma register_objects_of_ne (h : id' ≠ m.nextObject) (fd : ℤ) :
    (m.register fd).objects id' = m.objects id' :=
  Function.update_of_ne h _ _

lemma release_objects_self (fd : ℤ) :
    (m.release id fd).objects id = { m.objects id with mFD := -1 } :=
  Function.update_self _ _ _

lemma release_objects_of_ne (h : id' ≠ id) (fd : ℤ) :
    (m.release id fd).objects id' = m.objects id' :=
  Function.update_of_ne h _ _

end Objects

end Process

/-! ### Errors and waiting -/

/-- The error pointer of a call. -/
inductive ErrBub where
  | null
  | storage
  deriving DecidableEq, Repr

/-- `rs_error_bubble_or_exit`. -/
def rs_error_bubble_or_exit (c : ErrorCondition) : ErrBub → Io D Unit
  | .null => .exit
  | .storage => event (.bubbled c)

/-- `AwaitableSyscall::shouldWait`. -/
def shouldWait : Except Errno α → Bool
  | .error .eagain | .error .ewouldblock | .error .einprogress => true
  | _ => false

/-- An error that does not mean waiting goes to the caller. -/
def reportError (errbub : ErrBub) : Except Errno α → Io D Unit
  | .error e => rs_error_bubble_or_exit (.errno e) errbub
  | .ok _ => pure ()

/-- `co_await` of an `AwaitableSyscall`: `await_suspend` makes the first attempt,
`await_resume` the second when the first would have blocked. A multi-shot
operation that would block again is queued again, but its coroutine goes on with
the error value all the same. `syscall` is told whether it is called again. -/
def awaitSyscall (multiShot : Bool) (errbub : ErrBub)
    (syscall : Bool → Io D (Except Errno α)) : Io D (Except Errno α) := do
  let mReturnValue ← syscall false
  if shouldWait mReturnValue then
    giveWay
    let mReturnValue ← syscall true
    if multiShot && shouldWait mReturnValue then event .requeued
    else reportError errbub mReturnValue
    return mReturnValue
  else
    reportError errbub mReturnValue
    return mReturnValue

section Uses

variable {C : SysCall → Prop} {E : Mark → Prop} {W : Process D → Process D → Prop} {Z : Prop}

lemma uses_rs_error_bubble_or_exit {c : ErrorCondition} {errbub : ErrBub}
    (hE : ∀ c, E (.bubbled c)) (hz : errbub = .null → Z := by nofun) :
    (rs_error_bubble_or_exit c errbub : Io D Unit).Uses C E W Z := by
  cases errbub with
  | null => exact uses_exit (hz rfl)
  | storage => exact uses_event (hE c)

lemma uses_reportError {errbub : ErrBub} (hE : ∀ c, E (.bubbled c)) (r : Except Errno α)
    (hz : errbub = .null → Z := by nofun) :
    (reportError errbub r : Io D Unit).Uses C E W Z := by
  cases r with
  | ok a => exact uses_pure ()
  | error e => exact uses_rs_error_bubble_or_exit hE hz

/-- An awaited call makes the calls of its attempts. -/
lemma uses_awaitSyscall {multiShot : Bool} {errbub : ErrBub}
    {syscall : Bool → Io D (Except Errno α)} (hE : ∀ c, E (.bubbled c))
    (hrequeued : multiShot → E .requeued) (h : ∀ again, (syscall again).Uses C E W Z)
    (hz : errbub = .null → Z := by nofun) :
    (awaitSyscall multiShot errbub syscall).Uses C E W Z := by
  refine uses_bind (h false) fun r => ?_
  split_ifs with hwait
  · refine uses_bind uses_giveWay fun _ => uses_bind (h true) fun r' => ?_
    split_ifs with hagain
    · refine uses_bind (uses_event (hrequeued ?_)) fun _ => uses_pure r'
      exact (Bool.and_eq_true_iff.mp hagain).1
    · exact uses_bind (uses_reportError hE r' hz) fun _ => uses_pure r'
  · exact uses_bind (uses_reportError hE r hz) fun _ => uses_pure r

end Uses

/-! ### The table of managed descriptors -/

/-- `getFD()`. -/
def getFD (id : ObjId) : Io D ℤ := do
  let m ← memory
  return (m.objects id).mFD

/-- `O_NONBLOCK`. -/
def O_NONBLOCK : ℕ := 0o4000

/-- `IOContext::registerFD`. -/
def registerFD (fd : ℤ) (errbub : ErrBub := .null) : Io D (Option ObjId) := do
  match ← sysCall (.fcntlGetFl fd) with
  | .error e =>
      rs_error_bubble_or_exit (.errno e) errbub
      return none
  | .ok flags =>
      match ← sysCall (.fcntlSetFl fd (flags ||| O_NONBLOCK)) with
      | .error e =>
          rs_error_bubble_or_exit (.errno e) errbub
          return none
      | .ok _ =>
          let m ← memory
          setMemory (m.register fd)
          event (.registered m.nextObject)
          return some m.nextObject

/-- `IOContext::attach`, `attachReadonly` and `attachWriteOnly`: a failure is
only logged. -/
def attach (id : ObjId) : Io D Unit := do
  let fd ← getFD id
  let _ ← sysCall (.epollAdd fd)

/-- `CloseOperation::syscall`: a close that is still pending counts as done. -/
def closeSyscall (fd : ℤ) : Io D (Except Errno Unit) := do
  let sysCloseRet ← sysCall (.close fd)
  return if shouldWait sysCloseRet then .ok () else sysCloseRet

/-- `IOContext::closeAFD`. -/
def closeAFD (aFD : Option ObjId) (errbub : ErrBub := .null) : Io D Bool := do
  match aFD with
  | none =>
      rs_error_bubble_or_exit .invalidArgument errbub
      return false
  | some id =>
      let m ← memory
      let fd := (m.objects id).mFD
      match m.mManagedFD[fd]? with
      | none =>
          rs_error_bubble_or_exit .noSuchFileOrDirectory errbub
          return false
      | some id' =>
          if id' ≠ id then
            rs_error_bubble_or_exit .stateNotRecoverable .null
            return false
          else
            match ← sysCall (.epollDel fd) with
            | .error e =>
                rs_error_bubble_or_exit (.errno e) .null
                return false
            | .ok _ =>
                let sysCloseRet ← awaitSyscall false .storage fun _ => closeSyscall fd
                reportError errbub sysCloseRet
                let m ← memory
                setMemory (m.release id fd)
                return sysCloseRet.isOk

/-- The calls, marks and writes of a coroutine that makes and closes descriptor
objects are among the given ones, and it may end the process. -/
structure Manages (C : SysCall → Prop) (E : Mark → Prop) (W : Process D → Process D → Prop)
    (Z : Prop) : Prop where
  fcntlGetFl : ∀ fd, C (.fcntlGetFl fd)
  fcntlSetFl : ∀ fd flags, C (.fcntlSetFl fd flags)
  epollAdd : ∀ fd, C (.epollAdd fd)
  epollDel : ∀ fd, C (.epollDel fd)
  close : ∀ fd, C (.close fd)
  bubbled : ∀ c, E (.bubbled c)
  registered : ∀ id, E (.registered id)
  register : ∀ m fd, W m (m.register fd)
  release : ∀ m id fd, W m (m.release id fd)
  exits : Z

section Uses

variable {C : SysCall → Prop} {E : Mark → Prop} {W : Process D → Process D → Prop} {Z : Prop}

lemma Manages.uses_bubble (h : Manages C E W Z) (c : ErrorCondition) (errbub : ErrBub) :
    (rs_error_bubble_or_exit c errbub : Io D Unit).Uses C E W Z :=
  uses_rs_error_bubble_or_exit h.bubbled fun _ => h.exits

lemma uses_registerFD (h : Manages C E W Z) (fd : ℤ) (errbub : ErrBub) :
    (registerFD fd errbub : Io D _).Uses C E W Z := by
  refine uses_bind (uses_call (h.fcntlGetFl fd)) fun flags => ?_
  cases flags with
  | error e => exact uses_bind (h.uses_bubble _ errbub) fun _ => uses_pure none
  | ok flags =>
      refine uses_bind (uses_call (h.fcntlSetFl fd _)) fun r => ?_
      cases r with
      | error e => exact uses_bind (h.uses_bubble _ errbub) fun _ => uses_pure none
      | ok _ =>
          exact uses_update (fun m => h.register m fd)
            fun m => uses_bind (uses_event (h.registered _)) fun _ => uses_pure _

lemma uses_attach (h : Manages C E W Z) (id : ObjId) : (attach id : Io D Unit).Uses C E W Z :=
  uses_bind (uses_bind uses_memory fun _ => uses_pure _)
    fun fd => uses_bind (uses_call (h.epollAdd fd)) fun _ => uses_pure ()

lemma uses_closeAFD (h : Manages C E W Z) (aFD : Option ObjId) (errbub : ErrBub) :
    (closeAFD aFD errbub : Io D Bool).Uses C E W Z := by
  have hfail : ∀ c errbub, (do
      rs_error_bubble_or_exit c errbub
      pure false : Io D Bool).Uses C E W Z :=
    fun c errbub => uses_bind (h.uses_bubble c errbub) fun _ => uses_pure false
  cases aFD with
  | none => exact hfail _ errbub
  | some id =>
      refine uses_bind uses_memory fun m => ?_
      simp only
      cases m.mManagedFD[(m.objects id).mFD]? with
      | none => exact hfail _ errbub
      | some id' =>
          simp only
          split_ifs
          · exact hfail _ .null
          refine uses_bind (uses_call (h.epollDel _)) fun r => ?_
          cases r with
          | error e => exact hfail _ .null
          | ok _ =>
              refine uses_bind (uses_awaitSyscall h.bubbled (fun h => by cases h) fun _ => ?_)
                fun closed => uses_bind ?_ fun _ => ?_
              · exact uses_bind (uses_call (h.close _)) fun _ => uses_pure _
              · exact uses_reportError h.bubbled closed fun _ => h.exits
              · exact uses_update (fun m => h.release m id _) fun _ => uses_pure _

end Uses

/-- The table lists exactly the open descriptors, each under its own object. -/
structure Process.TableOk (m : Process D) : Prop where
  managed_iff : ∀ (fd : ℤ) (id : ObjId),
    m.mManagedFD[fd]? = some id ↔ id < m.nextObject ∧ (m.objects id).mFD = fd ∧ 0 ≤ fd

end SharedStateAsync
