/-
The objects behind the table of managed descriptors, from their making to their destruction.

The destructors of descriptor objects and of commands end the process when the descriptor was not
closed, or the child not waited for. An object is destroyed when the last pointer to it goes, and
the table has one to it for as long as its descriptor is open.

* `AsyncFd.fatal`: the check in the destructors;
* `Process.Destructible`: the table is a bijection, and what it has no pointer to passes that check;
* `Process.Orderly`: the invariant behind it, that every open object is in the table, and every
  command that runs, but its pipes are no such commands;
* `FdJob`, `fdKernel`: the coroutines that make and close objects, on a kernel that hands out
  numbers that are not open;
* `Tracked`: what they keep whenever they give way;
* `secure_registerFD`, `secure_closeAFD`, `secure_closeCommand`, `secure_execute`,
  `secure_waitTermination`: that they do;
* `throughout_destructible`: so no run comes to a destructor that ends the process.
-/
import SharedStateAsync.Io.Table
import SharedStateAsync.Lib.KernelPool

namespace SharedStateAsync

open Coro

variable {D : Type}

/-! ### The objects -/

namespace AsyncFd

/-- `~AsyncCommand` and `~AsyncFileDescriptor` end the process. -/
def fatal (o : AsyncFd) : Bool := o.mProcessId != -1 || o.mFD != -1

/-- `x` is a pipe of the command. -/
def HasPipe (o : AsyncFd) (x : ObjId) : Prop := o.mStdIn = some x ∨ o.mStdOut = some x

end AsyncFd

namespace Process

/-- The table has each open object under its number and no others, the commands that run are open,
and their pipes are not commands that run. -/
structure Orderly (m : Process D) : Prop where
  managed : ∀ (fd : ℤ) (id : ObjId), m.mManagedFD[fd]? = some id →
    id < m.nextObject ∧ (m.objects id).mFD = fd ∧ fd ≠ -1
  open_managed : ∀ id, (m.objects id).mFD ≠ -1 → m.mManagedFD[(m.objects id).mFD]? = some id
  process_open : ∀ id, (m.objects id).mProcessId ≠ -1 → (m.objects id).mFD ≠ -1
  pipes : ∀ id x, (m.objects id).HasPipe x → x < m.nextObject ∧ (m.objects x).mProcessId = -1

/-- The table has no pointer to the object, so it is destroyed as soon as the coroutines and the
commands let go of it. -/
def Dropped (m : Process D) (id : ObjId) : Prop := ∀ fd : ℤ, m.mManagedFD[fd]? ≠ some id

/-- Every number leads to the object that has it, no object is under two numbers, an object that was
taken out is closed, and no destructor ends the process. -/
structure Destructible (m : Process D) : Prop where
  mFD_eq : ∀ (fd : ℤ) (id : ObjId), m.mManagedFD[fd]? = some id → (m.objects id).mFD = fd
  injective : ∀ (fd fd' : ℤ) (id : ObjId), m.mManagedFD[fd]? = some id →
    m.mManagedFD[fd']? = some id → fd = fd'
  closed : ∀ id, m.Dropped id → (m.objects id).mFD = -1
  fatal_eq_false : ∀ id, m.Dropped id → (m.objects id).fatal = false

section Orderly

variable {m : Process D} {fd : ℤ} {id : ObjId}

lemma orderly_empty (shared : SharedState D) : Orderly { shared := shared } where
  managed := fun fd id hid => by simp at hid
  open_managed := fun _ hid => absurd rfl hid
  process_open := fun _ hid => absurd rfl hid
  pipes := fun _ _ hx => hx.elim nofun nofun

/-- The table is a bijection, and what it has no pointer to can be destroyed. -/
lemma Orderly.destructible (h : m.Orderly) : m.Destructible := by
  have hclosed : ∀ id, m.Dropped id → (m.objects id).mFD = -1 := by
    intro id hid
    by_contra hne
    exact hid _ (h.open_managed id hne)
  refine ⟨fun fd id hid => (h.managed fd id hid).2.1, fun fd fd' id hid hid' => ?_, hclosed, ?_⟩
  · exact (h.managed fd id hid).2.1.symm.trans (h.managed fd' id hid').2.1
  · intro id hid
    have hprocess : (m.objects id).mProcessId = -1 := by
      by_contra hne
      exact h.process_open id hne (hclosed id hid)
    rw [AsyncFd.fatal, hclosed id hid, hprocess]
    rfl

/-- A new object. -/
lemma Orderly.register (h : m.Orderly) (hpos : 0 ≤ fd) (hfree : m.mManagedFD[fd]? = none) :
    (m.register fd).Orderly := by
  -- the objects there were are as before, and the new one has no pipes
  have hold : ∀ {id'}, id' ≠ m.nextObject → (m.register fd).objects id' = m.objects id' :=
    fun hne => m.register_objects_of_ne hne fd
  have hnew := m.register_objects_self fd
  constructor
  · intro fd' id' hid'
    rw [Process.register] at hid'
    dsimp only at hid'
    rw [OrdMap.getElem?_insert_eq] at hid'
    split_ifs at hid' with hfd
    · obtain rfl := Option.some.inj hid'
      subst hfd
      rw [hnew]
      exact ⟨Nat.lt_succ_self _, rfl, by omega⟩
    · obtain ⟨hlt, hmFD⟩ := h.managed fd' id' hid'
      rw [hold hlt.ne]
      exact ⟨Nat.lt_succ_of_lt hlt, hmFD⟩
  · intro id' hid'
    rw [Process.register]
    dsimp only
    rw [OrdMap.getElem?_insert_eq]
    by_cases hne : id' = m.nextObject
    · subst hne
      rw [Function.update_self, if_pos rfl]
    · rw [hold hne] at hid'
      rw [Function.update_of_ne hne, if_neg, h.open_managed id' hid']
      rintro rfl
      rw [h.open_managed id' hid'] at hfree
      cases hfree
  · intro id' hid'
    by_cases hne : id' = m.nextObject
    · subst hne
      rw [hnew] at hid'
      exact absurd rfl hid'
    · rw [hold hne] at hid' ⊢
      exact h.process_open id' hid'
  · intro id' x hx
    by_cases hne : id' = m.nextObject
    · subst hne
      rw [hnew] at hx
      exact hx.elim nofun nofun
    · rw [hold hne] at hx
      obtain ⟨hlt, hx⟩ := h.pipes id' x hx
      rw [hold hlt.ne]
      exact ⟨Nat.lt_succ_of_lt hlt, hx⟩

/-- An object that is no running command is closed. -/
lemma Orderly.release (h : m.Orderly) (hid : m.mManagedFD[fd]? = some id)
    (hprocess : (m.objects id).mProcessId = -1) : (m.release id fd).Orderly := by
  obtain ⟨-, hmFD, -⟩ := h.managed fd id hid
  have hold : ∀ {id'}, id' ≠ id → (m.release id fd).objects id' = m.objects id' :=
    fun hne => m.release_objects_of_ne id hne fd
  have hclosed := m.release_objects_self id fd
  -- but for the descriptor number the closed object is as before
  have hsame : ∀ id', ((m.release id fd).objects id').mProcessId = (m.objects id').mProcessId ∧
      ∀ x, ((m.release id fd).objects id').HasPipe x ↔ (m.objects id').HasPipe x := by
    intro id'
    by_cases hne : id' = id
    · subst hne
      rw [hclosed]
      exact ⟨rfl, fun _ => Iff.rfl⟩
    · rw [hold hne]
      exact ⟨rfl, fun _ => Iff.rfl⟩
  constructor
  · intro fd' id' hid'
    rw [Process.release] at hid'
    dsimp only at hid'
    rw [OrdMap.getElem?_erase_eq] at hid'
    split_ifs at hid' with hfd
    obtain ⟨hlt, hmFD', hne'⟩ := h.managed fd' id' hid'
    have hne : id' ≠ id := by
      rintro rfl
      exact hfd (hmFD.symm.trans hmFD')
    rw [hold hne]
    exact ⟨hlt, hmFD', hne'⟩
  · intro id' hid'
    by_cases hne : id' = id
    · subst hne
      rw [hclosed] at hid'
      exact absurd rfl hid'
    · rw [hold hne] at hid' ⊢
      rw [Process.release]
      dsimp only
      rw [OrdMap.getElem?_erase_eq, if_neg, h.open_managed id' hid']
      rintro rfl
      exact hne (Option.some.inj ((h.open_managed id' hid').symm.trans hid))
  · intro id' hid'
    rw [(hsame id').1] at hid'
    by_cases hne : id' = id
    · subst hne
      exact absurd hprocess hid'
    · rw [hold hne]
      exact h.process_open id' hid'
  · intro id' x hx
    obtain ⟨hlt, hx⟩ := h.pipes id' x (((hsame id').2 x).mp hx)
    exact ⟨hlt, (hsame x).1.trans hx⟩

/-- The other members of an object change. A child is adopted by an object that is nobody's pipe. -/
lemma Orderly.setObject (h : m.Orderly) {o : AsyncFd} (hmFD : o.mFD = (m.objects id).mFD)
    (hprocess : o.mProcessId ≠ -1 → o.mFD ≠ -1)
    (hpipes : ∀ x, o.HasPipe x → x < m.nextObject ∧ (m.objects x).mProcessId = -1)
    (hpid : ((m.objects id).mProcessId = -1 → o.mProcessId = -1) ∨
      ¬ o.HasPipe id ∧ ∀ id', ¬ (m.objects id').HasPipe id) : (m.setObject id o).Orderly := by
  have hold : ∀ {id'}, id' ≠ id → (m.setObject id o).objects id' = m.objects id' :=
    fun hne => m.setObject_objects_of_ne id hne o
  have hnew := m.setObject_objects_self id o
  have hsame : ∀ id', ((m.setObject id o).objects id').mFD = (m.objects id').mFD := by
    intro id'
    by_cases hne : id' = id
    · subst hne
      rw [hnew, hmFD]
    · rw [hold hne]
  constructor
  · intro fd' id' hid'
    rw [hsame]
    exact h.managed fd' id' hid'
  · intro id' hid'
    rw [hsame] at hid' ⊢
    exact h.open_managed id' hid'
  · intro id' hid'
    by_cases hne : id' = id
    · subst hne
      rw [hnew] at hid' ⊢
      exact hprocess hid'
    · rw [hold hne] at hid' ⊢
      exact h.process_open id' hid'
  · intro id' x hx
    have hx' : x < m.nextObject ∧ (m.objects x).mProcessId = -1 := by
      by_cases hne : id' = id
      · subst hne
        rw [hnew] at hx
        exact hpipes x hx
      · rw [hold hne] at hx
        exact h.pipes id' x hx
    refine ⟨hx'.1, ?_⟩
    by_cases hne : x = id
    · subst hne
      rw [hnew]
      rcases hpid with hpid | ⟨hself, hothers⟩
      · exact hpid hx'.2
      · by_cases hne' : id' = x
        · subst hne'
          rw [hnew] at hx
          exact absurd hx hself
        · rw [hold hne'] at hx
          exact absurd hx (hothers id')
    · rw [hold hne]
      exact hx'.2

/-- The pipes of an object change. -/
lemma Orderly.setPipes (h : m.Orderly) {o : AsyncFd} (hmFD : o.mFD = (m.objects id).mFD)
    (hpid : o.mProcessId = (m.objects id).mProcessId)
    (hpipes : ∀ x, o.HasPipe x → x < m.nextObject ∧ (m.objects x).mProcessId = -1) :
    (m.setObject id o).Orderly := by
  refine h.setObject hmFD (fun hne => ?_) hpipes (.inl hpid.trans)
  rw [hpid] at hne
  rw [hmFD]
  exact h.process_open id hne

/-- A new object adopts a child. -/
lemma Orderly.adopt (h : m.Orderly) (hpos : 0 ≤ fd) (hfree : m.mManagedFD[fd]? = none) (pid : ℤ) :
    ((m.register fd).setObject m.nextObject
      { (m.register fd).objects m.nextObject with mProcessId := pid }).Orderly := by
  have hnew := m.register_objects_self fd
  have hnone : ∀ x, ¬ ((m.register fd).objects m.nextObject).HasPipe x := by
    intro x hx
    rw [hnew] at hx
    exact hx.elim nofun nofun
  refine (h.register hpos hfree).setObject rfl (fun _ => ?_) (fun x hx => absurd hx (hnone x))
    (.inr ⟨hnone _, fun id' hx => ?_⟩)
  · rw [hnew]
    show fd ≠ -1
    omega
  · by_cases hne : id' = m.nextObject
    · subst hne
      exact hnone _ hx
    · rw [m.register_objects_of_ne hne] at hx
      exact lt_irrefl _ (h.pipes id' _ hx).1

end Orderly

end Process

/-! ### The coroutines and the kernel -/

/-- The coroutines that make and close descriptor objects. -/
inductive FdJob where
  | registerFD (fd : ℤ) (errbub : ErrBub)
  | closeAFD (aFD : Option ObjId) (errbub : ErrBub)
  | closeStdIn (pac : ObjId) (errbub : ErrBub)
  | closeStdOut (pac : ObjId) (errbub : ErrBub)
  | closeCommand (pac : ObjId) (errbub : ErrBub)
  | execute (cmd : StdString) (errbub : ErrBub)
  | waitTermination (pac : ObjId) (errbub : ErrBub)

/-- A coroutine whose result nobody looks at. -/
def FdJob.body : FdJob → Io D Unit
  | .registerFD fd errbub => do let _ ← SharedStateAsync.registerFD fd errbub
  | .closeAFD aFD errbub => do let _ ← SharedStateAsync.closeAFD aFD errbub
  | .closeStdIn pac errbub => do let _ ← SharedStateAsync.closeStdIn pac errbub
  | .closeStdOut pac errbub => do let _ ← SharedStateAsync.closeStdOut pac errbub
  | .closeCommand pac errbub => do let _ ← SharedStateAsync.closeCommand pac errbub
  | .execute cmd errbub => do let _ ← SharedStateAsync.execute cmd errbub
  | .waitTermination pac errbub => do let _ ← SharedStateAsync.waitTermination pac errbub

/-- The number is open, and has no object. -/
def Available (m : Process D) (fds : Finset ℤ) (fd : ℤ) : Prop :=
  fd ∈ fds ∧ m.mManagedFD[fd]? = none

instance (m : Process D) (fds : Finset ℤ) (fd : ℤ) : Decidable (Available m fds fd) :=
  inferInstanceAs (Decidable (_ ∧ _))

/-- What the rest of the program does to the numbers. -/
inductive FdEvent where
  /-- `socket`, `accept` or `open` returned the number. -/
  | opened (fd : ℤ)
  /-- A number without an object was closed. -/
  | closed (fd : ℤ)

/-- The kernel knows the open numbers. It hands out numbers that are not open, and a number that was
passed to `close` is free even when that failed. -/
def fdAnswers (fds : Finset ℤ) (i : Step D) : Option (Finset ℤ) :=
  if (∀ fd ∈ i.opens, 0 ≤ fd ∧ fd ∉ fds) ∧ i.opens.Nodup then
    some ((fds \ i.closes.toFinset) ∪ i.opens.toFinset)
  else none

/-- `registerFD` is called for a number that was handed out and is not registered yet, and
`closeAFD` itself not for a command, for which it is specialised. -/
def FdJob.admits : FdJob → Process D → Finset ℤ → Bool
  | .registerFD fd _, m, fds => Available m fds fd
  | .closeAFD (some id) _, m, _ => (m.objects id).mProcessId == -1
  | _, _, _ => true

/-- What others may do to the open numbers. -/
def FdEvent.run : FdEvent → Process D → Finset ℤ → Option (Finset ℤ)
  | .opened fd, _, fds => if 0 ≤ fd ∧ fd ∉ fds then some (insert fd fds) else none
  | .closed fd, m, fds => if m.mManagedFD[fd]? = none then some (fds.erase fd) else none

/-- The kernel as far as it deals in descriptors. -/
def fdKernel : Coro.Kernel SysCall Ans (Process D) Mark FdJob (Finset ℤ) FdEvent where
  answers := fdAnswers
  admits := FdJob.admits
  outside := FdEvent.run

section Answers

variable {fds fds' : Finset ℤ} {i : Step D}

lemma fdAnswers_eq_some : fdAnswers fds i = some fds' ↔
    ((∀ fd ∈ i.opens, 0 ≤ fd ∧ fd ∉ fds) ∧ i.opens.Nodup) ∧
      (fds \ i.closes.toFinset) ∪ i.opens.toFinset = fds' := by
  rw [fdAnswers, Option.ite_none_right_eq_some, Option.some_inj]

/-- A call that opens and closes nothing. -/
lemma fdAnswers_quiet (hopens : i.opens = []) (hcloses : i.closes = []) :
    fdAnswers fds i = some fds := by
  rw [fdAnswers_eq_some, hopens, hcloses]
  simp

/-- A call that closes a number. -/
lemma fdAnswers_closes {fd : ℤ} (hopens : i.opens = []) (hcloses : i.closes = [fd]) :
    fdAnswers fds i = some (fds.erase fd) := by
  rw [fdAnswers_eq_some, hopens, hcloses]
  simp [Finset.sdiff_singleton_eq_erase]

end Answers

/-! ### What they keep -/

/-- The table is in order, and its numbers are open. -/
structure Tracked (m : Process D) (fds : Finset ℤ) : Prop where
  orderly : m.Orderly
  managed_open : ∀ (fd : ℤ) (id : ObjId), m.mManagedFD[fd]? = some id → fd ∈ fds
  nonneg : ∀ fd ∈ fds, 0 ≤ fd

section Tracked

variable {m : Process D} {fds : Finset ℤ} {fd fd' : ℤ} {id : ObjId}

lemma Available.register (h : Available m fds fd) (hne : fd ≠ fd') :
    Available (m.register fd') fds fd := by
  refine ⟨h.1, ?_⟩
  rw [Process.register]
  dsimp only
  rw [OrdMap.getElem?_insert_eq, if_neg hne.symm, h.2]

lemma Tracked.register (h : Tracked m fds) (hfd : Available m fds fd) :
    Tracked (m.register fd) fds where
  orderly := h.orderly.register (h.nonneg fd hfd.1) hfd.2
  managed_open := by
    intro fd' id' hid'
    rw [Process.register] at hid'
    dsimp only at hid'
    rw [OrdMap.getElem?_insert_eq] at hid'
    split_ifs at hid' with heq
    · exact heq ▸ hfd.1
    · exact h.managed_open fd' id' hid'
  nonneg := h.nonneg

/-- An object is let go of when its number is closed. -/
lemma Tracked.release (h : Tracked m fds) (hid : m.mManagedFD[fd]? = some id)
    (hprocess : (m.objects id).mProcessId = -1) : Tracked (m.release id fd) (fds.erase fd) where
  orderly := h.orderly.release hid hprocess
  managed_open := by
    intro fd' id' hid'
    rw [Process.release] at hid'
    dsimp only at hid'
    rw [OrdMap.getElem?_erase_eq] at hid'
    split_ifs at hid' with heq
    exact Finset.mem_erase.mpr ⟨Ne.symm heq, h.managed_open fd' id' hid'⟩
  nonneg := fun fd' hfd' => h.nonneg fd' (Finset.mem_of_mem_erase hfd')

/-- A number without an object is closed. -/
lemma Tracked.erase (h : Tracked m fds) (hfd : m.mManagedFD[fd]? = none) :
    Tracked m (fds.erase fd) where
  orderly := h.orderly
  managed_open := by
    intro fd' id' hid'
    refine Finset.mem_erase.mpr ⟨?_, h.managed_open fd' id' hid'⟩
    rintro rfl
    rw [hfd] at hid'
    cases hid'
  nonneg := fun fd' hfd' => h.nonneg fd' (Finset.mem_of_mem_erase hfd')

/-- Numbers that were not open are handed out. -/
lemma Tracked.union (h : Tracked m fds) {new : Finset ℤ} (hnew : ∀ fd ∈ new, 0 ≤ fd) :
    Tracked m (fds ∪ new) where
  orderly := h.orderly
  managed_open := fun fd' id' hid' => Finset.mem_union_left new (h.managed_open fd' id' hid')
  nonneg := fun fd' hfd' => (Finset.mem_union.mp hfd').elim (h.nonneg fd') (hnew fd')

/-- A number that was not open has no object. -/
lemma Tracked.free (h : Tracked m fds) (hfd : fd ∉ fds) : m.mManagedFD[fd]? = none := by
  cases hid : m.mManagedFD[fd]? with
  | none => rfl
  | some id => exact absurd (h.managed_open fd id hid) hfd

/-- The table does not change. -/
lemma Tracked.setObject (h : Tracked m fds) {o : AsyncFd} (ho : (m.setObject id o).Orderly) :
    Tracked (m.setObject id o) fds :=
  ⟨ho, h.managed_open, h.nonneg⟩

end Tracked

/-! ### The operations keep it -/

section Operations

variable {α : Type} {m : Process D} {fds : Finset ℤ} {fd : ℤ} {errbub : ErrBub}

/-- A call that opens and closes nothing. -/
lemma secure_quiet {c : SysCall} (hopens : ∀ a, Step.opens (.called m c a) = [])
    (hcloses : ∀ a, Step.closes (.called m c a) = [])
    {Q : Ans c → Process D → Finset ℤ → Prop} (hQ : ∀ a, Q a m fds) :
    secure fdAnswers Tracked Process.Orderly (sysCall c) Q m fds := by
  rw [secure_call]
  intro a fds' ha
  rw [fdAnswers_quiet (hopens a) (hcloses a)] at ha
  obtain rfl := Option.some.inj ha
  exact hQ a

/-- A call that closes a number. -/
lemma secure_close {Q : Except Errno Unit → Process D → Finset ℤ → Prop}
    (hQ : ∀ r, Q r m (fds.erase fd)) :
    secure fdAnswers Tracked Process.Orderly (sysCall (.close fd)) Q m fds := by
  rw [secure_call]
  intro r fds' hr
  rw [fdAnswers_closes (i := .called m (.close fd) r) rfl rfl] at hr
  obtain rfl := Option.some.inj hr
  exact hQ r

/-- An error is stored, or ends the process. -/
lemma secure_bubble {c : ErrorCondition} {Q : Unit → Process D → Finset ℤ → Prop}
    (hQ : Q () m fds) :
    secure fdAnswers Tracked Process.Orderly (rs_error_bubble_or_exit c errbub) Q m fds := by
  cases errbub with
  | null => exact secure_exit
  | storage => exact hQ

lemma secure_reportError {r : Except Errno α} {Q : Unit → Process D → Finset ℤ → Prop}
    (hQ : Q () m fds) :
    secure fdAnswers Tracked Process.Orderly (reportError errbub r) Q m fds := by
  cases r with
  | ok _ => exact hQ
  | error e => exact secure_bubble hQ

lemma secure_attach {id : ObjId} {Q : Unit → Process D → Finset ℤ → Prop} (hQ : Q () m fds) :
    secure fdAnswers Tracked Process.Orderly (attach id) Q m fds := by
  rw [attach, secure_bind, getFD, secure_bind, secure_memory, secure_pure, secure_bind]
  exact secure_quiet (fun _ => rfl) (fun _ => rfl) fun _ => hQ

/-- Other members of an object change. -/
lemma secure_modifyObject {id : ObjId} {f : AsyncFd → AsyncFd}
    {Q : Unit → Process D → Finset ℤ → Prop}
    (ho : (m.setObject id (f (m.objects id))).Orderly)
    (hQ : Q () (m.setObject id (f (m.objects id))) fds) :
    secure fdAnswers Tracked Process.Orderly (modifyObject id f) Q m fds :=
  ⟨ho, hQ⟩

/-- A coroutine that waits for a call leaves what holds whenever it gives way. -/
lemma secure_awaitSyscall {multiShot : Bool} {syscall : Bool → Io D (Except Errno α)}
    (hsyscall : ∀ again m fds, Tracked m fds →
      secure fdAnswers Tracked Process.Orderly (syscall again) (fun _ => Tracked) m fds)
    (h : Tracked m fds) :
    secure fdAnswers Tracked Process.Orderly (awaitSyscall multiShot errbub syscall)
      (fun _ => Tracked) m fds := by
  rw [awaitSyscall, secure_bind]
  refine secure_mono (hsyscall false m fds h) fun r m₁ fds₁ h₁ => ?_
  split_ifs
  · rw [secure_bind, secure_giveWay]
    refine ⟨h₁, fun m₂ fds₂ h₂ => ?_⟩
    rw [secure_bind]
    refine secure_mono (hsyscall true m₂ fds₂ h₂) fun r' m₃ fds₃ h₃ => ?_
    split_ifs
    · exact h₃
    · rw [secure_bind]
      exact secure_reportError h₃
  · rw [secure_bind]
    exact secure_reportError h₁

/-- Closing a number takes one attempt. -/
lemma secure_awaitClose {Q : Except Errno Unit → Process D → Finset ℤ → Prop}
    (hQ : ∀ r, Q r m (fds.erase fd)) :
    secure fdAnswers Tracked Process.Orderly
      (awaitSyscall false .storage fun _ => closeSyscall fd) Q m fds := by
  rw [awaitSyscall, secure_bind, closeSyscall, secure_bind]
  refine secure_close fun r => ?_
  rw [secure_pure, if_neg]
  · rw [secure_bind]
    exact secure_reportError (hQ _)
  · split_ifs with hwait
    · exact Bool.false_ne_true
    · exact hwait

/-- **Registering** a number that has no object. -/
theorem secure_registerFD (h : Tracked m fds) (hfd : Available m fds fd)
    {Q : Option ObjId → Process D → Finset ℤ → Prop} (hnone : errbub = .storage → Q none m fds)
    (hsome : Q (some m.nextObject) (m.register fd) fds) :
    secure fdAnswers Tracked Process.Orderly (registerFD fd errbub) Q m fds := by
  have hfail : ∀ c, secure fdAnswers Tracked Process.Orderly (do
      rs_error_bubble_or_exit c errbub
      pure none : Io D (Option ObjId)) Q m fds := by
    intro c
    cases errbub with
    | null => exact secure_exit
    | storage => exact hnone rfl
  rw [registerFD, secure_bind]
  refine secure_quiet (fun _ => rfl) (fun _ => rfl) fun flags => ?_
  cases flags with
  | error e => exact hfail _
  | ok flags =>
      rw [secure_bind]
      refine secure_quiet (fun _ => rfl) (fun _ => rfl) fun r => ?_
      cases r with
      | error e => exact hfail _
      | ok _ => exact ⟨(h.register hfd).orderly, hsome⟩

/-- **Closing** the object of a descriptor that is no running command. -/
theorem secure_closeAFD {aFD : Option ObjId} (h : Tracked m fds)
    (hprocess : ∀ id, aFD = some id → (m.objects id).mProcessId = -1) :
    secure fdAnswers Tracked Process.Orderly (closeAFD aFD errbub) (fun _ => Tracked) m fds := by
  have hfail : ∀ c errbub, secure fdAnswers Tracked Process.Orderly (do
      rs_error_bubble_or_exit c errbub
      pure false : Io D Bool) (fun _ => Tracked) m fds := by
    intro c errbub
    rw [secure_bind]
    exact secure_bubble h
  cases aFD with
  | none => exact hfail _ _
  | some id =>
      rw [closeAFD, secure_bind, secure_memory]
      dsimp only
      cases hfind : m.mManagedFD[(m.objects id).mFD]? with
      | none => exact hfail _ _
      | some id' =>
          dsimp only
          split_ifs with hne
          · exact hfail _ _
          obtain rfl : id' = id := not_not.mp hne
          rw [secure_bind]
          refine secure_quiet (fun _ => rfl) (fun _ => rfl) fun r => ?_
          cases r with
          | error e => exact hfail _ _
          | ok _ =>
              -- between the call and the two assignments the number is free and has an object
              dsimp only
              rw [secure_bind]
              refine secure_awaitClose fun sysCloseRet => ?_
              rw [secure_bind]
              refine secure_reportError ?_
              have hreleased := h.release hfind (hprocess id' rfl)
              exact ⟨hreleased.orderly, hreleased⟩

/-- Closing a pipe and forgetting it. -/
lemma secure_closePipe (pipe : AsyncFd → Option ObjId) {pac : ObjId} {f : AsyncFd → AsyncFd}
    (hpipe : ∀ o x, pipe o = some x → o.HasPipe x) (hmFD : ∀ o, (f o).mFD = o.mFD)
    (hmProcessId : ∀ o, (f o).mProcessId = o.mProcessId)
    (hf : ∀ o x, (f o).HasPipe x → o.HasPipe x) (h : Tracked m fds) :
    secure fdAnswers Tracked Process.Orderly (do
      let m ← memory
      let mRet ← closeAFD (pipe (m.objects pac)) errbub
      if mRet then modifyObject pac f
      pure mRet : Io D Bool) (fun _ => Tracked) m fds := by
  rw [secure_bind, secure_memory, secure_bind]
  refine secure_mono (secure_closeAFD h fun id hid => ?_) fun mRet m' fds' h' => ?_
  · exact (h.orderly.pipes pac id (hpipe _ id hid)).2
  · split_ifs
    · have ho : (m'.setObject pac (f (m'.objects pac))).Orderly :=
        h'.orderly.setPipes (hmFD _) (hmProcessId _) fun x hx => h'.orderly.pipes pac x (hf _ x hx)
      rw [secure_bind]
      exact secure_modifyObject ho (h'.setObject ho)
    · exact h'

lemma secure_closeStdIn {pac : ObjId} (h : Tracked m fds) :
    secure fdAnswers Tracked Process.Orderly (closeStdIn pac errbub) (fun _ => Tracked) m fds :=
  secure_closePipe AsyncFd.mStdIn (fun _ _ => Or.inl) (fun _ => rfl) (fun _ => rfl)
    (fun _ _ hx => .inr (hx.resolve_left nofun)) h

lemma secure_closeStdOut {pac : ObjId} (h : Tracked m fds) :
    secure fdAnswers Tracked Process.Orderly (closeStdOut pac errbub) (fun _ => Tracked) m fds :=
  secure_closePipe AsyncFd.mStdOut (fun _ _ => Or.inr) (fun _ => rfl) (fun _ => rfl)
    (fun _ _ hx => .inl (hx.resolve_right nofun)) h

lemma secure_closeIfSome {pipe : Option ObjId} {closePipe : Io D Bool}
    (hclose : secure fdAnswers Tracked Process.Orderly closePipe (fun _ => Tracked) m fds)
    (h : Tracked m fds) :
    secure fdAnswers Tracked Process.Orderly (closeIfSome pipe closePipe) (fun _ => Tracked) m
      fds := by
  rw [closeIfSome]
  split_ifs
  · exact hclose
  · exact h

/-- **Closing a command**, its pipes first. -/
theorem secure_closeCommand {pac : ObjId} (h : Tracked m fds) :
    secure fdAnswers Tracked Process.Orderly (closeCommand pac errbub) (fun _ => Tracked) m
      fds := by
  rw [closeCommand, secure_bind, secure_memory, secure_bind]
  refine secure_mono (secure_closeIfSome (secure_closeStdIn h) h) fun inClosed m₁ fds₁ h₁ => ?_
  split_ifs
  · exact h₁
  rw [secure_bind, secure_memory, secure_bind]
  refine secure_mono (secure_closeIfSome (secure_closeStdOut h₁) h₁) fun outClosed m₂ fds₂ h₂ => ?_
  split_ifs
  · exact h₂
  -- from here on it is a descriptor like others
  have ho : (m₂.setObject pac { m₂.objects pac with mProcessId := -1 }).Orderly :=
    h₂.orderly.setObject rfl (fun hne => absurd rfl hne) (h₂.orderly.pipes pac) (.inl fun _ => rfl)
  rw [secure_bind]
  refine secure_modifyObject ho (secure_closeAFD (h₂.setObject ho) fun id hid => ?_)
  obtain rfl := Option.some.inj hid
  rw [Process.setObject_objects_self]

/-- **Waiting for the child** to end. -/
theorem secure_waitTermination {pac : ObjId} (h : Tracked m fds) :
    secure fdAnswers Tracked Process.Orderly (waitTermination pac errbub) (fun _ => Tracked) m
      fds := by
  rw [waitTermination, secure_bind, secure_memory, secure_bind]
  refine secure_mono (secure_awaitSyscall (fun _ m fds h => ?_) h) fun r m' fds' h' => ?_
  · rw [waitpidSyscall, secure_bind, secure_memory, secure_bind]
    refine secure_quiet (fun _ => rfl) (fun _ => rfl) fun r => ?_
    split
    · exact h
    · exact h
  · split_ifs
    · exact secure_closeCommand h'
    · exact h'

/-- The numbers of the list were handed out and have no objects. -/
structure Handed (m : Process D) (fds : Finset ℤ) (l : List ℤ) : Prop where
  tracked : Tracked m fds
  available : ∀ fd ∈ l, Available m fds fd
  nodup : l.Nodup

section Handed

variable {l l' : List ℤ}

lemma Tracked.handed (h : Tracked m fds) : Handed m fds [] :=
  ⟨h, fun _ hfd => absurd hfd List.not_mem_nil, List.nodup_nil⟩

lemma Handed.perm (h : Handed m fds l) (hl : l.Perm l') : Handed m fds l' :=
  ⟨h.tracked, fun fd hfd => h.available fd (hl.mem_iff.mpr hfd), hl.nodup_iff.mp h.nodup⟩

/-- A call hands out more. -/
lemma Handed.opened (h : Handed m fds l) {i : Step D} {fds' : Finset ℤ} (hcloses : i.closes = [])
    (hi : fdAnswers fds i = some fds') : Handed m fds' (i.opens ++ l) := by
  obtain ⟨⟨hnew, hnodup⟩, rfl⟩ := fdAnswers_eq_some.mp hi
  rw [hcloses, List.toFinset_nil, Finset.sdiff_empty]
  refine ⟨h.tracked.union fun fd hfd => (hnew fd (List.mem_toFinset.mp hfd)).1, ?_, ?_⟩
  · intro fd hfd
    rcases List.mem_append.mp hfd with hfd | hfd
    · exact ⟨Finset.mem_union_right _ (List.mem_toFinset.mpr hfd), h.tracked.free (hnew fd hfd).2⟩
    · exact ⟨Finset.mem_union_left _ (h.available fd hfd).1, (h.available fd hfd).2⟩
  · refine List.nodup_append.mpr ⟨hnodup, h.nodup, ?_⟩
    rintro fd hfd _ hfd' rfl
    exact (hnew fd hfd).2 (h.available fd hfd').1

/-- The first gets an object. -/
lemma Handed.register (h : Handed m fds (fd :: l)) : Handed (m.register fd) fds l := by
  obtain ⟨hfd, hnodup⟩ := List.nodup_cons.mp h.nodup
  refine ⟨h.tracked.register (h.available fd List.mem_cons_self), fun fd' hfd' => ?_, hnodup⟩
  refine (h.available fd' (List.mem_cons_of_mem fd hfd')).register ?_
  rintro rfl
  exact hfd hfd'

lemma Handed.setObject (h : Handed m fds l) {id : ObjId} {o : AsyncFd}
    (ho : (m.setObject id o).Orderly) : Handed (m.setObject id o) fds l :=
  ⟨h.tracked.setObject ho, h.available, h.nodup⟩

/-- Numbers without objects are closed. -/
lemma secure_closeAll (h : Tracked m fds) (hl : ∀ fd ∈ l, m.mManagedFD[fd]? = none)
    {Q : Unit → Process D → Finset ℤ → Prop} (hQ : ∀ fds', Tracked m fds' → Q () m fds') :
    secure fdAnswers Tracked Process.Orderly (closeAll l) Q m fds := by
  induction l generalizing fds with
  | nil => exact hQ fds h
  | cons fd l ih =>
      rw [closeAll, secure_bind]
      refine secure_close fun _ => ih (h.erase (hl fd List.mem_cons_self)) fun fd' hfd' => ?_
      exact hl fd' (List.mem_cons_of_mem fd hfd')

lemma Handed.secure_closeAll (h : Handed m fds l) (hl : l' ⊆ l)
    {Q : Unit → Process D → Finset ℤ → Prop} (hQ : ∀ fds', Tracked m fds' → Q () m fds') :
    secure fdAnswers Tracked Process.Orderly (closeAll l') Q m fds :=
  SharedStateAsync.secure_closeAll h.tracked (fun fd hfd => (h.available fd (hl hfd)).2) hQ

/-- A pipe of a command gets an object. -/
lemma Handed.secure_adoptPipe {β : Type} (h : Handed m fds (fd :: l)) {tPac : ObjId}
    {f : Option ObjId → AsyncFd → AsyncFd} (hmFD : ∀ p o, (f p o).mFD = o.mFD)
    (hmProcessId : ∀ p o, (f p o).mProcessId = o.mProcessId)
    (hf : ∀ p o x, (f p o).HasPipe x → o.HasPipe x ∨ p = some x) {k : Io D β}
    {Q : β → Process D → Finset ℤ → Prop}
    (hk : ∀ m', Handed m' fds l → secure fdAnswers Tracked Process.Orderly k Q m' fds) :
    secure fdAnswers Tracked Process.Orderly (do
      let p ← registerFD fd
      modifyObject tPac (f p)
      p.forM attach
      k) Q m fds := by
  rw [secure_bind]
  refine secure_registerFD h.tracked (h.available fd List.mem_cons_self) nofun ?_
  have h' := h.register
  have ho : ((m.register fd).setObject tPac
      (f (some m.nextObject) ((m.register fd).objects tPac))).Orderly := by
    refine h'.tracked.orderly.setPipes (hmFD _ _) (hmProcessId _ _) fun x hx => ?_
    rcases hf _ _ x hx with hx | hx
    · exact h'.tracked.orderly.pipes tPac x hx
    · obtain rfl := Option.some.inj hx
      rw [m.register_objects_self]
      exact ⟨Nat.lt_succ_self _, rfl⟩
  rw [secure_bind]
  refine secure_modifyObject ho ?_
  rw [secure_bind]
  exact secure_attach (hk _ (h'.setObject ho))

/-- The objects of a command are made. -/
lemma Handed.secure_adoptChild {pid childWaitFD parentRead parentWrite : ℤ}
    (h : Handed m fds (childWaitFD :: parentRead :: parentWrite :: l))
    {Q : Option ObjId → Process D → Finset ℤ → Prop}
    (hQ : ∀ r m', Handed m' fds l → Q r m' fds) :
    secure fdAnswers Tracked Process.Orderly (adoptChild pid childWaitFD parentRead parentWrite) Q
      m fds := by
  have hfd := h.available childWaitFD List.mem_cons_self
  have hadopt := h.tracked.orderly.adopt (h.tracked.nonneg _ hfd.1) hfd.2 pid
  rw [adoptChild, secure_bind]
  refine secure_registerFD h.tracked hfd nofun ?_
  rw [secure_bind]
  refine secure_attach ?_
  rw [secure_bind]
  refine secure_modifyObject hadopt ?_
  refine (h.register.setObject hadopt).secure_adoptPipe (f := fun p o => { o with mStdOut := p })
    (fun _ _ => rfl) (fun _ _ => rfl) ?_ fun m₁ h₁ => ?_
  · exact fun p o x hx => hx.elim (fun hx => .inl (.inl hx)) .inr
  refine h₁.secure_adoptPipe (f := fun p o => { o with mStdIn := p }) (fun _ _ => rfl)
    (fun _ _ => rfl) ?_ fun m₂ h₂ => ?_
  · exact fun p o x hx => hx.elim .inr fun hx => .inl (.inr hx)
  exact hQ _ m₂ h₂

/-- **Starting a command.** -/
theorem secure_execute {cmd : StdString} (h : Tracked m fds) :
    secure fdAnswers Tracked Process.Orderly (execute cmd errbub) (fun _ => Tracked) m fds := by
  have hfail : ∀ {c fds}, Tracked m fds → secure fdAnswers Tracked Process.Orderly (do
      rs_error_bubble_or_exit c errbub
      pure none : Io D (Option ObjId)) (fun _ => Tracked) m fds := by
    intro c fds h
    rw [secure_bind]
    exact secure_bubble h
  rw [execute, secure_bind, secure_call]
  intro fds₁ open₁ hopen₁
  have h₁ := h.handed.opened rfl hopen₁
  cases fds₁ with
  | error e => exact hfail h₁.tracked
  | ok parentToChild =>
  rw [secure_bind, secure_call]
  intro fds₂ open₂ hopen₂
  have h₂ := h₁.opened rfl hopen₂
  cases fds₂ with
  | error e =>
      rw [secure_bind]
      exact h₂.secure_closeAll (by simp [Step.opens]) fun _ => hfail
  | ok childToParent =>
  rw [secure_bind]
  refine secure_quiet (fun _ => rfl) (fun _ => rfl) fun pid => ?_
  cases pid with
  | error e =>
      rw [secure_bind]
      exact h₂.secure_closeAll (by simp [Step.opens]) fun _ => hfail
  | ok pid =>
  rw [secure_bind, secure_call]
  intro childWaitFD open₃ hopen₃
  have h₃ := h₂.opened rfl hopen₃
  cases childWaitFD with
  | error e =>
      rw [secure_bind]
      refine h₃.secure_closeAll (by simp [Step.opens]) fun fds' h' => ?_
      rw [secure_bind]
      exact secure_quiet (fun _ => rfl) (fun _ => rfl) fun _ => hfail h'
  | ok childWaitFD =>
  -- the two ends the parent keeps, before those of the child
  have hperm : [childWaitFD, childToParent.1, childToParent.2, parentToChild.1,
      parentToChild.2].Perm [childWaitFD, childToParent.1, parentToChild.2, childToParent.2,
      parentToChild.1] :=
    .cons _ (.cons _ (List.perm_append_comm :
      ([childToParent.2, parentToChild.1] ++ [parentToChild.2]).Perm _))
  rw [secure_bind]
  refine (h₃.perm hperm).secure_adoptChild fun tPac m' h' => ?_
  rw [secure_bind]
  exact h'.secure_closeAll (by simp) fun _ h'' => h''

end Handed

/-- **Every coroutine** keeps the table in order. -/
theorem secure_body {job : FdJob} (h : Tracked m fds) (hadmits : job.admits m fds) :
    secure fdAnswers Tracked Process.Orderly job.body (fun _ => Tracked) m fds := by
  cases job with
  | registerFD fd errbub =>
      have hfd : Available m fds fd := of_decide_eq_true hadmits
      rw [FdJob.body, secure_bind]
      exact secure_registerFD h hfd (fun _ => h) (h.register hfd)
  | closeAFD aFD errbub =>
      rw [FdJob.body, secure_bind]
      refine secure_closeAFD h ?_
      rintro id rfl
      exact beq_iff_eq.mp hadmits
  | closeStdIn pac errbub =>
      rw [FdJob.body, secure_bind]
      exact secure_closeStdIn h
  | closeStdOut pac errbub =>
      rw [FdJob.body, secure_bind]
      exact secure_closeStdOut h
  | closeCommand pac errbub =>
      rw [FdJob.body, secure_bind]
      exact secure_closeCommand h
  | execute cmd errbub =>
      rw [FdJob.body, secure_bind]
      exact secure_execute h
  | waitTermination pac errbub =>
      rw [FdJob.body, secure_bind]
      exact secure_waitTermination h

end Operations

/-! ### Runs -/

lemma tracked_empty (shared : SharedState D) : Tracked { shared := shared } ∅ :=
  ⟨Process.orderly_empty shared, fun fd id hid => by simp at hid, fun fd hfd => by simp at hfd⟩

/-- Others only open numbers, and close numbers without objects. -/
lemma Tracked.outside {m : Process D} {fds fds' : Finset ℤ} (h : Tracked m fds) {e : FdEvent}
    (he : e.run m fds = some fds') : Tracked m fds' := by
  cases e with
  | opened fd =>
      rw [FdEvent.run, Option.ite_none_right_eq_some, Option.some_inj] at he
      obtain ⟨⟨hpos, -⟩, rfl⟩ := he
      rw [← Finset.union_singleton]
      exact h.union fun fd' hfd' => Finset.mem_singleton.mp hfd' ▸ hpos
  | closed fd =>
      rw [FdEvent.run, Option.ite_none_right_eq_some, Option.some_inj] at he
      obtain ⟨hfd, rfl⟩ := he
      exact h.erase hfd

/-- **No destructor fails.** Whatever the calls return and in whatever order the coroutines run, as
long as the kernel hands out numbers that are not open: throughout a run every number in the table
leads to the object that has it, no object is under two numbers, and an object the table does not
have is closed and, if it is a command, has no child to wait for. -/
theorem throughout_destructible (shared : SharedState D)
    (evs : List (KernelEvent SysCall Ans FdJob FdEvent)) :
    Machine.Throughout (KernelPool.step FdJob.body fdKernel) (fun s => s.pool.mem.Destructible)
      ⟨{ mem := { shared := shared } }, ∅⟩ evs := by
  have hrun : Machine.Throughout (KernelPool.step FdJob.body fdKernel)
      (fun s => s.pool.mem.Orderly) ⟨{ mem := { shared := shared } }, ∅⟩ evs :=
    throughout_of_secure (I := Tracked) (J := Process.Orderly) (K := fdKernel)
      (fun _ _ h => h.orderly) (fun _ _ _ h hadmits => secure_body h hadmits)
      (fun _ _ _ _ h he => h.outside he) (tracked_empty shared) evs
  exact fun pre hpre => (hrun pre hpre).destructible

/-- Calls succeed, and new descriptors have the numbers `fd` and `fd + 1`. -/
def handsOut (fd : ℤ) : (c : SysCall) → Ans c
  | .pipe => .ok (fd, fd + 1)
  | .pidfdOpen _ => .ok fd
  | c => quietAnswer c

/-- A command is started: it and the ends of its pipes that the parent keeps are in the table. -/
example :
    let s := Machine.run (KernelPool.step FdJob.body fdKernel)
      ⟨{ mem := { shared := (⟨∅, ∅, false⟩ : SharedState Unit) } }, ∅⟩
      (.spawn 0 (.execute [] .storage) :: .advance (handsOut 3) :: .advance (handsOut 5) ::
        List.replicate 40 (.advance (handsOut 7)))
    s.pool.mem.mManagedFD.toList = [(4, 2), (5, 1), (7, 0)] := by
  decide +kernel

end SharedStateAsync
