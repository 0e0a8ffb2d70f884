/-
The descriptors of a command that has ended (`src/async_command.cc`).

`waitTermination` waits for the process and closes its three descriptors, standard input first,
then standard output, then the one it was waited for with. It stops at the first that fails,
although a descriptor is gone from the table whether its close has failed or not.

* `waitpidAnswers`, `closeAnswers`: what the system answers along a run;
* `ChildProcess`, `ChildProcess.At`: a command, and the memory it is in;
* `adoptChild_running`: the memory `execute` leaves it in;
* `wp_closeAFD_open`, `wp_closeAFD_gone`: closing, whatever is answered;
* `Prepared`: a command whose standard input may have been closed before;
* `closeCommand_unmanaged_iff`, `descriptors_released_iff`: when none of its descriptors remains.
-/
import SharedStateAsync.Io.CommandSafety

namespace SharedStateAsync

open Coro

variable {D : Type}

/-! ### What the system answers -/

/-- The result of a `waitpid`. -/
def Step.waitpidAnswer : Step D → List (Except Errno ℤ)
  | .called _ (.waitpid _) r => [r]
  | _ => []

/-- The descriptor of a `close`, with the result. -/
def Step.closeAnswer : Step D → List (ℤ × Except Errno Unit)
  | .called _ (.close fd) r => [(fd, r)]
  | _ => []

/-- The results of `waitpid` along a run. -/
def waitpidAnswers (t : Trace D) : List (Except Errno ℤ) := t.flatMap Step.waitpidAnswer

/-- The results of `close` along a run. -/
def closeAnswers (t : Trace D) : List (ℤ × Except Errno Unit) := t.flatMap Step.closeAnswer

/-- From `t` to `t'` the system has answered `waits` and `closes`. -/
structure Answered (t t' : Trace D) (waits : List (Except Errno ℤ))
    (closes : List (ℤ × Except Errno Unit)) : Prop where
  waitpid_eq : waitpidAnswers t' = waitpidAnswers t ++ waits
  close_eq : closeAnswers t' = closeAnswers t ++ closes

namespace Answered

variable {t t' t'' : Trace D} {waits waits' : List (Except Errno ℤ)}
  {closes closes' : List (ℤ × Except Errno Unit)}

protected lemma refl (t : Trace D) : Answered t t [] [] :=
  ⟨(List.append_nil _).symm, (List.append_nil _).symm⟩

protected lemma trans (h : Answered t t' waits closes) (h' : Answered t' t'' waits' closes') :
    Answered t t'' (waits ++ waits') (closes ++ closes') := by
  refine ⟨?_, ?_⟩
  · rw [h'.waitpid_eq, h.waitpid_eq, List.append_assoc]
  · rw [h'.close_eq, h.close_eq, List.append_assoc]

lemma concat (t : Trace D) (i : Step D) : Answered t (t ++ [i]) i.waitpidAnswer i.closeAnswer := by
  refine ⟨?_, ?_⟩
  · simp [waitpidAnswers]
  · simp [closeAnswers]

/-- A step that is neither of the two calls. -/
lemma quiet (t : Trace D) (i : Step D) (hwait : i.waitpidAnswer = [])
    (hclose : i.closeAnswer = []) : Answered t (t ++ [i]) [] [] := by
  have h := concat t i
  rwa [hwait, hclose] at h

/-- Without a `waitpid` in between. -/
lemma waitpid_same (h : Answered t t' [] closes) : waitpidAnswers t' = waitpidAnswers t := by
  rw [h.waitpid_eq, List.append_nil]

end Answered

/-! ### A command -/

/-- The process of a command, the objects of its three descriptors, and their numbers. -/
structure ChildProcess where
  pid : ℤ
  pac : ObjId
  mStdIn : ObjId
  mStdOut : ObjId
  childWaitFD : ℤ
  parentWrite : ℤ
  parentRead : ℤ
  pid_pos : 0 < pid
  objects_nodup : [pac, mStdIn, mStdOut].Nodup
  fds_nodup : [childWaitFD, parentWrite, parentRead].Nodup
  childWaitFD_nonneg : 0 ≤ childWaitFD
  parentWrite_nonneg : 0 ≤ parentWrite
  parentRead_nonneg : 0 ≤ parentRead

namespace ChildProcess

variable (c : ChildProcess)

/-- The three objects. -/
def objIds : List ObjId := [c.pac, c.mStdIn, c.mStdOut]

/-- The command is in the memory: what it holds of its standard input is as given, and the rest is
as it was started. -/
structure At (stdIn : Option ObjId) (inFD : ℤ) (m : Process D) : Prop where
  tableOk : m.TableOk
  lt : ∀ id ∈ c.objIds, id < m.nextObject
  object_eq : m.objects c.pac
    = { mFD := c.childWaitFD, mProcessId := c.pid, mStdOut := some c.mStdOut, mStdIn := stdIn }
  inFD_eq : (m.objects c.mStdIn).mFD = inFD
  outFD_eq : (m.objects c.mStdOut).mFD = c.parentRead

/-- Nothing has been closed yet. -/
abbrev Running (m : Process D) : Prop := c.At (some c.mStdIn) c.parentWrite m

/-- None of the three objects is in the table. -/
def Unmanaged (m : Process D) : Prop := ∀ id ∈ c.objIds, ∀ fd : ℤ, m.mManagedFD[fd]? ≠ some id

lemma pac_mem : c.pac ∈ c.objIds := List.mem_cons_self

lemma mStdIn_mem : c.mStdIn ∈ c.objIds := List.mem_cons_of_mem _ List.mem_cons_self

lemma mStdOut_mem : c.mStdOut ∈ c.objIds :=
  List.mem_cons_of_mem _ (List.mem_cons_of_mem _ List.mem_cons_self)

lemma objects_ne : c.pac ≠ c.mStdIn ∧ c.pac ≠ c.mStdOut ∧ c.mStdIn ≠ c.mStdOut := by
  have h := c.objects_nodup
  simp only [List.nodup_cons, List.mem_cons, List.not_mem_nil, or_false, not_or] at h
  exact ⟨h.1.1, h.1.2, h.2.1⟩

lemma fds_ne : c.childWaitFD ≠ c.parentWrite ∧ c.childWaitFD ≠ c.parentRead ∧
    c.parentWrite ≠ c.parentRead := by
  have h := c.fds_nodup
  simp only [List.nodup_cons, List.mem_cons, List.not_mem_nil, or_false, not_or] at h
  exact ⟨h.1.1, h.1.2, h.2.1⟩

/-- A closed object is not in the table. -/
lemma unmanaged_of_closed {m : Process D} (hm : m.TableOk)
    (h : ∀ id ∈ c.objIds, (m.objects id).mFD = -1) : c.Unmanaged m := by
  intro id hid fd hmanaged
  obtain ⟨-, hfd, hpos⟩ := (hm.managed_iff fd id).mp hmanaged
  rw [h id hid] at hfd
  omega

/-- An open one is. -/
lemma not_unmanaged_of_open {m : Process D} (hm : m.TableOk) {id : ObjId} (hid : id ∈ c.objIds)
    (hlt : id < m.nextObject) (hpos : 0 ≤ (m.objects id).mFD) : ¬ c.Unmanaged m :=
  fun h => h id hid _ (hm.managed hlt hpos)

end ChildProcess

/-! ### How a command is started -/

section Start

variable {m : Process D} {t : Trace D} {pid childWaitFD parentRead parentWrite : ℤ}

/-- The memory after `adoptChild`. -/
def withChild (m : Process D) (pid childWaitFD parentRead parentWrite : ℤ) : Process D :=
  let tPac := m.nextObject
  let m₁ := m.register childWaitFD
  let m₂ := m₁.setObject tPac { m₁.objects tPac with mProcessId := pid }
  let m₃ := m₂.register parentRead
  let m₄ := m₃.setObject tPac { m₃.objects tPac with mStdOut := some m₂.nextObject }
  let m₅ := m₄.register parentWrite
  m₅.setObject tPac { m₅.objects tPac with mStdIn := some m₄.nextObject }

/-- A descriptor is registered, or the process ends. -/
lemma wp_registerFD_then {R : Rely SysCall Ans (Process D) Mark} {fd : ℤ}
    {Q : Option ObjId → Process D → Trace D → Prop}
    (hQ : ∀ t', Q (some m.nextObject) (m.register fd) t') :
    wp R (fun _ _ => True) (registerFD fd) Q m t := by
  rw [registerFD, wp_bind, wp_call]
  intro flags _
  cases flags with
  | error e => trivial
  | ok flags =>
      rw [wp_bind, wp_call]
      intro r _
      cases r with
      | error e => trivial
      | ok _ => exact hQ _

/-- Attaching changes nothing. -/
lemma wp_attach_then {R : Rely SysCall Ans (Process D) Mark} {id : ObjId}
    {Q : Unit → Process D → Trace D → Prop} (hQ : ∀ t', Q () m t') :
    wp R (fun _ _ => True) (attach id) Q m t :=
  fun _ _ => hQ _

lemma wp_adoptChild_memory {R : Rely SysCall Ans (Process D) Mark} :
    wp R (fun _ _ => True) (adoptChild pid childWaitFD parentRead parentWrite)
      (fun r m' _ => r = some m.nextObject ∧
        m' = withChild m pid childWaitFD parentRead parentWrite) m t := by
  rw [adoptChild, wp_bind]
  refine wp_registerFD_then fun t₁ => ?_
  rw [wp_bind]
  refine wp_attach_then fun t₂ => ?_
  rw [wp_bind, wp_modifyObject, wp_bind]
  refine wp_registerFD_then fun t₃ => ?_
  rw [wp_bind, wp_modifyObject, wp_bind]
  refine wp_attach_then fun t₄ => ?_
  rw [wp_bind]
  refine wp_registerFD_then fun t₅ => ?_
  rw [wp_bind, wp_modifyObject, wp_bind]
  refine wp_attach_then fun t₆ => ?_
  exact ⟨rfl, rfl⟩

/-- What a new command is given: its process, and three new descriptors. -/
structure FreshChild (m : Process D) (pid childWaitFD parentRead parentWrite : ℤ) : Prop where
  pid_pos : 0 < pid
  fds_nodup : [childWaitFD, parentWrite, parentRead].Nodup
  childWaitFD_nonneg : 0 ≤ childWaitFD
  parentWrite_nonneg : 0 ≤ parentWrite
  parentRead_nonneg : 0 ≤ parentRead
  childWaitFD_free : m.mManagedFD[childWaitFD]? = none
  parentWrite_free : m.mManagedFD[parentWrite]? = none
  parentRead_free : m.mManagedFD[parentRead]? = none

lemma newObjects_nodup (n : ObjId) : [n, n + 2, n + 1].Nodup := by
  simp

/-- A new command. -/
def newChild (h : FreshChild m pid childWaitFD parentRead parentWrite) : ChildProcess where
  pid := pid
  pac := m.nextObject
  mStdIn := m.nextObject + 2
  mStdOut := m.nextObject + 1
  childWaitFD := childWaitFD
  parentWrite := parentWrite
  parentRead := parentRead
  pid_pos := h.pid_pos
  objects_nodup := newObjects_nodup m.nextObject
  fds_nodup := h.fds_nodup
  childWaitFD_nonneg := h.childWaitFD_nonneg
  parentWrite_nonneg := h.parentWrite_nonneg
  parentRead_nonneg := h.parentRead_nonneg

/-- A change that leaves the descriptor alone. -/
lemma tableOk_modify (id : ObjId) {f : AsyncFd → AsyncFd} (hf : ∀ o, (f o).mFD = o.mFD)
    (hm : m.TableOk) : (m.setObject id (f (m.objects id))).TableOk :=
  tableOk_setObject hm (hf _)

lemma withChild_tableOk (hm : m.TableOk)
    (h : FreshChild m pid childWaitFD parentRead parentWrite) :
    (withChild m pid childWaitFD parentRead parentWrite).TableOk := by
  obtain ⟨hne₁, hne₂, hne₃⟩ := (newChild h).fds_ne
  have hwait := tableOk_modify m.nextObject (f := fun o => { o with mProcessId := pid })
    (fun _ => rfl) (tableOk_register hm h.childWaitFD_nonneg h.childWaitFD_free)
  have hread := tableOk_modify m.nextObject
    (f := fun o => { o with mStdOut := some (m.nextObject + 1) }) (fun _ => rfl)
    (tableOk_register hwait h.parentRead_nonneg
      ((m.register_getElem? hne₂).trans h.parentRead_free))
  have hfree : (m.register childWaitFD).mManagedFD[parentWrite]? = none :=
    (m.register_getElem? hne₁).trans h.parentWrite_free
  exact tableOk_modify m.nextObject
    (f := fun o => { o with mStdIn := some (m.nextObject + 2) }) (fun _ => rfl)
    (tableOk_register hread h.parentWrite_nonneg
      ((Process.register_getElem? _ hne₃.symm).trans hfree))

/-- It runs, with nothing closed. -/
lemma newChild_running (hm : m.TableOk)
    (h : FreshChild m pid childWaitFD parentRead parentWrite) :
    (newChild h).Running (withChild m pid childWaitFD parentRead parentWrite) := by
  have hne₁ : m.nextObject ≠ m.nextObject + 1 := Nat.ne_of_lt (Nat.lt_succ_self _)
  have hne₂ : m.nextObject ≠ m.nextObject + 1 + 1 := Nat.ne_of_lt (Nat.lt_add_of_pos_right two_pos)
  have hne₃ : m.nextObject + 1 ≠ m.nextObject + 1 + 1 := Nat.ne_of_lt (Nat.lt_succ_self _)
  refine ⟨withChild_tableOk hm h, ?_, ?_, ?_, ?_⟩
  · intro id hid
    simp only [ChildProcess.objIds, newChild, List.mem_cons, List.not_mem_nil, or_false] at hid
    rcases hid with rfl | rfl | rfl
    · exact Nat.lt_add_of_pos_right three_pos
    · exact Nat.lt_succ_self _
    · exact Nat.lt_succ_of_lt (Nat.lt_succ_self _)
  · simp only [withChild, newChild, Process.setObject, Process.register, Function.update_self,
      Function.update_of_ne hne₁, Function.update_of_ne hne₂]
  · simp only [withChild, newChild, Process.setObject, Process.register, Function.update_self,
      Function.update_of_ne hne₂.symm]
  · simp only [withChild, newChild, Process.setObject, Process.register, Function.update_self,
      Function.update_of_ne hne₁.symm, Function.update_of_ne hne₃]

/-- **A command as `execute` leaves it** runs, with nothing closed, whatever the system answers. -/
theorem adoptChild_running {R : Rely SysCall Ans (Process D) Mark} (hm : m.TableOk)
    (h : FreshChild m pid childWaitFD parentRead parentWrite) :
    wp R (fun _ _ => True) (adoptChild pid childWaitFD parentRead parentWrite)
      (fun r m' _ => r = some (newChild h).pac ∧ (newChild h).Running m') m t := by
  refine wp_mono wp_adoptChild_memory ?_
  rintro r m' t' ⟨rfl, rfl⟩
  exact ⟨rfl, newChild_running hm h⟩

end Start

/-! ### Closing, whatever is answered -/

/-- The close counts as done. -/
def closeDone (r : Except Errno Unit) : Bool := r.isOk || shouldWait r

section Close

variable {R : Rely SysCall Ans (Process D) Mark} {m : Process D} {t : Trace D} {errbub : ErrBub}

/-- Storing an error, or ending the process. -/
lemma wp_bubble_then {c : ErrorCondition} {Q : Unit → Process D → Trace D → Prop}
    (hQ : ∀ t', Answered t t' [] [] → Q () m t') :
    wp R (fun _ _ => True) (rs_error_bubble_or_exit c errbub) Q m t := by
  cases errbub with
  | null => trivial
  | storage => exact hQ _ (Answered.quiet t _ rfl rfl)

lemma wp_report_then {α : Type} {r : Except Errno α} {Q : Unit → Process D → Trace D → Prop}
    (hQ : ∀ t', Answered t t' [] [] → Q () m t') :
    wp R (fun _ _ => True) (reportError errbub r) Q m t := by
  cases r with
  | ok a => exact hQ t (Answered.refl t)
  | error e => exact wp_bubble_then hQ

/-- What is not in the table is not closed. -/
lemma wp_closeAFD_gone {aFD : Option ObjId} {Q : Bool → Process D → Trace D → Prop}
    (hgone : ∀ id, aFD = some id → m.mManagedFD[(m.objects id).mFD]? = none)
    (hQ : ∀ t', Answered t t' [] [] → Q false m t') :
    wp R (fun _ _ => True) (closeAFD aFD errbub) Q m t := by
  cases aFD with
  | none => exact (wp_bind _ _).mpr (wp_bubble_then hQ)
  | some id =>
      rw [closeAFD, wp_bind, wp_memory]
      simp only [hgone id rfl]
      exact (wp_bind _ _).mpr (wp_bubble_then hQ)

/-- The result of an awaited close, which never waits. -/
lemma wp_await_close {fd : ℤ} {Q : Except Errno Unit → Process D → Trace D → Prop}
    (hQ : ∀ r r' t', r'.isOk = closeDone r → Answered t t' [] [(fd, r)] → Q r' m t') :
    wp R (fun _ _ => True) (awaitSyscall false .storage fun _ => closeSyscall fd) Q m t := by
  rw [awaitSyscall, wp_bind, closeSyscall, wp_bind, wp_call]
  intro r _
  have hanswer : Answered t (t ++ [.called m (.close fd) r]) [] [(fd, r)] := Answered.concat t _
  rw [wp_pure]
  by_cases hwait : shouldWait r
  · rw [if_pos hwait]
    exact hQ r (.ok ()) _ (by rw [closeDone, hwait, Bool.or_true]; rfl) hanswer
  · rw [if_neg hwait, if_neg hwait, wp_bind]
    refine wp_report_then fun t' ht' => hQ r r t' ?_ (hanswer.trans ht')
    rw [closeDone, Bool.eq_false_iff.mpr hwait, Bool.or_false]

/-- **An open object is released** whatever the system answers, unless the process ends. -/
theorem wp_closeAFD_open {id : ObjId} {Q : Bool → Process D → Trace D → Prop} (hm : m.TableOk)
    (hid : id < m.nextObject) (hpos : 0 ≤ (m.objects id).mFD)
    (hQ : ∀ r t', Answered t t' [] [((m.objects id).mFD, r)] →
      Q (closeDone r) (m.release id (m.objects id).mFD) t') :
    wp R (fun _ _ => True) (closeAFD (some id) errbub) Q m t := by
  rw [closeAFD, wp_bind, wp_memory]
  simp only [hm.managed hid hpos, ne_eq, not_true_eq_false, if_false]
  rw [wp_bind, wp_call]
  intro unsubscribed _
  cases unsubscribed with
  | error e => trivial
  | ok _ =>
      have hquiet : Answered t _ [] [] :=
        Answered.quiet t (.called m (.epollDel (m.objects id).mFD) (.ok ())) rfl rfl
      rw [wp_bind]
      refine wp_await_close fun r r' t₁ hr' ht₁ => ?_
      rw [wp_bind]
      refine wp_report_then fun t₂ ht₂ => ?_
      have hall := (hquiet.trans ht₁).trans ht₂
      have hQ' := hQ r t₂ hall
      rw [← hr'] at hQ'
      exact hQ'

end Close

/-! ### Standard input -/

namespace ChildProcess

variable {c : ChildProcess} {m m' : Process D} {t t' : Trace D} {stdIn : Option ObjId} {inFD : ℤ}

/-- What the other coroutines do while the one that owns the command is suspended: they keep the
table in order and leave the objects of the command alone. -/
structure LeftAlone (c : ChildProcess) (m m' : Process D) : Prop where
  tableOk : m.TableOk → m'.TableOk
  nextObject_le : m.nextObject ≤ m'.nextObject
  objects_eq : ∀ id ∈ c.objIds, m'.objects id = m.objects id

/-- The rely condition of the coroutine that owns the command. -/
def OthersLeave (c : ChildProcess) : Rely SysCall Ans (Process D) Mark
  | _, .resumed m m' => c.LeftAlone m m'
  | _, _ => True

lemma At.others (h : c.At stdIn inFD m) (hm : c.LeftAlone m m') : c.At stdIn inFD m' where
  tableOk := hm.tableOk h.tableOk
  lt := fun id hid => (h.lt id hid).trans_le hm.nextObject_le
  object_eq := (hm.objects_eq _ c.pac_mem).trans h.object_eq
  inFD_eq := by rw [hm.objects_eq _ c.mStdIn_mem, h.inFD_eq]
  outFD_eq := by rw [hm.objects_eq _ c.mStdOut_mem, h.outFD_eq]

/-- The descriptor of standard input has been closed. -/
lemma At.release_mStdIn (h : c.Running m) :
    c.At (some c.mStdIn) (-1) (m.release c.mStdIn c.parentWrite) where
  tableOk := h.tableOk.release (h.lt _ c.mStdIn_mem) h.inFD_eq c.parentWrite_nonneg
  lt := h.lt
  object_eq := (m.release_objects_of_ne _ c.objects_ne.1 _).trans h.object_eq
  inFD_eq := by rw [m.release_objects_self]
  outFD_eq := by rw [m.release_objects_of_ne _ c.objects_ne.2.2.symm, h.outFD_eq]

/-- And the command has forgotten it. -/
lemma At.forget_mStdIn (h : c.At stdIn inFD m) :
    c.At none inFD (m.setObject c.pac { m.objects c.pac with mStdIn := none }) where
  tableOk := tableOk_setObject h.tableOk rfl
  lt := h.lt
  object_eq := by rw [m.setObject_objects_self, h.object_eq]
  inFD_eq := by rw [m.setObject_objects_of_ne _ c.objects_ne.1.symm, h.inFD_eq]
  outFD_eq := by rw [m.setObject_objects_of_ne _ c.objects_ne.2.1.symm, h.outFD_eq]

/-- Nothing is found under the descriptor of a closed object. -/
lemma At.gone (h : c.At stdIn (-1) m) : m.mManagedFD[(m.objects c.mStdIn).mFD]? = none := by
  rw [h.inFD_eq]
  cases hfind : m.mManagedFD[(-1 : ℤ)]? with
  | none => rfl
  | some id => exact absurd ((h.tableOk.managed_iff _ _).mp hfind).2.2 (by omega)

/-- Whatever close of its standard input and of its standard output there was is done. -/
def PipesClosed (c : ChildProcess) (t : Trace D) : Prop :=
  ∀ p ∈ closeAnswers t, p.1 = c.parentWrite ∨ p.1 = c.parentRead → closeDone p.2

lemma pipesClosed_of_quiet {waits : List (Except Errno ℤ)} (h : Answered t t' waits []) :
    c.PipesClosed t' ↔ c.PipesClosed t := by
  rw [PipesClosed, PipesClosed, h.close_eq, List.append_nil]

/-- One more close. -/
lemma pipesClosed_of_close {fd : ℤ} {r : Except Errno Unit} (h : Answered t t' [] [(fd, r)]) :
    c.PipesClosed t' ↔
      c.PipesClosed t ∧ (fd = c.parentWrite ∨ fd = c.parentRead → closeDone r) := by
  rw [PipesClosed, PipesClosed, h.close_eq]
  simp only [List.mem_append, List.mem_singleton]
  constructor
  · exact fun hall => ⟨fun p hp => hall p (Or.inl hp), hall (fd, r) (Or.inr rfl)⟩
  · rintro ⟨hbefore, hlast⟩ p (hp | rfl)
    · exact hbefore p hp
    · exact hlast

/-- The close of a pipe. -/
lemma pipesClosed_of_pipe {fd : ℤ} {r : Except Errno Unit} (h : Answered t t' [] [(fd, r)])
    (hfd : fd = c.parentWrite ∨ fd = c.parentRead) (hpipes : c.PipesClosed t) :
    c.PipesClosed t' ↔ closeDone r = true := by
  rw [pipesClosed_of_close h]
  exact ⟨fun hc => hc.2 hfd, fun hdone => ⟨hpipes, fun _ => hdone⟩⟩

/-- After the standard input was closed: it is forgotten, or the close has failed. -/
def InputClosed (c : ChildProcess) (m : Process D) (t : Trace D) : Bool → Prop
  | true => c.At none (-1) m ∧ c.PipesClosed t
  | false => c.At (some c.mStdIn) (-1) m ∧ ¬ c.PipesClosed t

/-- The command runs, and nothing or its standard input was closed. -/
inductive Prepared (c : ChildProcess) (m : Process D) (t : Trace D) : Prop where
  | untouched (hat : c.Running m) (hpipes : c.PipesClosed t)
  | tried (closed : Bool) (h : c.InputClosed m t closed)

lemma InputClosed.quiet {closed : Bool} {waits : List (Except Errno ℤ)}
    (h : c.InputClosed m t closed) (ht : Answered t t' waits []) : c.InputClosed m t' closed := by
  cases closed with
  | true => exact ⟨h.1, (pipesClosed_of_quiet ht).mpr h.2⟩
  | false => exact ⟨h.1, fun hc => h.2 ((pipesClosed_of_quiet ht).mp hc)⟩

lemma Prepared.quiet {waits : List (Except Errno ℤ)} (h : c.Prepared m t)
    (ht : Answered t t' waits []) : c.Prepared m t' := by
  cases h with
  | untouched hat hpipes => exact .untouched hat ((pipesClosed_of_quiet ht).mpr hpipes)
  | tried closed h => exact .tried closed (h.quiet ht)

lemma Prepared.others (h : c.Prepared m t) (hm : c.LeftAlone m m') : c.Prepared m' t := by
  cases h with
  | untouched hat hpipes => exact .untouched (hat.others hm) hpipes
  | tried closed h =>
      refine .tried closed ?_
      cases closed with
      | true => exact ⟨h.1.others hm, h.2⟩
      | false => exact ⟨h.1.others hm, h.2⟩

section Close

variable {R : Rely SysCall Ans (Process D) Mark} {errbub : ErrBub}

/-- Closing the standard input of a command that has it. -/
lemma wp_closeStdIn_open (h : c.Running m) (hpipes : c.PipesClosed t) :
    wp R (fun _ _ => True) (closeStdIn c.pac errbub)
      (fun closed m' t' => c.InputClosed m' t' closed ∧ waitpidAnswers t' = waitpidAnswers t)
      m t := by
  have hstdIn : (m.objects c.pac).mStdIn = some c.mStdIn := by rw [h.object_eq]
  rw [closeStdIn, wp_bind, wp_memory, hstdIn, wp_bind]
  refine wp_closeAFD_open h.tableOk (h.lt _ c.mStdIn_mem) (h.inFD_eq ▸ c.parentWrite_nonneg)
    fun r t' ht' => ?_
  rw [h.inFD_eq] at ht' ⊢
  have hreleased := h.release_mStdIn
  have hclosed := pipesClosed_of_pipe ht' (Or.inl rfl) hpipes
  cases hdone : closeDone r with
  | true => exact ⟨⟨hreleased.forget_mStdIn, hclosed.mpr hdone⟩, ht'.waitpid_same⟩
  | false =>
      refine ⟨⟨hreleased, fun hc => ?_⟩, ht'.waitpid_same⟩
      exact absurd (hclosed.mp hc) (by rw [hdone]; exact Bool.false_ne_true)

/-- Closing it again changes nothing. -/
lemma wp_closeStdIn_again {tried : Bool} (h : c.InputClosed m t tried) :
    wp R (fun _ _ => True) (closeStdIn c.pac errbub)
      (fun closed m' t' => closed = false ∧ c.InputClosed m' t' tried ∧
        waitpidAnswers t' = waitpidAnswers t) m t := by
  rw [closeStdIn, wp_bind, wp_memory, wp_bind]
  refine wp_closeAFD_gone (fun id hid => ?_) fun t' ht' => ⟨rfl, h.quiet ht', ht'.waitpid_same⟩
  cases tried with
  | true =>
      rw [h.1.object_eq] at hid
      cases hid
  | false =>
      rw [h.1.object_eq] at hid
      obtain rfl := Option.some.inj hid
      exact h.1.gone

/-- **Closing the standard input** of a command before it is waited for. -/
theorem closeStdIn_prepared (h : c.Prepared m t) :
    wp R (fun _ _ => True) (closeStdIn c.pac errbub)
      (fun _ m' t' => c.Prepared m' t' ∧ waitpidAnswers t' = waitpidAnswers t) m t := by
  cases h with
  | untouched hat hpipes =>
      exact wp_mono (wp_closeStdIn_open hat hpipes) fun closed _ _ h => ⟨.tried closed h.1, h.2⟩
  | tried closed h =>
      exact wp_mono (wp_closeStdIn_again h) fun _ _ _ h => ⟨.tried closed h.2.1, h.2.2⟩

end Close

/-! ### The other two descriptors -/

/-- Both pipes are closed, and the descriptor the command is waited for with is open. -/
structure OutputClosed (c : ChildProcess) (m : Process D) : Prop where
  tableOk : m.TableOk
  lt : ∀ id ∈ c.objIds, id < m.nextObject
  waitFD_eq : (m.objects c.pac).mFD = c.childWaitFD
  inFD_eq : (m.objects c.mStdIn).mFD = -1
  outFD_eq : (m.objects c.mStdOut).mFD = -1

/-- The descriptor of standard output has been closed as well. -/
lemma At.release_mStdOut (h : c.At stdIn (-1) m) :
    c.OutputClosed (m.release c.mStdOut c.parentRead) where
  tableOk := h.tableOk.release (h.lt _ c.mStdOut_mem) h.outFD_eq c.parentRead_nonneg
  lt := h.lt
  waitFD_eq := by rw [m.release_objects_of_ne _ c.objects_ne.2.1, h.object_eq]
  inFD_eq := by rw [m.release_objects_of_ne _ c.objects_ne.2.2, h.inFD_eq]
  outFD_eq := by rw [m.release_objects_self]

/-- What else the command's object holds does not matter. -/
lemma OutputClosed.setObject (h : c.OutputClosed m) {o : AsyncFd}
    (ho : o.mFD = (m.objects c.pac).mFD) : c.OutputClosed (m.setObject c.pac o) where
  tableOk := tableOk_setObject h.tableOk ho
  lt := h.lt
  waitFD_eq := by rw [m.setObject_objects_self, ho, h.waitFD_eq]
  inFD_eq := by rw [m.setObject_objects_of_ne _ c.objects_ne.1.symm, h.inFD_eq]
  outFD_eq := by rw [m.setObject_objects_of_ne _ c.objects_ne.2.1.symm, h.outFD_eq]

/-- Once the last descriptor is closed, none is left in the table. -/
lemma OutputClosed.unmanaged_release (h : c.OutputClosed m) :
    c.Unmanaged (m.release c.pac c.childWaitFD) := by
  have hreleased := h.tableOk.release (h.lt _ c.pac_mem) h.waitFD_eq c.childWaitFD_nonneg
  refine c.unmanaged_of_closed hreleased fun id hid => ?_
  by_cases hpac : id = c.pac
  · rw [hpac, m.release_objects_self]
  · rw [m.release_objects_of_ne _ hpac]
    simp only [objIds, List.mem_cons, List.not_mem_nil, or_false] at hid
    rcases hid with hid | rfl | rfl
    · exact absurd hid hpac
    · exact h.inFD_eq
    · exact h.outFD_eq

/-- While its standard output or its wait descriptor is open, something is left. -/
lemma At.not_unmanaged (h : c.At stdIn inFD m) : ¬ c.Unmanaged m := by
  refine c.not_unmanaged_of_open h.tableOk c.pac_mem (h.lt _ c.pac_mem) ?_
  rw [h.object_eq]
  exact c.childWaitFD_nonneg

lemma OutputClosed.not_unmanaged (h : c.OutputClosed m) : ¬ c.Unmanaged m :=
  c.not_unmanaged_of_open h.tableOk c.pac_mem (h.lt _ c.pac_mem)
    (h.waitFD_eq ▸ c.childWaitFD_nonneg)

/-- Nothing is left in the table if and only if the pipes were closed without a failure, and
`waitpid` was not called in between. -/
def ClosedWhole (c : ChildProcess) (t : Trace D) (m' : Process D) (t' : Trace D) : Prop :=
  (c.Unmanaged m' ↔ c.PipesClosed t') ∧ waitpidAnswers t' = waitpidAnswers t

section Close

variable {R : Rely SysCall Ans (Process D) Mark} {errbub : ErrBub}

/-- The last descriptor is closed. -/
lemma wp_closePac (h : c.OutputClosed m) (hpipes : c.PipesClosed t) :
    wp R (fun _ _ => True) (closeAFD (some c.pac) errbub) (fun _ => c.ClosedWhole t) m t := by
  refine wp_closeAFD_open h.tableOk (h.lt _ c.pac_mem) (h.waitFD_eq ▸ c.childWaitFD_nonneg)
    fun r t' ht' => ?_
  rw [h.waitFD_eq] at ht' ⊢
  have hclosed : c.PipesClosed t' := by
    refine (pipesClosed_of_close ht').mpr ⟨hpipes, ?_⟩
    -- it is neither of the pipes
    rintro (heq | heq)
    · exact absurd heq c.fds_ne.1
    · exact absurd heq c.fds_ne.2.1
  exact ⟨iff_of_true h.unmanaged_release hclosed, ht'.waitpid_same⟩

/-- Closing the standard output of a command. -/
lemma wp_closeStdOut_open (h : c.At stdIn (-1) m) (hpipes : c.PipesClosed t) :
    wp R (fun _ _ => True) (closeStdOut c.pac errbub)
      (fun closed m' t' => c.OutputClosed m' ∧ (c.PipesClosed t' ↔ closed = true) ∧
        waitpidAnswers t' = waitpidAnswers t) m t := by
  have hstdOut : (m.objects c.pac).mStdOut = some c.mStdOut := by rw [h.object_eq]
  rw [closeStdOut, wp_bind, wp_memory, hstdOut, wp_bind]
  refine wp_closeAFD_open h.tableOk (h.lt _ c.mStdOut_mem) (h.outFD_eq ▸ c.parentRead_nonneg)
    fun r t' ht' => ?_
  rw [h.outFD_eq] at ht' ⊢
  have hreleased := h.release_mStdOut
  have hclosed := pipesClosed_of_pipe ht' (Or.inr rfl) hpipes
  cases hdone : closeDone r with
  | true => exact ⟨hreleased.setObject rfl, hclosed.trans (by rw [hdone]), ht'.waitpid_same⟩
  | false => exact ⟨hreleased, hclosed.trans (by rw [hdone]), ht'.waitpid_same⟩

/-- Standard output is closed, and then the last descriptor, unless that has failed. -/
lemma wp_closeOutput (h : c.At none (-1) m) (hpipes : c.PipesClosed t) :
    wp R (fun _ _ => True) (do
      let m ← memory
      let outClosed ← closeIfSome (m.objects c.pac).mStdOut (closeStdOut c.pac errbub)
      if !outClosed then return false
      modifyObject c.pac fun o => { o with mProcessId := -1 }
      closeAFD (some c.pac) errbub) (fun _ => c.ClosedWhole t) m t := by
  have hstdOut : (m.objects c.pac).mStdOut = some c.mStdOut := by rw [h.object_eq]
  rw [wp_bind, wp_memory, hstdOut, wp_bind, closeIfSome_some]
  refine wp_mono (wp_closeStdOut_open h hpipes) ?_
  rintro closed m' t' ⟨hout, hclosed, hwaits⟩
  cases closed with
  | true =>
      simp only [Bool.not_true, Bool.false_eq_true, if_false]
      rw [wp_bind, wp_modifyObject]
      refine wp_mono (wp_closePac (hout.setObject rfl) (hclosed.mpr rfl)) ?_
      exact fun _ _ _ hwhole => ⟨hwhole.1, hwhole.2.trans hwaits⟩
  | false =>
      exact ⟨iff_of_false hout.not_unmanaged fun hc => Bool.noConfusion (hclosed.mp hc), hwaits⟩

/-- **Closing a command** leaves nothing in the table if and only if no close of a pipe fails,
then or before. -/
theorem closeCommand_unmanaged_iff (h : c.Prepared m t) :
    wp R (fun _ _ => True) (closeCommand c.pac errbub) (fun _ => c.ClosedWhole t) m t := by
  rw [closeCommand, wp_bind, wp_memory, wp_bind]
  cases h with
  | untouched hat hpipes =>
      have hstdIn : (m.objects c.pac).mStdIn = some c.mStdIn := by rw [hat.object_eq]
      rw [hstdIn, closeIfSome_some]
      refine wp_mono (wp_closeStdIn_open hat hpipes) fun closed m' t' h' => ?_
      cases closed with
      | true =>
          refine wp_mono (wp_closeOutput h'.1.1 h'.1.2) ?_
          exact fun _ _ _ hwhole => ⟨hwhole.1, hwhole.2.trans h'.2⟩
      | false => exact ⟨iff_of_false h'.1.1.not_unmanaged h'.1.2, h'.2⟩
  | tried closed h =>
      cases closed with
      | true =>
          have hstdIn : (m.objects c.pac).mStdIn = none := by rw [h.1.object_eq]
          rw [hstdIn, closeIfSome_none]
          exact wp_closeOutput h.1 h.2
      | false =>
          -- the command still refers to the object that has failed to close
          have hstdIn : (m.objects c.pac).mStdIn = some c.mStdIn := by rw [h.1.object_eq]
          rw [hstdIn, closeIfSome_some]
          refine wp_mono (wp_closeStdIn_again h) ?_
          rintro closed m' t' ⟨rfl, h', hwaits⟩
          exact ⟨iff_of_false h'.1.not_unmanaged h'.2, hwaits⟩

end Close

/-! ### Waiting -/

/-- What `WaitpidOperation::syscall` makes of a result. -/
def waitpidResult : Except Errno ℤ → Except Errno ℤ
  | .ok 0 => .error .eagain
  | waitPidRet => waitPidRet

/-- The process has ended if and only if its number was returned. -/
lemma waitpidResult_eq_pid (c : ChildProcess) (r : Except Errno ℤ) :
    c.pid = (waitpidResult r).toOption.getD (-1) ↔ r = .ok c.pid := by
  have hpos := c.pid_pos
  have hfailed : c.pid ≠ -1 := by omega
  cases r with
  | error e => exact iff_of_false hfailed (fun h => by cases h)
  | ok pid =>
      by_cases hzero : pid = 0
      · subst hzero
        exact iff_of_false hfailed fun h => hpos.ne (Except.ok.inj h)
      · have hres : waitpidResult (.ok pid) = .ok pid := by
          rw [waitpidResult]
          exact fun h => hzero (Except.ok.inj h)
        rw [hres]
        exact ⟨fun h => congrArg Except.ok h.symm, fun h => (Except.ok.inj h).symm⟩

/-- An attempt of `waitpid`. -/
lemma wp_waitpidSyscall {R : Rely SysCall Ans (Process D) Mark} {X : Process D → Trace D → Prop}
    {Q : Except Errno ℤ → Process D → Trace D → Prop} {pac : ObjId}
    (hQ : ∀ r t', Answered t t' [r] [] → Q (waitpidResult r) m t') :
    wp R X (waitpidSyscall pac) Q m t := by
  rw [waitpidSyscall, wp_bind, wp_memory, wp_bind, wp_call]
  intro r _
  have hanswer : Answered t (t ++ [.called m (.waitpid (m.objects pac).mProcessId) r]) [r] [] :=
    Answered.concat t _
  have hend := hQ r _ hanswer
  split
  · exact hend
  · rename_i hne
    rwa [waitpidResult] at hend
    exact hne

/-- **Waiting for the process**: its number is returned if and only if the last `waitpid` has
returned it. -/
lemma wp_await_waitpid (h : c.Prepared m t) :
    wp c.OthersLeave (fun _ _ => True) (awaitSyscall true .storage fun _ => waitpidSyscall c.pac)
      (fun r m' t' => c.Prepared m' t' ∧ (c.pid = r.toOption.getD (-1) ↔
        (waitpidAnswers t').getLast? = some (.ok c.pid))) m t := by
  -- the attempt that is not repeated decides
  have hlast : ∀ (r : Except Errno ℤ) (waits : List (Except Errno ℤ)) {m' t'},
      c.Prepared m' t' → Answered t t' (waits ++ [r]) [] →
      c.Prepared m' t' ∧ (c.pid = (waitpidResult r).toOption.getD (-1) ↔
        (waitpidAnswers t').getLast? = some (.ok c.pid)) := by
    intro r waits m' t' h' ht'
    refine ⟨h', ?_⟩
    rw [c.waitpidResult_eq_pid, ht'.waitpid_eq, ← List.append_assoc, List.getLast?_concat,
      Option.some_inj]
  rw [awaitSyscall, wp_bind]
  refine wp_waitpidSyscall fun r₁ t₁ ht₁ => ?_
  by_cases hwait : shouldWait (waitpidResult r₁)
  · rw [if_pos hwait, wp_bind, wp_giveWay]
    intro m₂ hm₂
    have ht₂ := ht₁.trans (Answered.quiet t₁ (.resumed m m₂) rfl rfl)
    have h₂ := (h.quiet ht₂).others hm₂
    rw [wp_bind]
    refine wp_waitpidSyscall fun r₃ t₃ ht₃ => ?_
    have hall := ht₂.trans ht₃
    have h₃ := h₂.quiet ht₃
    rw [Bool.true_and]
    by_cases hagain : shouldWait (waitpidResult r₃)
    · rw [if_pos hagain, wp_bind, wp_event, wp_pure]
      have hmarked := Answered.quiet t₃ (.marked .requeued) rfl rfl
      have hend := hlast r₃ [r₁] (h₃.quiet hmarked) (hall.trans hmarked)
      exact hend
    · rw [if_neg hagain, wp_bind]
      refine wp_report_then fun t₄ ht₄ => ?_
      exact hlast r₃ [r₁] (h₃.quiet ht₄) (hall.trans ht₄)
  · rw [if_neg hwait, wp_bind]
    refine wp_report_then fun t₂ ht₂ => ?_
    exact hlast r₁ [] (h.quiet (ht₁.trans ht₂)) (ht₁.trans ht₂)

/-- **Waiting for a command** leaves nothing of it in the table if and only if the last `waitpid`
has returned its number and no close of a pipe has failed. -/
theorem waitTermination_unmanaged_iff (h : c.Prepared m t) :
    wp c.OthersLeave (fun _ _ => True) (waitTermination c.pac .storage)
      (fun _ m' t' => c.Unmanaged m' ↔
        (waitpidAnswers t').getLast? = some (.ok c.pid) ∧ c.PipesClosed t') m t := by
  have hpid : (m.objects c.pac).mProcessId = c.pid := by
    cases h with
    | untouched hat hpipes => rw [hat.object_eq]
    | tried closed h =>
        cases closed with
        | true => rw [h.1.object_eq]
        | false => rw [h.1.object_eq]
  rw [waitTermination, wp_bind, wp_memory]
  simp only [hpid]
  rw [wp_bind]
  refine wp_mono (wp_await_waitpid h) ?_
  rintro r m' t' ⟨h', hended⟩
  split_ifs with hret
  · refine wp_mono (closeCommand_unmanaged_iff h') fun _ m'' t'' hwhole => ?_
    rw [hwhole.1, hwhole.2, and_iff_right (hended.mp hret)]
  · have hopen : ¬ c.Unmanaged m' := by
      cases h' with
      | untouched hat hpipes => exact hat.not_unmanaged
      | tried closed h =>
          cases closed with
          | true => exact h.1.not_unmanaged
          | false => exact h.1.not_unmanaged
    exact iff_of_false hopen fun hc => hret (hended.mpr hc.1)

end ChildProcess

/-! ### Runs -/

/-- A command is waited for, after its standard input was closed any number of times. -/
def closeAndWait (pac : ObjId) : List ErrBub → Io D Bool
  | [] => waitTermination pac .storage
  | errbub :: closings => do
      let _ ← closeStdIn pac errbub
      closeAndWait pac closings

namespace ChildProcess

variable {c : ChildProcess} {m : Process D} {t : Trace D}

lemma wp_closeAndWait (closings : List ErrBub) (h : c.Prepared m t) :
    wp c.OthersLeave (fun _ _ => True) (closeAndWait c.pac closings)
      (fun _ m' t' => c.Unmanaged m' ↔
        (waitpidAnswers t').getLast? = some (.ok c.pid) ∧ c.PipesClosed t') m t := by
  induction closings generalizing m t with
  | nil => exact waitTermination_unmanaged_iff h
  | cons errbub closings ih =>
      rw [closeAndWait, wp_bind]
      exact wp_mono (closeStdIn_prepared h) fun _ _ _ h' => ih h'.1

/-- **Finished commands.** Whatever the system answers, and however often its standard input was
closed before: when `waitTermination` returns, none of the three descriptors of the command is
left in the table if and only if the last `waitpid` has returned the number of its process, and
no close of its standard input or standard output has failed. -/
theorem descriptors_released_iff {σ : Type} (env : Env SysCall Ans (Process D) σ) (s : σ)
    (closings : List ErrBub) (hm : c.Running m)
    (hothers : Meets c.OthersLeave [] ((closeAndWait c.pac closings).exec env ⟨s, m, []⟩).2.trace)
    (hreturns : ((closeAndWait c.pac closings).exec env ⟨s, m, []⟩).1 ≠ none) :
    let run := (closeAndWait c.pac closings).exec env ⟨s, m, []⟩
    c.Unmanaged run.2.mem ↔
      (waitpidAnswers run.2.trace).getLast? = some (.ok c.pid) ∧ c.PipesClosed run.2.trace := by
  have hprepared : c.Prepared m [] := .untouched hm (fun p hp => by cases hp)
  obtain ⟨_, -, hiff⟩ := exec_returns (wp_closeAndWait closings hprepared) hothers hreturns
  exact hiff

instance (t : Trace D) : Decidable (c.PipesClosed t) :=
  inferInstanceAs (Decidable (∀ p ∈ closeAnswers t,
    p.1 = c.parentWrite ∨ p.1 = c.parentRead → closeDone p.2 = true))

end ChildProcess

/-- A system that answers `waitpid` from a list, and `close` by the descriptor. -/
def childSystem (closes : ℤ → Except Errno Unit) :
    Env SysCall Ans (Process D) (List (Except Errno ℤ)) where
  answer := fun waits _ c =>
    match c with
    | .waitpid _ => (waits.headD (.ok 0), waits.tail)
    | .close fd => (closes fd, waits)
    | c => (quietAnswer c, waits)
  others := fun waits m => (m, waits)

/-- Nobody else touches the command there. -/
lemma childSystem_meets (c : ChildProcess) (closes : ℤ → Except Errno Unit) {α : Type}
    (p : Io D α) (m : Process D) (waits : List (Except Errno ℤ)) :
    Meets c.OthersLeave [] (p.exec (childSystem closes) ⟨waits, m, []⟩).2.trace := by
  let w : World SysCall Ans (Process D) Mark (List (Except Errno ℤ)) := ⟨waits, m, []⟩
  obtain ⟨items, htrace, hmeets⟩ : ∃ items,
      (p.exec (childSystem closes) w).2.trace = w.trace ++ items ∧
        Meets c.OthersLeave w.trace items := by
    refine exec_meets (J := fun _ => True) (fun _ _ _ => ⟨trivial, trivial⟩) (fun _ _ => ?_)
      (fun _ _ _ => trivial) (fun _ _ _ => ⟨trivial, trivial⟩) p trivial
    exact ⟨⟨id, le_rfl, fun _ _ => rfl⟩, trivial⟩
  rw [htrace]
  exact hmeets

/-- A process that has no command yet. -/
def childlessProcess : Process ℕ := { shared := ⟨∅, ∅, true⟩ }

lemma childlessProcess_tableOk : childlessProcess.TableOk :=
  ⟨fun fd id => by simp [childlessProcess]⟩

lemma freshChild_sample : FreshChild childlessProcess 42 5 6 7 := by
  constructor <;> decide

/-- A command that is still running at the first `waitpid`, and whose standard input was closed
before: none of its descriptors stays. -/
theorem descriptors_released_secondWait :
    (newChild freshChild_sample).Unmanaged
      ((closeAndWait 0 [.storage]).exec (childSystem fun _ => .ok ())
        ⟨[.ok 0, .ok 42], withChild childlessProcess 42 5 6 7, []⟩).2.mem := by
  refine (ChildProcess.descriptors_released_iff (childSystem fun _ => .ok ()) [.ok 0, .ok 42]
    [.storage] (newChild_running childlessProcess_tableOk freshChild_sample)
    (childSystem_meets _ _ _ _ _) ?_).mpr ⟨?_, ?_⟩
  · decide +kernel
  · decide +kernel
  · decide +kernel

/-- A command whose standard input fails to close: the other descriptors stay. -/
theorem not_descriptors_released_failedClose :
    let m := withChild childlessProcess 42 5 6 7
    let run := (closeAndWait 0 []).exec
      (childSystem fun fd => if fd = 7 then .error (.other 5) else .ok ()) ⟨[.ok 42], m, []⟩
    (newChild freshChild_sample).Running m ∧
      Meets (newChild freshChild_sample).OthersLeave [] run.2.trace ∧ run.1 = some false ∧
      ¬ (newChild freshChild_sample).Unmanaged run.2.mem := by
  intro m run
  refine ⟨newChild_running childlessProcess_tableOk freshChild_sample,
    childSystem_meets _ _ _ _ _, by decide +kernel, fun hgone => ?_⟩
  exact hgone 0 List.mem_cons_self 5 (by decide +kernel)

end SharedStateAsync
