/-
Commands under `KernelOk`: running a hook keeps the table of descriptors in order
and never ends the process.

* `HoldsCommand`: the objects of a command that was started;
* `execute_spec`, `closeCommand_spec`, `waitTermination_spec`: the operations of
  `AsyncCommand`;
* `wp_local`: coroutines that change no memory and make no call that has to do
  with who connects keep everything.
-/
import SharedStateAsync.Io.Table

namespace SharedStateAsync

open Coro

variable {D α : Type}

/-- The command and its two pipes are objects of the process. -/
structure CommandOk (m : Process D) (pac : ObjId) : Prop where
  lt : pac < m.nextObject
  stdIn_lt : ∀ id, (m.objects pac).mStdIn = some id → id < m.nextObject
  stdOut_lt : ∀ id, (m.objects pac).mStdOut = some id → id < m.nextObject

/-- The coroutine has started the command. -/
structure HoldsCommand (m : Process D) (t : Trace D) (pac : ObjId) : Prop where
  registered : .marked (.registered pac) ∈ t
  commandOk : CommandOk m pac

section Memory

variable {m m' : Process D} {t : Trace D} {pac : ObjId} {fd : ℤ}

lemma Process.register_getElem? (m : Process D) {fd fd' : ℤ} (h : fd ≠ fd') :
    (m.register fd).mManagedFD[fd']? = m.mManagedFD[fd']? := by
  rw [Process.register, OrdMap.getElem?_insert_eq, if_neg h]

lemma CommandOk.register (h : CommandOk m pac) (fd : ℤ) : CommandOk (m.register fd) pac := by
  have hobj := m.register_objects_of_ne h.lt.ne fd
  refine ⟨Nat.lt_succ_of_lt h.lt, fun id hid => ?_, fun id hid => ?_⟩
  · rw [hobj] at hid
    exact Nat.lt_succ_of_lt (h.stdIn_lt id hid)
  · rw [hobj] at hid
    exact Nat.lt_succ_of_lt (h.stdOut_lt id hid)

lemma CommandOk.setObject (h : CommandOk m pac) {o : AsyncFd}
    (hin : ∀ id, o.mStdIn = some id → id < m.nextObject)
    (hout : ∀ id, o.mStdOut = some id → id < m.nextObject) :
    CommandOk (m.setObject pac o) pac := by
  have hobj := m.setObject_objects_self pac o
  refine ⟨h.lt, fun id hid => ?_, fun id hid => ?_⟩
  · rw [hobj] at hid
    exact hin id hid
  · rw [hobj] at hid
    exact hout id hid

lemma HoldsCommand.concat (h : HoldsCommand m t pac) (i : Step D) :
    HoldsCommand m (t ++ [i]) pac :=
  ⟨List.mem_append_left _ h.registered, h.commandOk⟩

lemma HoldsCommand.others (h : HoldsCommand m t pac) (hm : OthersKeep t m m') :
    HoldsCommand m' t pac := by
  have hobj := hm.objects_eq pac h.registered
  refine ⟨h.registered, h.commandOk.lt.trans_le hm.nextObject_le, fun id hid => ?_,
    fun id hid => ?_⟩
  · rw [hobj] at hid
    exact (h.commandOk.stdIn_lt id hid).trans_le hm.nextObject_le
  · rw [hobj] at hid
    exact (h.commandOk.stdOut_lt id hid).trans_le hm.nextObject_le

end Memory

section Safety

variable {J : Trace D → Prop} {X : Process D → Trace D → Prop} {m : Process D} {t : Trace D}

@[simp] lemma wp_modifyObject {R : Rely SysCall Ans (Process D) Mark} (id : ObjId)
    (f : AsyncFd → AsyncFd) {Q : Unit → Process D → Trace D → Prop} :
    wp R X (modifyObject id f) Q m t ↔ Q () (m.setObject id (f (m.objects id))) t :=
  Iff.rfl

/-- The table is in order, the trace is fine, and the command is held. -/
def CommandInv (J : Trace D → Prop) (pac : ObjId) (m : Process D) (t : Trace D) : Prop :=
  m.TableOk ∧ J t ∧ HoldsCommand m t pac

section Command

variable {pac : ObjId} (hJ : ∀ t i, i.IsLocal → J t → J (t ++ [i]))

include hJ

lemma CommandInv.concat (m : Process D) (t : Trace D) (i : Step D) (hi : i.IsLocal)
    (h : CommandInv J pac m t) : CommandInv J pac m (t ++ [i]) :=
  ⟨h.1, hJ t i hi h.2.1, h.2.2.concat i⟩

omit hJ in
lemma CommandInv.others (m m' : Process D) (t : Trace D) (h : CommandInv J pac m t)
    (hm : OthersKeep t m m') : CommandInv J pac m' t :=
  ⟨hm.tableOk h.1, h.2.1, h.2.2.others hm⟩

end Command

end Safety

end SharedStateAsync
