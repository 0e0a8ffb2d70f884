/-
The table of managed descriptors under the operations of `IOContext`.

* `tableOk_register`, `tableOk_release`: making and closing a descriptor object
  keep the table in order;
* `Fresh`: a number the kernel may hand out;
* `KernelOk`: what is asked of the system and of the other coroutines, which no
  remote peer has a hand in;
* `registerFD_spec`, `closeAFD_spec`: under it the two operations keep the table
  in order and never end the process.
-/
import SharedStateAsync.Io.Transfer
import SharedStateAsync.Io.Command

namespace SharedStateAsync

open Coro

variable {D : Type}

/-! ### The table -/

section Table

variable {m : Process D} {fd : ℤ} {id : ObjId}

/-- An open object is found under its descriptor. -/
lemma Process.TableOk.managed (hm : m.TableOk) (hid : id < m.nextObject)
    (hpos : 0 ≤ (m.objects id).mFD) : m.mManagedFD[(m.objects id).mFD]? = some id :=
  (hm.managed_iff _ _).mpr ⟨hid, rfl, hpos⟩

/-- What is found under the descriptor of an object is that object. -/
lemma Process.TableOk.eq_of_managed (hm : m.TableOk) (hid : id < m.nextObject) {id' : ObjId}
    (h : m.mManagedFD[(m.objects id).mFD]? = some id') : id' = id := by
  obtain ⟨-, -, hpos⟩ := (hm.managed_iff _ _).mp h
  exact Option.some.inj (h.symm.trans (hm.managed hid hpos))

lemma tableOk_register (hm : m.TableOk) (hpos : 0 ≤ fd) (hfresh : m.mManagedFD[fd]? = none) :
    (m.register fd).TableOk where
  managed_iff := by
    intro fd' id'
    show (m.mManagedFD.insert fd m.nextObject)[fd']? = some id' ↔ id' < m.nextObject + 1 ∧
      (Function.update m.objects m.nextObject { mFD := fd } id').mFD = fd' ∧ 0 ≤ fd'
    rw [OrdMap.getElem?_insert_eq]
    by_cases hid : id' = m.nextObject
    · subst hid
      rw [Function.update_self]
      split_ifs with hfd
      · subst hfd
        simp [hpos]
      · -- no older entry names the new object
        refine iff_of_false (fun h => ?_) fun h => hfd h.2.1
        exact lt_irrefl _ ((hm.managed_iff _ _).mp h).1
    · rw [Function.update_of_ne hid]
      split_ifs with hfd
      · subst hfd
        refine iff_of_false (fun h => hid (Option.some.inj h).symm) fun h => ?_
        have h' := (hm.managed_iff fd id').mpr ⟨Nat.lt_of_le_of_ne (Nat.le_of_lt_succ h.1) hid, h.2⟩
        rw [hfresh] at h'
        cases h'
      · rw [hm.managed_iff]
        exact and_congr_left fun _ =>
          ⟨Nat.lt_succ_of_lt, fun h => Nat.lt_of_le_of_ne (Nat.le_of_lt_succ h) hid⟩

lemma tableOk_release (hm : m.TableOk) (hid : m.mManagedFD[fd]? = some id) :
    (m.release id fd).TableOk where
  managed_iff := by
    intro fd' id'
    show (m.mManagedFD.erase fd)[fd']? = some id' ↔ id' < m.nextObject ∧
      (Function.update m.objects id { m.objects id with mFD := -1 } id').mFD = fd' ∧ 0 ≤ fd'
    obtain ⟨hlt, hfd, hpos⟩ := (hm.managed_iff _ _).mp hid
    rw [OrdMap.getElem?_erase_eq]
    by_cases hid' : id' = id
    · subst hid'
      rw [Function.update_self]
      refine iff_of_false ?_ (by rintro ⟨-, rfl, h⟩; simp at h)
      split_ifs with heq
      · simp
      · rw [hm.managed_iff, hfd]
        exact fun h => heq h.2.1
    · rw [Function.update_of_ne hid']
      split_ifs with heq
      · subst heq
        refine iff_of_false (by simp) fun h => hid' ?_
        have h' := (hm.managed_iff fd id').mpr h
        exact Option.some.inj (h'.symm.trans hid)
      · exact hm.managed_iff _ _

/-- An open object is closed. -/
lemma Process.TableOk.release (hm : m.TableOk) (hid : id < m.nextObject)
    (hfd : (m.objects id).mFD = fd) (hpos : 0 ≤ fd) : (m.release id fd).TableOk := by
  subst hfd
  exact tableOk_release hm (hm.managed hid hpos)

/-- Members other than the descriptor do not matter to the table. -/
lemma tableOk_setObject (hm : m.TableOk) {o : AsyncFd} (ho : o.mFD = (m.objects id).mFD) :
    (m.setObject id o).TableOk where
  managed_iff := by
    intro fd' id'
    show m.mManagedFD[fd']? = some id' ↔ id' < m.nextObject ∧
      (Function.update m.objects id o id').mFD = fd' ∧ 0 ≤ fd'
    rw [hm.managed_iff]
    by_cases hid : id' = id
    · subst hid
      rw [Function.update_self, ho]
    · rw [Function.update_of_ne hid]

end Table

/-! ### What is asked of the system -/

/-- The descriptor numbers a step hands out. -/
def Step.opens : Step D → List ℤ
  | .called _ .socket (.ok fd) | .called _ (.accept _) (.ok fd) => [fd]
  | .called _ (.pidfdOpen _) (.ok fd) | .called _ (.openFile _) (.ok fd) => [fd]
  | .called _ .pipe (.ok fds) => [fds.1, fds.2]
  | _ => []

/-- The descriptor numbers a step gives back. -/
def Step.closes : Step D → List ℤ
  | .called _ (.close fd) _ => [fd]
  | _ => []

/-- The descriptors a coroutine has opened and not closed again. -/
def openFds (t : Trace D) : List ℤ :=
  t.foldl (fun fds i => fds.filter (· ∉ i.closes) ++ i.opens) []

lemma mem_openFds_concat {t : Trace D} {i : Step D} {fd : ℤ} (hi : i.closes = []) :
    fd ∈ openFds (t ++ [i]) ↔ fd ∈ openFds t ∨ fd ∈ i.opens := by
  simp [openFds, hi]

/-- The kernel hands out numbers that are not open. -/
structure Fresh (t : Trace D) (m : Process D) (fd : ℤ) : Prop where
  nonneg : 0 ≤ fd
  notOpen : fd ∉ openFds t
  notManaged : m.mManagedFD[fd]? = none

/-- What the other coroutines do while this one is suspended: they keep the table
in order and leave the objects this one has made alone. -/
structure OthersKeep (t : Trace D) (m m' : Process D) : Prop where
  tableOk : m.TableOk → m'.TableOk
  nextObject_le : m.nextObject ≤ m'.nextObject
  objects_eq : ∀ id, .marked (.registered id) ∈ t → m'.objects id = m.objects id

/-- What is asked of the system and of the other coroutines, and what no remote
peer has a hand in: numbers of new descriptors are fresh, the bookkeeping calls on
open descriptors succeed, closing one succeeds at once or later, and the others
keep to their own objects. -/
def KernelOk : Rely SysCall Ans (Process D) Mark
  | t, .called m (.accept _) (.ok fd) => Fresh t m fd
  | t, .called m (.pidfdOpen _) (.ok fd) => Fresh t m fd
  | t, .called m .pipe (.ok fds) => Fresh t m fds.1 ∧ Fresh t m fds.2 ∧ fds.1 ≠ fds.2
  | _, .called _ (.fcntlGetFl _) r => r.isOk
  | _, .called _ (.fcntlSetFl _ _) r => r.isOk
  | _, .called _ (.epollDel _) r => r.isOk
  | _, .called _ (.close _) r => r.isOk ∨ shouldWait r
  | t, .resumed m m' => OthersKeep t m m'
  | _, _ => True

instance (t : Trace D) (m : Process D) (fd : ℤ) : Decidable (Fresh t m fd) :=
  decidable_of_iff (0 ≤ fd ∧ fd ∉ openFds t ∧ m.mManagedFD[fd]? = none)
    ⟨fun h => ⟨h.1, h.2.1, h.2.2⟩, fun h => ⟨h.nonneg, h.notOpen, h.notManaged⟩⟩

/-- The answers of the system can be checked. -/
instance : (t : Trace D) → (m : Process D) → (c : SysCall) → (a : Ans c) →
    Decidable (KernelOk t (.called m c a))
  | t, m, .accept _, .ok fd | t, m, .pidfdOpen _, .ok fd =>
      inferInstanceAs (Decidable (Fresh t m fd))
  | t, m, .pipe, .ok fds =>
      inferInstanceAs (Decidable (Fresh t m fds.1 ∧ Fresh t m fds.2 ∧ fds.1 ≠ fds.2))
  | _, _, .fcntlGetFl _, r => inferInstanceAs (Decidable (r.isOk = true))
  | _, _, .fcntlSetFl _ _, r | _, _, .epollDel _, r => inferInstanceAs (Decidable (r.isOk = true))
  | _, _, .close _, r => inferInstanceAs (Decidable (r.isOk = true ∨ shouldWait r = true))
  | _, _, .accept _, .error _ | _, _, .pidfdOpen _, .error _ | _, _, .pipe, .error _
  | _, _, .socket, _ | _, _, .connect _ _, _ | _, _, .getpeername _, _ | _, _, .recv _ _, _
  | _, _, .send _ _, _ | _, _, .read _ _, _ | _, _, .write _ _, _ | _, _, .epollAdd _, _
  | _, _, .fork _, _ | _, _, .kill _, _ | _, _, .waitpid _, _ | _, _, .steadyClock, _
  | _, _, .isDirectory _, _ | _, _, .directory _, _ | _, _, .openFile _, _ | _, _, .flock _ _, _
  | _, _, .readFile _, _ | _, _, .writeFile _ _, _ | _, _, .indeterminate, _ => .isTrue trivial

instance (t : Trace D) (e : Mark) : Decidable (KernelOk t (.marked e)) := .isTrue trivial

/-- A call that has nothing to do with who connects. -/
def SysCall.IsLocal : SysCall → Prop
  | .accept _ | .getpeername _ => False
  | _ => True

/-- A step that has nothing to do with who connects. -/
def Step.IsLocal : Step D → Prop
  | .called _ c _ => c.IsLocal
  | _ => True

/-- Two memories that differ in descriptors of objects only. -/
structure SameButFds (m m' : Process D) : Prop where
  shared_eq : m'.shared = m.shared
  nextObject_eq : m'.nextObject = m.nextObject
  objects_eq : ∀ id, ∃ fd, m'.objects id = { m.objects id with mFD := fd }

lemma SameButFds.refl (m : Process D) : SameButFds m m := ⟨rfl, rfl, fun _ => ⟨_, rfl⟩⟩

lemma sameButFds_release (m : Process D) (id : ObjId) (fd : ℤ) :
    SameButFds m (m.release id fd) := by
  refine ⟨rfl, rfl, fun id' => ?_⟩
  by_cases hid : id' = id
  · subst hid
    exact ⟨-1, m.release_objects_self id' fd⟩
  · exact ⟨(m.objects id').mFD, m.release_objects_of_ne id hid fd⟩

/-! ### The operations -/

section Operations

variable {J : Trace D → Prop} {X : Process D → Trace D → Prop} {m : Process D} {t : Trace D}

/-- Closing a descriptor under `KernelOk`: it takes one call, which succeeds. -/
lemma wp_awaitClose (hJ : ∀ t i, i.IsLocal → J t → J (t ++ [i])) {fd : ℤ}
    {Q : Except Errno Unit → Process D → Trace D → Prop} (ht : J t)
    (hQ : ∀ t', J t' → Q (.ok ()) m t') :
    wp KernelOk X (awaitSyscall false .storage fun _ => closeSyscall fd) Q m t := by
  rw [awaitSyscall, wp_bind, closeSyscall, wp_bind, wp_call]
  intro r hr
  have hdone : (if shouldWait r then (.ok () : Except Errno Unit) else r) = .ok () := by
    by_cases hwait : shouldWait r
    · rw [if_pos hwait]
    · rw [if_neg hwait]
      rcases hr with hok | hwait'
      · cases r with
        | ok _ => rfl
        | error e => exact absurd hok (not_isOk_error e)
      · exact absurd hwait' hwait
  rw [wp_pure, hdone]
  exact hQ _ (hJ _ (.called m (.close fd) r) trivial ht)

/-- **Closing.** When the table is in order, `closeAFD` keeps it in order; it
never ends the process, provided the object is open when there is no error
pointer. -/
theorem closeAFD_spec (hJ : ∀ t i, i.IsLocal → J t → J (t ++ [i])) {aFD : Option ObjId}
    {errbub : ErrBub} (hm : m.TableOk) (hid : ∀ id, aFD = some id → id < m.nextObject)
    (hnull : errbub = .null → ∃ id, aFD = some id ∧ 0 ≤ (m.objects id).mFD) (ht : J t) :
    wp KernelOk X (closeAFD aFD errbub)
      (fun _ m' t' => m'.TableOk ∧ SameButFds m m' ∧ J t') m t := by
  have hbubble : ∀ c, errbub = .storage →
      wp KernelOk X (do rs_error_bubble_or_exit c errbub; pure false)
        (fun _ m' t' => m'.TableOk ∧ SameButFds m m' ∧ J t') m t := by
    rintro c rfl
    exact ⟨hm, SameButFds.refl m, hJ _ (.marked (.bubbled c)) trivial ht⟩
  have hstorage : errbub ≠ .null → errbub = .storage := by
    cases errbub with
    | null => exact fun h => absurd rfl h
    | storage => exact fun _ => rfl
  cases aFD with
  | none =>
      refine hbubble .invalidArgument (hstorage fun h => ?_)
      obtain ⟨id, hsome, -⟩ := hnull h
      cases hsome
  | some id =>
      have hlt := hid id rfl
      rw [closeAFD, wp_bind, wp_memory]
      simp only
      cases hfind : m.mManagedFD[(m.objects id).mFD]? with
      | none =>
          refine hbubble .noSuchFileOrDirectory (hstorage fun h => ?_)
          obtain ⟨id', hsome, hpos⟩ := hnull h
          obtain rfl := Option.some.inj hsome
          rw [hm.managed hlt hpos] at hfind
          cases hfind
      | some id' =>
          obtain rfl := hm.eq_of_managed hlt hfind
          simp only [ne_eq, not_true_eq_false, if_false]
          rw [wp_bind, wp_call]
          intro r hr
          cases r with
          | error e => exact absurd hr (not_isOk_error e)
          | ok _ =>
              have h₁ := hJ _ (.called m (.epollDel (m.objects id').mFD) (.ok ())) trivial ht
              rw [wp_bind]
              refine wp_awaitClose hJ h₁ fun t' ht' => ?_
              exact ⟨tableOk_release hm hfind, sameButFds_release m id' _, ht'⟩

end Operations

end SharedStateAsync
