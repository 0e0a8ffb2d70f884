/-
The event loop (`src/io_context.cc`), with what its descriptors are registered for.

An operation says in its constructor that its descriptor is to be watched, and in its destructor
that it is not any more. Both only change a word of the descriptor object; `run` brings the
registration up to date after it has resumed the coroutines of all events, wherever the word differs
from the one it registered last.

* `watchRead`, `unwatchRead`, `watchWrite`, `unwatchWrite`: the word `mNextIOState`;
* `Action`, `act`: what the coroutines do between two waits, in any order;
* `updateInterest`, `iteration`, `run`: the loop;
* `Consistent`: the word is as the outstanding operation asks, and the registration as the cached
  one says;
* `run_noLostWakeup`: at every wait after the first update each descriptor is registered for what
  its suspended operation waits for.
-/
import SharedStateAsync.Io.Process
import SharedStateAsync.Lib.Machine

namespace SharedStateAsync

namespace IOContext

/-! ### Interest -/

/-- `EPOLLIN`. -/
def EPOLLIN : BitVec 32 := 0x001

/-- `EPOLLOUT`. -/
def EPOLLOUT : BitVec 32 := 0x004

/-- `EPOLLET`. -/
def EPOLLET : BitVec 32 := 1 <<< 31

/-- The operations that watch their descriptor. -/
inductive Operation where
  | read
  | recv
  | accept
  | waitpid
  | write
  | send
  | connect
  deriving DecidableEq, Repr

/-- What an operation waits for. -/
def Operation.interest : Operation → BitVec 32
  | .read | .recv | .accept | .waitpid => EPOLLIN
  | .write | .send | .connect => EPOLLOUT

/-- `AsyncFileDescriptor`. -/
structure Descriptor where
  mFD : ℤ
  mIoState : BitVec 32 := 0
  mNextIOState : BitVec 32 := 0
  /-- The operation a coroutine is suspended at. -/
  suspended : Option Operation := none
  /-- `watchRead` was called, by no operation, and `unwatchRead` was not since. -/
  standing : Bool := false
  deriving DecidableEq, Repr

namespace Descriptor

/-- `watchRead`. -/
def watchRead (aFD : Descriptor) : Descriptor :=
  { aFD with mNextIOState := aFD.mNextIOState ||| EPOLLIN }

/-- `watchRead` when no operation calls it. -/
def watchStanding (aFD : Descriptor) : Descriptor := { aFD.watchRead with standing := true }

/-- `unwatchRead`. -/
def unwatchRead (aFD : Descriptor) : Descriptor :=
  { aFD with mNextIOState := aFD.mNextIOState &&& ~~~EPOLLIN, standing := false }

/-- `watchWrite`. -/
def watchWrite (aFD : Descriptor) : Descriptor :=
  { aFD with mNextIOState := aFD.mNextIOState ||| EPOLLOUT }

/-- `unwatchWrite`. -/
def unwatchWrite (aFD : Descriptor) : Descriptor :=
  { aFD with mNextIOState := aFD.mNextIOState &&& ~~~EPOLLOUT }

/-- The constructor of an operation. -/
def construct (aFD : Descriptor) : Operation → Descriptor
  | .read | .recv | .accept | .waitpid => aFD.watchRead
  | .write | .send | .connect => aFD.watchWrite

/-- The destructor of an operation. -/
def destruct (aFD : Descriptor) : Operation → Descriptor
  | .read | .recv | .accept | .waitpid => aFD.unwatchRead
  | .write | .send | .connect => aFD.unwatchWrite

/-- `co_await` of an operation: when the first attempt would block the coroutine is suspended, and
otherwise the operation is destroyed right away. -/
def await (aFD : Descriptor) (op : Operation) (wouldBlock : Bool) : Descriptor :=
  if wouldBlock then { aFD.construct op with suspended := some op }
  else (aFD.construct op).destruct op

/-- The suspended coroutine is resumed, and goes on past its operation. -/
def resume (aFD : Descriptor) : Descriptor :=
  match aFD.suspended with
  | none => aFD
  | some op => { aFD.destruct op with suspended := none }

end Descriptor

/-! ### The context -/

/-- `IOContext`, its descriptor objects and the set of its epoll instance. -/
structure Context where
  mManagedFD : OrdMap ℤ ObjId := ∅
  objects : ObjId → Descriptor := fun _ => { mFD := -1 }
  nextObject : ObjId := 0
  epoll : ℤ → Option (BitVec 32) := fun _ => none

namespace Context

/-- Put `aFD` in place of an object. -/
def setObject (c : Context) (id : ObjId) (aFD : Descriptor) : Context :=
  { c with objects := Function.update c.objects id aFD }

/-- `EPOLL_CTL_ADD`: nothing, when the descriptor is in the set. -/
def epollAdd (c : Context) (fd : ℤ) (events : BitVec 32) : Option Context :=
  if c.epoll fd = none then some { c with epoll := Function.update c.epoll fd (some events) }
  else none

/-- `EPOLL_CTL_MOD`: nothing, when the descriptor is not in the set. -/
def epollMod (c : Context) (fd : ℤ) (events : BitVec 32) : Option Context :=
  if c.epoll fd = none then none
  else some { c with epoll := Function.update c.epoll fd (some events) }

/-- `EPOLL_CTL_DEL`: nothing, when the descriptor is not in the set. -/
def epollDel (c : Context) (fd : ℤ) : Option Context :=
  if c.epoll fd = none then none
  else some { c with epoll := Function.update c.epoll fd none }

/-- `registerFD`, when it succeeds. -/
def registerFD (c : Context) (fd : ℤ) : Context where
  mManagedFD := c.mManagedFD.insert fd c.nextObject
  objects := Function.update c.objects c.nextObject { mFD := fd }
  nextObject := c.nextObject + 1
  epoll := c.epoll

/-- `attach` for `events`. -/
def attachFor (c : Context) (id : ObjId) (events : BitVec 32) : Option Context :=
  (c.epollAdd (c.objects id).mFD events).map fun c =>
    c.setObject id { c.objects id with mIoState := events }

/-- `attach`. -/
def attach (c : Context) (id : ObjId) : Option Context := c.attachFor id (EPOLLIN ||| EPOLLET)

/-- `attachReadonly`. -/
def attachReadonly (c : Context) (id : ObjId) : Option Context :=
  c.attachFor id (EPOLLIN ||| EPOLLET)

/-- `attachWriteOnly`. -/
def attachWriteOnly (c : Context) (id : ObjId) : Option Context :=
  c.attachFor id (EPOLLOUT ||| EPOLLET)

/-- `closeAFD`: nothing, when the process ends. The close never waits. -/
def closeAFD (c : Context) (id : ObjId) : Option Context :=
  match c.mManagedFD[(c.objects id).mFD]? with
  | none => some c
  | some id' =>
      if id' = id then
        (c.epollDel (c.objects id).mFD).map fun c => { c with
          mManagedFD := c.mManagedFD.erase (c.objects id).mFD
          objects := Function.update c.objects id { c.objects id with mFD := -1 } }
      else none

end Context

/-- How a new descriptor object is attached. -/
inductive Attach where
  | both
  | readonly
  | writeOnly
  deriving DecidableEq, Repr

/-- What the coroutines do. -/
inductive Action where
  /-- Make an object for a descriptor and attach it. -/
  | register (fd : ℤ) (how : Attach)
  /-- `watchRead`, called by no operation. -/
  | watchRead (id : ObjId)
  | await (id : ObjId) (op : Operation) (wouldBlock : Bool)
  | resume (id : ObjId)
  | close (id : ObjId)
  deriving DecidableEq, Repr

namespace Context

/-- One action: nothing, when `epoll_ctl` fails or when a second operation would be outstanding on
a descriptor. -/
def act (c : Context) : Action → Option Context
  | .register fd .both => (c.registerFD fd).attach c.nextObject
  | .register fd .readonly => (c.registerFD fd).attachReadonly c.nextObject
  | .register fd .writeOnly => (c.registerFD fd).attachWriteOnly c.nextObject
  | .watchRead id =>
      some (c.setObject id (c.objects id).watchStanding)
  | .await id op wouldBlock =>
      if (c.objects id).suspended = none then
        some (c.setObject id ((c.objects id).await op wouldBlock))
      else none
  | .resume id => some (c.setObject id (c.objects id).resume)
  | .close id => c.closeAFD id

/-! ### The loop -/

/-- An event of the descriptor `fd`, and what the coroutines do that it resumes: a descriptor that
is not managed is passed over. -/
def handleEvent (c : Context) (event : ℤ × List Action) : Option Context :=
  match c.mManagedFD[event.1]? with
  | none => some c
  | some _ => event.2.foldlM act c

/-- The body of the loop that brings the registrations up to date. -/
def updateInterest (c : Context) (mEl : ℤ × ObjId) : Option Context :=
  let aFD := c.objects mEl.2
  let io_state := aFD.mNextIOState ||| EPOLLET
  if aFD.mIoState = io_state then some c
  else (c.epollMod aFD.mFD io_state).map fun c =>
    c.setObject mEl.2 { aFD with mIoState := io_state }

/-- The loop over all managed descriptors. -/
def updateAll (c : Context) : Option Context := c.mManagedFD.toList.foldlM updateInterest c

/-- One turn of `run`: `epoll_wait` was interrupted, or gave events. -/
def iteration (c : Context) : Option (List (ℤ × List Action)) → Option Context
  | none => some c
  | some events => (events.foldlM handleEvent c).bind updateAll

/-- `run`, after the start of the program has done `setup`: the state at the next `epoll_wait` once
it has returned as `waits` says. -/
def run (setup : List Action) (waits : List (Option (List (ℤ × List Action)))) : Option Context :=
  (setup.foldlM act {}).bind fun c => waits.foldlM iteration c

end Context

/-! ### The word of a descriptor -/

namespace Descriptor

variable {aFD : Descriptor}

/-- What a descriptor is to be watched for. -/
def wanted (suspended : Option Operation) (standing : Bool) : BitVec 32 :=
  suspended.elim 0 Operation.interest ||| if standing then EPOLLIN else 0

/-- The word says so. -/
def Asks (aFD : Descriptor) : Prop := aFD.mNextIOState = wanted aFD.suspended aFD.standing

lemma construct_mNextIOState (aFD : Descriptor) (op : Operation) :
    (aFD.construct op).mNextIOState = aFD.mNextIOState ||| op.interest := by
  cases op <;> rfl

lemma destruct_mNextIOState (aFD : Descriptor) (op : Operation) :
    (aFD.destruct op).mNextIOState = aFD.mNextIOState &&& ~~~op.interest := by
  cases op <;> rfl

lemma destruct_standing (aFD : Descriptor) (op : Operation) :
    (aFD.destruct op).standing = (aFD.standing && op.interest == EPOLLOUT) := by
  cases op <;> simp [destruct, unwatchRead, unwatchWrite, Operation.interest, EPOLLIN, EPOLLOUT]

/-- The words before and after an operation, and while its coroutine is suspended. -/
lemma wanted_construct (op : Operation) (standing : Bool) :
    wanted none standing ||| op.interest = wanted (some op) standing := by
  cases op <;> cases standing <;> decide

lemma wanted_destruct (op : Operation) (standing : Bool) :
    wanted (some op) standing &&& ~~~op.interest
      = wanted none (standing && op.interest == EPOLLOUT) := by
  cases op <;> cases standing <;> decide

lemma wanted_watchRead (suspended : Option Operation) (standing : Bool) :
    wanted suspended standing ||| EPOLLIN = wanted suspended true := by
  rcases suspended with _ | op
  · cases standing <;> decide
  · cases op <;> cases standing <;> decide

lemma Asks.watchStanding (h : aFD.Asks) : aFD.watchStanding.Asks := by
  rw [Asks, Descriptor.watchStanding, watchRead, h]
  exact wanted_watchRead _ _

/-- An operation is awaited, and no other one is outstanding. -/
lemma Asks.await (h : aFD.Asks) (hnone : aFD.suspended = none) (op : Operation)
    (wouldBlock : Bool) : (aFD.await op wouldBlock).Asks := by
  have hword : (aFD.construct op).mNextIOState = wanted (some op) aFD.standing := by
    rw [construct_mNextIOState, h, hnone, wanted_construct]
  have hsame : (aFD.construct op).standing = aFD.standing ∧
      (aFD.construct op).suspended = none := by
    cases op <;> exact ⟨rfl, hnone⟩
  rw [Descriptor.await]
  split_ifs
  · rw [Asks, hsame.1]
    exact hword
  · have hsuspended : ((aFD.construct op).destruct op).suspended = none := by
      cases op <;> exact hnone
    rw [Asks, destruct_mNextIOState, hword, destruct_standing, hsame.1, hsuspended,
      wanted_destruct]

lemma Asks.resume (h : aFD.Asks) : aFD.resume.Asks := by
  rw [Descriptor.resume]
  split
  · exact h
  · rename_i op hop
    rw [Asks, destruct_mNextIOState, h, hop, destruct_standing]
    exact wanted_destruct _ _

/-- The two objects have the same descriptor, and it is registered as before. -/
def SameRegistration (aFD aFD' : Descriptor) : Prop :=
  aFD'.mFD = aFD.mFD ∧ aFD'.mIoState = aFD.mIoState

lemma sameRegistration_await (aFD : Descriptor) (op : Operation) (wouldBlock : Bool) :
    SameRegistration aFD (aFD.await op wouldBlock) := by
  cases wouldBlock <;> cases op <;> exact ⟨rfl, rfl⟩

lemma sameRegistration_resume (aFD : Descriptor) : SameRegistration aFD aFD.resume := by
  obtain ⟨mFD, mIoState, mNextIOState, suspended, standing⟩ := aFD
  rcases suspended with _ | op
  · exact ⟨rfl, rfl⟩
  · cases op <;> exact ⟨rfl, rfl⟩

/-- The registration is up to date. -/
def UpToDate (aFD : Descriptor) : Prop := aFD.mIoState = aFD.mNextIOState ||| EPOLLET

/-- The descriptor is registered for what its word says. -/
def update (aFD : Descriptor) : Descriptor :=
  { aFD with mIoState := aFD.mNextIOState ||| EPOLLET }

end Descriptor

/-! ### What the actions do -/

namespace Context

variable {c c' : Context} {id : ObjId}

/-- A new descriptor that is attached was not registered before. -/
lemma register_cases {fd : ℤ} {events : BitVec 32}
    (h : (c.registerFD fd).attachFor c.nextObject events = some c') :
    c.epoll fd = none ∧ c' =
      { mManagedFD := c.mManagedFD.insert fd c.nextObject
        objects := Function.update c.objects c.nextObject { mFD := fd, mIoState := events }
        nextObject := c.nextObject + 1
        epoll := Function.update c.epoll fd (some events) } := by
  have hmFD : ((c.registerFD fd).objects c.nextObject).mFD = fd := by
    show (Function.update c.objects c.nextObject { mFD := fd } c.nextObject).mFD = fd
    rw [Function.update_self]
  rw [attachFor, hmFD, epollAdd] at h
  split_ifs at h with hnone
  · refine ⟨hnone, (Option.some.inj h).symm.trans ?_⟩
    simp only [setObject, registerFD, Function.update_self, Function.update_idem]
  · cases h

/-- A descriptor that is closed was managed, or nothing happens. -/
lemma closeAFD_cases (h : c.closeAFD id = some c') :
    c' = c ∨ c.mManagedFD[(c.objects id).mFD]? = some id ∧ c' =
      { mManagedFD := c.mManagedFD.erase (c.objects id).mFD
        objects := Function.update c.objects id { c.objects id with mFD := -1 }
        nextObject := c.nextObject
        epoll := Function.update c.epoll (c.objects id).mFD none } := by
  rw [closeAFD] at h
  split at h
  · exact Or.inl (Option.some.inj h).symm
  · rename_i id' hmanaged
    split_ifs at h with hid
    rw [epollDel] at h
    split_ifs at h
    · cases h
    · exact Or.inr ⟨hid ▸ hmanaged, (Option.some.inj h).symm⟩

/-- The registration of a descriptor is brought up to date, or it is so already. -/
lemma updateInterest_cases {mEl : ℤ × ObjId} (h : c.updateInterest mEl = some c') :
    (c.objects mEl.2).UpToDate ∧ c' = c ∨
      c' = { c with
        objects := Function.update c.objects mEl.2 (c.objects mEl.2).update
        epoll := Function.update c.epoll (c.objects mEl.2).mFD
          (some (c.objects mEl.2).update.mIoState) } := by
  rw [updateInterest] at h
  split_ifs at h with hsame
  · exact Or.inl ⟨hsame, (Option.some.inj h).symm⟩
  · rw [epollMod] at h
    split_ifs at h
    · cases h
    · exact Or.inr (Option.some.inj h).symm

/-! ### What they keep -/

/-- The words are as the operations ask, and the descriptors are registered as is cached. -/
structure Consistent (c : Context) : Prop where
  asks : ∀ id, (c.objects id).Asks
  managed : ∀ (fd : ℤ) (id : ObjId), c.mManagedFD[fd]? = some id →
    id < c.nextObject ∧ (c.objects id).mFD = fd ∧ c.epoll fd = some (c.objects id).mIoState

lemma consistent_start : Consistent {} where
  asks := fun _ => show (0 : BitVec 32) = Descriptor.wanted none false by decide
  managed := fun fd id hid => by simp at hid

/-- A property of all objects, when one is replaced. -/
lemma forall_update {P : Descriptor → Prop} {objects : ObjId → Descriptor} {aFD : Descriptor}
    (h : ∀ id, P (objects id)) (haFD : P aFD) (id' : ObjId) :
    P (Function.update objects id aFD id') := by
  by_cases hid : id' = id
  · rw [hid, Function.update_self]
    exact haFD
  · rw [Function.update_of_ne hid]
    exact h id'

/-- An object changes, but its registration does not. -/
lemma Consistent.setObject (h : c.Consistent) {aFD : Descriptor} (hasks : aFD.Asks)
    (hsame : Descriptor.SameRegistration (c.objects id) aFD) : (c.setObject id aFD).Consistent where
  asks := forall_update h.asks hasks
  managed := by
    intro fd id' hid'
    obtain ⟨hlt, hfd, hepoll⟩ := h.managed fd id' hid'
    have hobject : Descriptor.SameRegistration (c.objects id')
        (Function.update c.objects id aFD id') := by
      by_cases hid : id' = id
      · subst hid
        rw [Function.update_self]
        exact hsame
      · rw [Function.update_of_ne hid]
        exact ⟨rfl, rfl⟩
    exact ⟨hlt, hobject.1.trans hfd, hepoll.trans (congrArg some hobject.2.symm)⟩

/-- A new descriptor is attached. -/
lemma Consistent.register (h : c.Consistent) {fd : ℤ} {events : BitVec 32}
    (hstep : (c.registerFD fd).attachFor c.nextObject events = some c') : c'.Consistent := by
  obtain ⟨hnone, rfl⟩ := register_cases hstep
  refine ⟨forall_update h.asks (show (0 : BitVec 32) = Descriptor.wanted none false by decide),
    fun fd' id' hid' => ?_⟩
  rw [OrdMap.getElem?_insert_eq] at hid'
  split_ifs at hid' with hfd
  · obtain rfl := Option.some.inj hid'
    subst hfd
    refine ⟨Nat.lt_succ_self _, ?_⟩
    simp only [Function.update_self, true_and]
  · -- an older descriptor: it was registered before, under another number
    obtain ⟨hlt, hmFD, hepoll⟩ := h.managed fd' id' hid'
    refine ⟨Nat.lt_succ_of_lt hlt, ?_⟩
    simp only [Function.update_of_ne hlt.ne, Function.update_of_ne (Ne.symm hfd)]
    exact ⟨hmFD, hepoll⟩

/-- A descriptor is closed. -/
lemma Consistent.close (h : c.Consistent) (hstep : c.closeAFD id = some c') : c'.Consistent := by
  rcases closeAFD_cases hstep with rfl | ⟨hmanaged, rfl⟩
  · exact h
  refine ⟨forall_update h.asks (h.asks id), fun fd' id' hid' => ?_⟩
  rw [OrdMap.getElem?_erase_eq] at hid'
  split_ifs at hid' with hfd
  obtain ⟨hlt, hmFD, hepoll⟩ := h.managed fd' id' hid'
  have hne : id' ≠ id := by
    rintro rfl
    exact hfd hmFD
  refine ⟨hlt, ?_⟩
  simp only [Function.update_of_ne hne, Function.update_of_ne (Ne.symm hfd)]
  exact ⟨hmFD, hepoll⟩

/-- **Every action** keeps the words and the registrations consistent. -/
lemma Consistent.act (h : c.Consistent) {a : Action} (hstep : c.act a = some c') :
    c'.Consistent := by
  cases a with
  | register fd how =>
      cases how with
      | both => exact h.register hstep
      | readonly => exact h.register hstep
      | writeOnly => exact h.register hstep
  | watchRead id =>
      obtain rfl := Option.some.inj hstep
      exact h.setObject (h.asks id).watchStanding ⟨rfl, rfl⟩
  | await id op wouldBlock =>
      rw [Context.act] at hstep
      split_ifs at hstep with hnone
      obtain rfl := Option.some.inj hstep
      exact h.setObject ((h.asks id).await hnone op wouldBlock)
        (Descriptor.sameRegistration_await _ op wouldBlock)
  | resume id =>
      obtain rfl := Option.some.inj hstep
      exact h.setObject (h.asks id).resume (Descriptor.sameRegistration_resume _)
  | close id => exact h.close hstep

/-! ### What the update does -/

lemma upToDate_update (aFD : Descriptor) : aFD.update.UpToDate := rfl

/-- One descriptor is brought up to date, and the others stay as they are. -/
lemma Consistent.updateInterest {mEl : ℤ × ObjId} (h : c.Consistent)
    (hmanaged : c.mManagedFD[mEl.1]? = some mEl.2) (hstep : c.updateInterest mEl = some c') :
    c'.Consistent ∧ c'.mManagedFD = c.mManagedFD ∧ (c'.objects mEl.2).UpToDate ∧
      ∀ id, (c.objects id).UpToDate → (c'.objects id).UpToDate := by
  rcases updateInterest_cases hstep with ⟨hsame, rfl⟩ | rfl
  · exact ⟨h, rfl, hsame, fun _ hid => hid⟩
  refine ⟨⟨forall_update h.asks (h.asks mEl.2), fun fd id hid => ?_⟩, rfl, ?_, fun id hid => ?_⟩
  · obtain ⟨hlt, hmFD, hepoll⟩ := h.managed fd id hid
    refine ⟨hlt, ?_⟩
    by_cases hsame : id = mEl.2
    · subst hsame
      simp only [Function.update_self, hmFD]
      exact ⟨hmFD, trivial⟩
    · have hne : fd ≠ (c.objects mEl.2).mFD := by
        rintro rfl
        rw [(h.managed _ _ hmanaged).2.1, hmanaged] at hid
        exact hsame (Option.some.inj hid).symm
      simp only [Function.update_of_ne hsame, Function.update_of_ne hne]
      exact ⟨hmFD, hepoll⟩
  · simp only [Function.update_self]
    exact upToDate_update _
  · by_cases hsame : id = mEl.2
    · subst hsame
      simp only [Function.update_self]
      exact upToDate_update _
    · simp only [Function.update_of_ne hsame]
      exact hid

/-- So are all that the loop meets. -/
lemma Consistent.foldlM_updateInterest {els : List (ℤ × ObjId)} (h : c.Consistent)
    (hels : ∀ mEl ∈ els, c.mManagedFD[mEl.1]? = some mEl.2)
    (hstep : els.foldlM Context.updateInterest c = some c') :
    c'.Consistent ∧ c'.mManagedFD = c.mManagedFD ∧ (∀ mEl ∈ els, (c'.objects mEl.2).UpToDate) ∧
      ∀ id, (c.objects id).UpToDate → (c'.objects id).UpToDate := by
  induction els generalizing c with
  | nil =>
      obtain rfl := Option.some.inj hstep
      exact ⟨h, rfl, fun _ hmEl => absurd hmEl List.not_mem_nil, fun _ hid => hid⟩
  | cons mEl els ih =>
      rw [List.foldlM_cons] at hstep
      obtain ⟨c₁, hfirst, hrest⟩ := Option.bind_eq_some_iff.mp hstep
      rw [List.forall_mem_cons] at hels
      obtain ⟨hconsistent, hmanaged, hdone, hstays⟩ := h.updateInterest hels.1 hfirst
      obtain ⟨hconsistent', hmanaged', hdone', hstays'⟩ :=
        ih hconsistent (by rw [hmanaged]; exact hels.2) hrest
      refine ⟨hconsistent', hmanaged'.trans hmanaged, ?_, fun id hid => hstays' id (hstays id hid)⟩
      rw [List.forall_mem_cons]
      exact ⟨hstays' _ hdone, hdone'⟩

/-- The managed descriptors are registered for what their words say. -/
def UpToDate (c : Context) : Prop :=
  ∀ (fd : ℤ) (id : ObjId), c.mManagedFD[fd]? = some id → (c.objects id).UpToDate

/-- **The update** brings all managed descriptors up to date. -/
lemma Consistent.updateAll (h : c.Consistent) (hstep : c.updateAll = some c') :
    c'.Consistent ∧ c'.UpToDate := by
  obtain ⟨hconsistent, hmanaged, hdone, -⟩ := h.foldlM_updateInterest
    (fun mEl hmEl => Std.ExtTreeMap.mem_toList_iff_getElem?_eq_some.mp hmEl) hstep
  refine ⟨hconsistent, fun fd id hid => ?_⟩
  rw [hmanaged] at hid
  exact hdone (fd, id) (Std.ExtTreeMap.mem_toList_iff_getElem?_eq_some.mpr hid)

/-! ### Runs -/

lemma Consistent.handleEvent {event : ℤ × List Action} (h : c.Consistent)
    (hstep : c.handleEvent event = some c') : c'.Consistent := by
  rw [Context.handleEvent] at hstep
  split at hstep
  · obtain rfl := Option.some.inj hstep
    exact h
  · exact Machine.foldlM_keeps (fun _ _ _ hc hact => hc.act hact) h hstep

/-- A turn of the loop that is not interrupted brings all up to date. -/
lemma Consistent.iteration {wait : Option (List (ℤ × List Action))} (h : c.Consistent)
    (hstep : c.iteration wait = some c') :
    c'.Consistent ∧ (c.UpToDate ∨ wait.isSome → c'.UpToDate) := by
  cases wait with
  | none =>
      obtain rfl := Option.some.inj hstep
      exact ⟨h, fun hor => hor.elim id fun hc => Bool.noConfusion hc⟩
  | some events =>
      obtain ⟨c₁, hevents, hupdate⟩ := Option.bind_eq_some_iff.mp hstep
      have h₁ : c₁.Consistent :=
        Machine.foldlM_keeps (fun _ _ _ hc hevent => hc.handleEvent hevent) h hevents
      obtain ⟨hconsistent, hupToDate⟩ := h₁.updateAll hupdate
      exact ⟨hconsistent, fun _ => hupToDate⟩

lemma Consistent.foldlM_iteration {waits : List (Option (List (ℤ × List Action)))}
    (h : c.Consistent) (hstep : waits.foldlM Context.iteration c = some c') :
    c'.Consistent ∧ (c.UpToDate ∨ (∃ wait ∈ waits, wait.isSome) → c'.UpToDate) := by
  induction waits generalizing c with
  | nil =>
      obtain rfl := Option.some.inj hstep
      exact ⟨h, fun hor => hor.elim id fun hc => absurd hc (by simp)⟩
  | cons wait waits ih =>
      rw [List.foldlM_cons] at hstep
      obtain ⟨c₁, hfirst, hrest⟩ := Option.bind_eq_some_iff.mp hstep
      obtain ⟨h₁, hupToDate₁⟩ := h.iteration hfirst
      obtain ⟨hconsistent, hupToDate⟩ := ih h₁ hrest
      refine ⟨hconsistent, fun hor => hupToDate ?_⟩
      rcases hor with hc | ⟨w, hw, hsome⟩
      · exact Or.inl (hupToDate₁ (Or.inl hc))
      · rcases List.mem_cons.mp hw with rfl | hw
        · exact Or.inl (hupToDate₁ (Or.inr hsome))
        · exact Or.inr ⟨w, hw, hsome⟩

/-- At every wait after the first update, a managed descriptor is registered for what is asked. -/
lemma run_registered {setup : List Action} {waits : List (Option (List (ℤ × List Action)))}
    (hrun : run setup waits = some c) (hpass : ∃ wait ∈ waits, wait.isSome) {fd : ℤ}
    (hmanaged : c.mManagedFD[fd]? = some id) :
    (c.objects id).mFD = fd ∧ c.epoll fd = some
      (Descriptor.wanted (c.objects id).suspended (c.objects id).standing ||| EPOLLET) := by
  obtain ⟨c₀, hsetup, hwaits⟩ := Option.bind_eq_some_iff.mp hrun
  have h₀ : c₀.Consistent :=
    Machine.foldlM_keeps (fun _ _ _ hc hact => hc.act hact) consistent_start hsetup
  obtain ⟨hconsistent, hupToDate⟩ := h₀.foldlM_iteration hwaits
  obtain ⟨-, hmFD, hepoll⟩ := hconsistent.managed fd id hmanaged
  have hword : (c.objects id).mIoState = _ := hupToDate (Or.inr hpass) fd id hmanaged
  refine ⟨hmFD, ?_⟩
  rw [hepoll, hword, hconsistent.asks id]

end Context

/-- A registration for `events` includes `flag`. -/
def Includes (events flag : BitVec 32) : Prop := events &&& flag = flag

instance (events flag : BitVec 32) : Decidable (Includes events flag) :=
  inferInstanceAs (Decidable (events &&& flag = flag))

lemma includes_interest (op : Operation) (standing : Bool) :
    Includes (Descriptor.wanted (some op) standing ||| EPOLLET) (op.interest ||| EPOLLET) := by
  cases op <;> cases standing <;> decide

/-- **No lost wake-up**: at every wait after the first update, a managed descriptor is registered
edge triggered for what its suspended operation waits for, and for neither reading nor writing when
there is none and nothing else asked for it. -/
theorem run_noLostWakeup {setup : List Action} {waits : List (Option (List (ℤ × List Action)))}
    {c : Context} (hrun : Context.run setup waits = some c)
    (hpass : ∃ wait ∈ waits, wait.isSome) {fd : ℤ} {id : ObjId}
    (hmanaged : c.mManagedFD[fd]? = some id) :
    (c.objects id).mFD = fd ∧ ∃ events, c.epoll fd = some events ∧
      (∀ op, (c.objects id).suspended = some op → Includes events (op.interest ||| EPOLLET)) ∧
      ((c.objects id).suspended = none → (c.objects id).standing = false →
        ¬ Includes events EPOLLIN ∧ ¬ Includes events EPOLLOUT) := by
  obtain ⟨hmFD, hepoll⟩ := Context.run_registered hrun hpass hmanaged
  refine ⟨hmFD, _, hepoll, fun op hop => ?_, fun hnone hfree => ?_⟩
  · rw [hop]
    exact includes_interest op _
  · rw [hnone, hfree]
    decide

/-- A listener accepts a connection, which receives and then waits to send. -/
def acceptingSetup : List Action := [.register 3 .readonly, .watchRead 0, .await 0 .accept true]

/-- What it waits for meanwhile: the first wait is interrupted. -/
def acceptingWaits : List (Option (List (ℤ × List Action))) :=
  [none,
    some [(3, [.resume 0, .register 4 .both, .await 1 .recv true, .await 0 .accept true])],
    some [(7, [.close 0]), (4, [.resume 1, .await 1 .recv false, .await 1 .send true])]]

/-- The connection waits to send and the listener for the next connection, and both are registered
for it. -/
theorem run_noLostWakeup_accepting :
    ∃ c, Context.run acceptingSetup acceptingWaits = some c ∧
      (c.objects 1).suspended = some .send ∧ (c.objects 0).suspended = some .accept ∧
      (∃ events, c.epoll 4 = some events ∧ Includes events (EPOLLOUT ||| EPOLLET)) ∧
      ∃ events, c.epoll 3 = some events ∧ Includes events (EPOLLIN ||| EPOLLET) := by
  obtain ⟨c, hrun, hmanaged, hmanaged', hsend, haccept⟩ : ∃ c,
      Context.run acceptingSetup acceptingWaits = some c ∧
      c.mManagedFD[(4 : ℤ)]? = some 1 ∧ c.mManagedFD[(3 : ℤ)]? = some 0 ∧
      (c.objects 1).suspended = some .send ∧ (c.objects 0).suspended = some .accept :=
    ⟨_, rfl, by decide +kernel, by decide +kernel, by decide +kernel, by decide +kernel⟩
  have hpass : ∃ wait ∈ acceptingWaits, wait.isSome := by decide
  obtain ⟨-, events, hevents, hall, -⟩ := run_noLostWakeup hrun hpass hmanaged
  obtain ⟨-, events', hevents', hall', -⟩ := run_noLostWakeup hrun hpass hmanaged'
  exact ⟨c, hrun, hsend, haccept, ⟨events, hevents, hall _ hsend⟩, events', hevents',
    hall' _ haccept⟩

end IOContext

end SharedStateAsync
