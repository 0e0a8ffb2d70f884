/-
Where the daemon can wait while it runs hooks.

The pipe to the standard input of a hook is closed before the daemon waits for the hook,
and before it waits for the next connection: the only thing it waits for while it holds
the pipe is room in it.

* `WaitsWell`: what is asked of the calls after which the daemon can wait, and of its
  waiting;
* `HookRely`: what is known of the kernel as long as nobody connects;
* `Holding`, `Keeps`: the daemon's end of the pipe at a point of a run, and coroutines that
  come back to it;
* `wp_execute`, `wp_writeStdIn`, `wp_closeStdIn`: starting a hook opens the pipe, writing
  to it keeps it open, and closing its standard input closes it;
* `keeps_runHooks`, `keeps_notifyHooks`, `keeps_acceptReqSyncConnectionsLoop`: outside of
  these the pipe is closed;
* `waitsAfter_lastCall`: what a daemon that has given way waits for.
-/
import SharedStateAsync.Daemon.HookSystem

namespace SharedStateAsync

open Coro HookSystem

variable {D α β : Type}

/-! ### What is asked of waiting -/

/-- A call after which the daemon can wait while it runs hooks. -/
def SysCall.Blocks : SysCall → Prop
  | .waitpid _ | .accept _ | .write _ _ => True
  | _ => False

/-- The daemon waits for the hook and for connections without the pipe, and writes to
the pipe only; it gives way after such calls only. -/
def WaitsWell (t : Trace D) : Step D → Prop
  | .called _ (.waitpid _) _ => (hookEnds t).stdIn = none
  | .called _ (.accept _) _ => (hookEnds t).stdIn = none ∧ .marked .accepting ∈ t
  | .called _ (.write fd _) _ => (hookEnds t).stdIn = some fd
  | .resumed _ _ => ∃ c, lastCall t = some c ∧ c.Blocks
  | _ => True

/-- The daemon has waited well all along. -/
def WaitedWell (t : Trace D) : Prop := Meets WaitsWell [] t

lemma waitedWell_concat {t : Trace D} {i : Step D} :
    WaitedWell (t ++ [i]) ↔ WaitedWell t ∧ WaitsWell t i := by
  rw [WaitedWell, meets_append, List.nil_append, meets_singleton, WaitedWell]

/-- What is known of the kernel and of the others as long as nobody connects: accepting
fails or would block, the ends of a pipe are new, and there are no others. -/
def HookRely : Rely SysCall Ans (Process D) Mark
  | _, .called _ (.accept _) a => a.isOk = false
  | t, .called m .pipe a => handsOutFresh t m (.called m .pipe a)
  | _, .resumed m m' => m' = m
  | _, _ => True

/-- The daemon has waited well, and `stdIn` is its end of the pipe. -/
structure Holding (stdIn : Option ℤ) (t : Trace D) : Prop where
  waitedWell : WaitedWell t
  stdIn_eq : (hookEnds t).stdIn = stdIn

/-- Whatever happens, the daemon has waited well. -/
abbrev hookWp (p : Io D α) (Q : α → Process D → Trace D → Prop) (m : Process D)
    (t : Trace D) : Prop :=
  wp HookRely (fun _ => WaitedWell) p Q m t

/-- The coroutine leaves the pipe closed if it finds it so. -/
def Keeps (p : Io D α) : Prop :=
  ∀ m t, Holding none t → hookWp p (fun _ _ => Holding none) m t

section Rules

variable {e : Option ℤ} {t : Trace D} {m : Process D}

/-- A step that has nothing to do with the pipe and with waiting. -/
def Step.IsQuiet : Step D → Prop
  | .called _ (.waitpid _) _ | .called _ (.accept _) _ | .called _ (.write _ _) _ => False
  | .called _ (.fork _) _ | .called _ (.close _) _ => False
  | .resumed _ _ => False
  | _ => True

lemma hookEnds_quiet {i : Step D} (hi : i.IsQuiet) :
    ((hookEnds t).after i).stdIn = (hookEnds t).stdIn := by
  cases i with
  | called m c a =>
      cases c with
      | pipe =>
          cases a with
          | ok fds => rfl
          | error e => rfl
      | waitpid pid => exact hi.elim
      | accept fd => exact hi.elim
      | write fd buffer => exact hi.elim
      | fork cmd => exact hi.elim
      | close fd => exact hi.elim
      | _ => rfl
  | resumed m m' => exact hi.elim
  | marked e => rfl

/-- One more step. -/
lemma Holding.concat {i : Step D} {e' : Option ℤ} (h : Holding e t) (hwaits : WaitsWell t i)
    (hafter : ((hookEnds t).after i).stdIn = e') : Holding e' (t ++ [i]) where
  waitedWell := waitedWell_concat.mpr ⟨h.waitedWell, hwaits⟩
  stdIn_eq := by rw [hookEnds_concat, hafter]

lemma Holding.quiet {i : Step D} (h : Holding e t) (hi : i.IsQuiet) : Holding e (t ++ [i]) := by
  refine h.concat ?_ ((hookEnds_quiet hi).trans h.stdIn_eq)
  cases i with
  | called m c a =>
      cases c with
      | waitpid pid => exact hi.elim
      | accept fd => exact hi.elim
      | write fd buffer => exact hi.elim
      | _ => trivial
  | resumed m m' => exact hi.elim
  | marked e => trivial

/-- Closing a descriptor closes the pipe if it was its end. -/
lemma Holding.close (h : Holding e t) (fd : ℤ) (a : Ans (.close fd)) :
    Holding (if e = some fd then none else e) (t ++ [.called m (.close fd) a]) := by
  refine h.concat trivial ?_
  rw [← h.stdIn_eq]
  rfl

/-- The daemon comes back from waiting after a call that can block. -/
lemma Holding.resumed (h : Holding e t) (hlast : ∃ c, lastCall t = some c ∧ c.Blocks) :
    Holding e (t ++ [.resumed m m]) :=
  h.concat hlast h.stdIn_eq

lemma Holding.waitpid (h : Holding none t) (pid : ℤ) (a : Ans (.waitpid pid)) :
    Holding none (t ++ [.called m (.waitpid pid) a]) :=
  h.concat h.stdIn_eq h.stdIn_eq

lemma Holding.write {fd : ℤ} (h : Holding (some fd) t) (buffer : StdString)
    (a : Ans (.write fd buffer)) :
    Holding (some fd) (t ++ [.called m (.write fd buffer) a]) :=
  h.concat h.stdIn_eq h.stdIn_eq

/-! ### Rules -/

lemma hookWp_bind {p : Io D α} {f : α → Io D β} {Q : β → Process D → Trace D → Prop} :
    hookWp (p >>= f) Q m t ↔ hookWp p (fun a => hookWp (f a) Q) m t :=
  wp_bind p f

lemma hookWp_call (c : SysCall) {Q : Ans c → Process D → Trace D → Prop} :
    hookWp (sysCall c) Q m t ↔
      ∀ a, HookRely t (.called m c a) → Q a m (t ++ [.called m c a]) :=
  Iff.rfl

lemma hookWp_memory {Q : Process D → Process D → Trace D → Prop} :
    hookWp memory Q m t ↔ Q m m t :=
  Iff.rfl

lemma hookWp_event (e : Mark) {Q : Unit → Process D → Trace D → Prop} :
    hookWp (event e) Q m t ↔ Q () m (t ++ [.marked e]) :=
  Iff.rfl

/-- There are no others that could change the memory. -/
lemma hookWp_giveWay {Q : Unit → Process D → Trace D → Prop} :
    hookWp giveWay Q m t ↔ Q () m (t ++ [.resumed m m]) := by
  constructor
  · exact fun h => h m rfl
  · rintro h m' rfl
    exact h

lemma keeps_pure (a : α) : Keeps (pure a : Io D α) := fun _ _ h => h

lemma keeps_bind {p : Io D α} {f : α → Io D β} (hp : Keeps p) (hf : ∀ a, Keeps (f a)) :
    Keeps (p >>= f) := by
  intro m t h
  rw [hookWp_bind]
  exact wp_mono (hp m t h) fun a m' t' h' => hf a m' t' h'

lemma keeps_memory : Keeps (memory : Io D (Process D)) := fun _ _ h => h

lemma keeps_setMemory (m' : Process D) : Keeps (setMemory m' : Io D Unit) := fun _ _ h => h

lemma keeps_event (e : Mark) : Keeps (event e : Io D Unit) := fun _ _ h => h.quiet trivial

lemma keeps_exit : Keeps (.exit : Io D α) := fun _ _ h => h.waitedWell

lemma keeps_call {c : SysCall} (hc : ∀ m a, Step.IsQuiet (.called m c a : Step D)) :
    Keeps (sysCall c : Io D (Ans c)) :=
  fun m _ h a _ => h.quiet (hc m a)

lemma keeps_bubble (c : ErrorCondition) (errbub : ErrBub) :
    Keeps (rs_error_bubble_or_exit c errbub : Io D Unit) := by
  cases errbub with
  | null => exact keeps_exit
  | storage => exact keeps_event _

lemma keeps_reportError (errbub : ErrBub) (r : Except Errno α) :
    Keeps (reportError errbub r : Io D Unit) := by
  cases r with
  | ok a => exact keeps_pure ()
  | error e => exact keeps_bubble _ errbub

/-- An attempt has been made: `I` holds, and if it is to be repeated the last call is one
that can block. -/
def Tried (I : Process D → Trace D → Prop) (r : Except Errno α) (m : Process D)
    (t : Trace D) : Prop :=
  I m t ∧ (shouldWait r → ∃ c, lastCall t = some c ∧ c.Blocks)

/-- **Waiting**: what the attempts establish holds after an awaited call. -/
theorem wp_awaitSyscall_tried {I : Process D → Trace D → Prop} {multiShot : Bool}
    {errbub : ErrBub} {syscall : Bool → Io D (Except Errno α)}
    (hresumed : ∀ m t, I m t → (∃ c, lastCall t = some c ∧ c.Blocks) → I m (t ++ [.resumed m m]))
    (hmark : ∀ m t e, I m t → I m (t ++ [.marked e]))
    (hwell : ∀ m t, I m t → WaitedWell t)
    (hfirst : hookWp (syscall false) (Tried I) m t)
    (hagain : ∀ m t, I m t → hookWp (syscall true) (Tried I) m t) :
    hookWp (awaitSyscall multiShot errbub syscall) (fun _ => I) m t := by
  have hreport : ∀ (r : Except Errno α) m t, I m t →
      hookWp (do reportError errbub r; pure r) (fun _ => I) m t := by
    intro r m t h
    cases r with
    | ok a => exact h
    | error e =>
        cases errbub with
        | null => exact hwell m t h
        | storage => exact hmark m t _ h
  rw [awaitSyscall, hookWp_bind]
  refine wp_mono hfirst fun r m' t' htried => ?_
  simp only
  split_ifs with hwait
  · rw [hookWp_bind, hookWp_giveWay, hookWp_bind]
    refine wp_mono (hagain _ _ (hresumed _ _ htried.1 (htried.2 hwait))) ?_
    intro r' m₂ t₂ htried'
    split_ifs with hmulti
    · exact hmark m₂ t₂ _ htried'.1
    · exact hreport r' m₂ t₂ htried'.1
  · exact hreport r m' t' htried.1

/-- The same where the pipe is as it was, and nothing is written to the memory. -/
lemma wp_awaitSyscall_holding {multiShot : Bool} {errbub : ErrBub}
    {syscall : Bool → Io D (Except Errno α)}
    (hfirst : hookWp (syscall false) (Tried fun m' t' => m' = m ∧ Holding e t') m t)
    (hagain : ∀ t, Holding e t →
      hookWp (syscall true) (Tried fun m' t' => m' = m ∧ Holding e t') m t) :
    hookWp (awaitSyscall multiShot errbub syscall) (fun _ m' t' => m' = m ∧ Holding e t') m t := by
  refine wp_awaitSyscall_tried ?_ ?_ ?_ hfirst ?_
  · exact fun m' t' h hlast => ⟨h.1, h.2.resumed hlast⟩
  · exact fun m' t' e h => ⟨h.1, h.2.quiet trivial⟩
  · exact fun m' t' h => h.2.waitedWell
  · rintro m' t' ⟨rfl, h⟩
    exact hagain t' h

end Rules

/-! ### Closing -/

section Closing

variable {e : Option ℤ} {t : Trace D} {m : Process D}

/-- A descriptor is closed without waiting. -/
lemma wp_awaitClose_holding {errbub : ErrBub} (h : Holding e t) (fd : ℤ) :
    hookWp (awaitSyscall false errbub fun _ => closeSyscall fd)
      (fun _ m' t' => m' = m ∧ Holding (if e = some fd then none else e) t') m t := by
  have hdone : ∀ r : Except Errno Unit,
      shouldWait (if shouldWait r then (.ok () : Except Errno Unit) else r) = false := by
    intro r
    split_ifs with hwait
    · rfl
    · simpa using hwait
  refine wp_awaitSyscall_holding ?_ ?_
  · intro a _
    exact ⟨⟨rfl, h.close fd a⟩, fun hwait => absurd ((hdone a).symm.trans hwait) nofun⟩
  · intro t' h' a _
    have hclosed := h'.close (m := m) fd a
    rw [if_neg ?_] at hclosed
    · exact ⟨⟨rfl, hclosed⟩, fun hwait => absurd ((hdone a).symm.trans hwait) nofun⟩
    · split_ifs with hfd
      · exact nofun
      · exact hfd

/-- Closing a descriptor object that is found in the table: no pipe is left open that
was not open, and the one it is the end of is closed. -/
lemma wp_closeAFD_managed {id : ObjId} (h : Holding e t)
    (hmanaged : m.mManagedFD[(m.objects id).mFD]? = some id)
    (he : e = none ∨ e = some (m.objects id).mFD) :
    hookWp (closeAFD (some id) .storage) (fun _ _ => Holding none) m t := by
  have hnone : (if e = some (m.objects id).mFD then none else e) = none := by
    rcases he with rfl | rfl
    · exact if_neg nofun
    · exact if_pos rfl
  rw [closeAFD, hookWp_bind, hookWp_memory]
  simp only [hmanaged, ne_eq, not_true_eq_false, if_false]
  rw [hookWp_bind, hookWp_call]
  intro a _
  have hdel := h.quiet (i := .called m (.epollDel (m.objects id).mFD) a) trivial
  cases a with
  | error e' => exact hdel.waitedWell
  | ok _ =>
      rw [hookWp_bind]
      refine wp_mono (wp_awaitClose_holding hdel _) ?_
      rintro r m' t' ⟨rfl, hclosed⟩
      rw [hnone] at hclosed
      exact keeps_bind (keeps_reportError .storage r) (fun _ => keeps_bind keeps_memory
        fun _ => keeps_bind (keeps_setMemory _) fun _ => keeps_pure _) m' t' hclosed

/-- **Closing a descriptor object** while the pipe is closed. -/
theorem keeps_closeAFD (aFD : Option ObjId) : Keeps (closeAFD aFD .storage : Io D Bool) := by
  intro m t h
  cases aFD with
  | none => exact h.quiet trivial
  | some id =>
      cases hfind : m.mManagedFD[(m.objects id).mFD]? with
      | none =>
          rw [closeAFD, hookWp_bind, hookWp_memory]
          simp only [hfind]
          exact h.quiet trivial
      | some id' =>
          by_cases hid : id' = id
          · subst hid
            exact wp_closeAFD_managed h hfind (Or.inl rfl)
          · rw [closeAFD, hookWp_bind, hookWp_memory]
            simp only [hfind, ne_eq, hid, not_false_eq_true, if_true]
            exact h.waitedWell

lemma keeps_modifyObject (id : ObjId) (f : AsyncFd → AsyncFd) :
    Keeps (modifyObject id f : Io D Unit) :=
  keeps_bind keeps_memory fun _ => keeps_setMemory _

/-- Closing a pipe and forgetting it. -/
lemma keeps_closePipe (pipe : Process D → Option ObjId) (pac : ObjId) (f : AsyncFd → AsyncFd) :
    Keeps (do
      let m ← memory
      let mRet ← closeAFD (pipe m) .storage
      if mRet then modifyObject pac f
      pure mRet : Io D Bool) := by
  refine keeps_bind keeps_memory fun m => keeps_bind (keeps_closeAFD _) fun mRet => ?_
  cases mRet with
  | false => exact keeps_pure _
  | true => exact keeps_bind (keeps_modifyObject pac f) fun _ => keeps_pure _

lemma keeps_closeCommand (pac : ObjId) : Keeps (closeCommand pac .storage : Io D Bool) := by
  have hclose : ∀ (pipe : Option ObjId) (closePipe : Io D Bool), Keeps closePipe →
      Keeps (closeIfSome pipe closePipe) := by
    intro pipe closePipe hp
    cases pipe with
    | none => exact keeps_pure true
    | some id => exact hp
  refine keeps_bind keeps_memory fun m =>
    keeps_bind (hclose _ _ (keeps_closePipe _ pac _)) fun inClosed => ?_
  cases inClosed with
  | false => exact keeps_pure false
  | true =>
      refine keeps_bind keeps_memory fun m =>
        keeps_bind (hclose _ _ (keeps_closePipe _ pac _)) fun outClosed => ?_
      cases outClosed with
      | false => exact keeps_pure false
      | true => exact keeps_bind (keeps_modifyObject pac _) fun _ => keeps_closeAFD _

/-- **Waiting for a hook** happens without the pipe. -/
theorem keeps_waitTermination (pac : ObjId) : Keeps (waitTermination pac .storage : Io D Bool) := by
  refine keeps_bind keeps_memory fun m => keeps_bind ?_ fun r => ?_
  · have htry : ∀ m (t : Trace D), Holding none t →
        hookWp (waitpidSyscall pac) (Tried fun _ => Holding none) m t := by
      intro m t h
      rw [waitpidSyscall, hookWp_bind, hookWp_memory, hookWp_bind, hookWp_call]
      intro a _
      have hblocks : ∃ c, lastCall (t ++ [.called m (.waitpid (m.objects pac).mProcessId) a])
          = some c ∧ c.Blocks := ⟨_, lastCall_called _ _ _ _, trivial⟩
      split
      · exact ⟨h.waitpid _ _, fun _ => hblocks⟩
      · exact ⟨h.waitpid _ _, fun _ => hblocks⟩
    intro m t h
    refine wp_awaitSyscall_tried ?_ ?_ ?_ (htry m t h) htry
    · exact fun m' t' h hlast => h.resumed hlast
    · exact fun m' t' e h => h.quiet trivial
    · exact fun m' t' h => h.waitedWell
  · split_ifs
    · exact keeps_closeCommand pac
    · exact keeps_pure false

end Closing

/-! ### Starting a hook -/

section Starting

variable {e : Option ℤ} {t : Trace D} {m : Process D}

/-- The pipe to the standard input is an object of the command, and is found in the
table. -/
def HasStdIn (m : Process D) (pac : ObjId) (fd : ℤ) : Prop :=
  ∃ id, (m.objects pac).mStdIn = some id ∧ (m.objects id).mFD = fd ∧ m.mManagedFD[fd]? = some id

/-- A pipe that was just registered and entered in the object of the command. -/
lemma hasStdIn_registered (m : Process D) {pac : ObjId} (hpac : pac ≠ m.nextObject) (fd : ℤ)
    (o : AsyncFd) :
    HasStdIn ((m.register fd).setObject pac { o with mStdIn := some m.nextObject }) pac fd := by
  refine ⟨m.nextObject, ?_, ?_, ?_⟩
  · simp [Process.setObject]
  · simp [Process.setObject, Process.register, Function.update_of_ne hpac.symm]
  · simp [Process.setObject, Process.register]

lemma wp_registerFD_holding (h : Holding e t) {fd : ℤ}
    {Q : Option ObjId → Process D → Trace D → Prop}
    (hQ : ∀ t', Holding e t' → Q (some m.nextObject) (m.register fd) t') :
    hookWp (registerFD fd) Q m t := by
  rw [registerFD, hookWp_bind, hookWp_call]
  intro flags _
  have hget := h.quiet (i := .called m (.fcntlGetFl fd) flags) trivial
  cases flags with
  | error e => exact hget.waitedWell
  | ok flags =>
      rw [hookWp_bind, hookWp_call]
      intro r _
      have hset := hget.quiet (i := .called m (.fcntlSetFl fd (flags ||| O_NONBLOCK)) r) trivial
      cases r with
      | error e => exact hset.waitedWell
      | ok _ => exact hQ _ (hset.quiet (i := .marked (.registered m.nextObject)) trivial)

lemma wp_attach_holding (h : Holding e t) {id : ObjId} {Q : Unit → Process D → Trace D → Prop}
    (hQ : ∀ t', Holding e t' → Q () m t') : hookWp (attach id) Q m t := by
  intro r _
  exact hQ _ (h.quiet (i := .called m (.epollAdd (m.objects id).mFD) r) trivial)

/-- Closing descriptors other than the pipe. -/
lemma wp_closeAll_ne {fds : List ℤ} (h : Holding e t) (hfds : ∀ fd ∈ fds, e ≠ some fd)
    {Q : Unit → Process D → Trace D → Prop} (hQ : ∀ t', Holding e t' → Q () m t') :
    hookWp (closeAll fds) Q m t := by
  induction fds generalizing t with
  | nil => exact hQ t h
  | cons fd fds ih =>
      rw [closeAll, hookWp_bind, hookWp_call]
      intro a _
      have hclosed := h.close (m := m) fd a
      rw [if_neg (hfds fd List.mem_cons_self)] at hclosed
      exact ih hclosed fun fd' hfd' => hfds fd' (List.mem_cons_of_mem fd hfd')

/-- Closing all descriptors, the pipe among them. -/
lemma wp_closeAll_mem {fds : List ℤ} (h : Holding e t) (hfds : ∀ fd, e = some fd → fd ∈ fds)
    {Q : Unit → Process D → Trace D → Prop} (hQ : ∀ t', Holding none t' → Q () m t') :
    hookWp (closeAll fds) Q m t := by
  induction fds generalizing t e with
  | nil =>
      refine hQ t ?_
      cases e with
      | none => exact h
      | some fd => exact absurd (hfds fd rfl) List.not_mem_nil
  | cons fd fds ih =>
      rw [closeAll, hookWp_bind, hookWp_call]
      intro a _
      refine ih (h.close fd a) fun fd' hfd' => ?_
      split_ifs at hfd' with heq
      exact (List.mem_cons.mp (hfds fd' hfd')).resolve_left fun hfd => heq (hfd ▸ hfd')

lemma hookWp_modifyObject {id : ObjId} {f : AsyncFd → AsyncFd}
    {Q : Unit → Process D → Trace D → Prop} :
    hookWp (modifyObject id f) Q m t ↔ Q () (m.setObject id (f (m.objects id))) t :=
  Iff.rfl

/-- The objects of a hook that was started; the last one is the pipe to its standard
input. -/
lemma wp_adoptChild {pid childWaitFD parentRead parentWrite : ℤ} (h : Holding e t) :
    hookWp (adoptChild pid childWaitFD parentRead parentWrite)
      (fun r m' t' => Holding e t' ∧ ∃ pac, r = some pac ∧ HasStdIn m' pac parentWrite) m t := by
  rw [adoptChild, hookWp_bind]
  refine wp_registerFD_holding h fun t₁ h₁ => ?_
  rw [hookWp_bind]
  refine wp_attach_holding h₁ fun t₂ h₂ => ?_
  rw [hookWp_bind, hookWp_modifyObject, hookWp_bind]
  refine wp_registerFD_holding h₂ fun t₃ h₃ => ?_
  rw [hookWp_bind, hookWp_modifyObject, hookWp_bind]
  refine wp_attach_holding h₃ fun t₄ h₄ => ?_
  rw [hookWp_bind]
  refine wp_registerFD_holding h₄ fun t₅ h₅ => ?_
  rw [hookWp_bind, hookWp_modifyObject, hookWp_bind]
  refine wp_attach_holding h₅ fun t₆ h₆ => ⟨h₆, m.nextObject, rfl, ?_⟩
  have hpac : m.nextObject ≠ m.nextObject + 1 + 1 := (Nat.lt_succ_of_lt (Nat.lt_succ_self _)).ne
  exact hasStdIn_registered _ hpac _ _

/-- A hook is on: the pipe to its standard input is open and is an object of it. -/
structure Started (pac : ObjId) (fd : ℤ) (m : Process D) (t : Trace D) : Prop where
  holding : Holding (some fd) t
  hasStdIn : HasStdIn m pac fd

/-- The first pipe is open when the second one is made. -/
lemma pipe_ne {fds₁ fds₂ : ℤ × ℤ} (h : HookRely (t ++ [.called m .pipe (.ok fds₁)])
    (.called m .pipe (.ok fds₂))) : fds₂.2 ≠ fds₁.2 := by
  intro heq
  refine (h.2 fds₂.2 (by simp [Step.opens])).notOpen ?_
  exact (mem_openFds_concat rfl).mpr (Or.inr (by simp [Step.opens, heq]))

/-- **Starting a hook** opens the pipe, or leaves it closed if it fails. -/
theorem wp_execute {cmd : StdString} (h : Holding none t) :
    hookWp (execute cmd .storage)
      (fun r m' t' => match r with
        | none => Holding none t'
        | some pac => ∃ fd, Started pac fd m' t') m t := by
  rw [execute, hookWp_bind, hookWp_call]
  intro fds₁ hfds₁
  have h₁ := h.quiet (i := .called m .pipe fds₁) trivial
  cases fds₁ with
  | error e => exact h₁.quiet trivial
  | ok fds₁ =>
      obtain ⟨childRead, parentWrite⟩ := fds₁
      have hne₁ : childRead ≠ parentWrite := by simpa [Step.opens] using hfds₁.1
      rw [hookWp_bind, hookWp_call]
      intro fds₂ hfds₂
      have h₂ := h₁.quiet (i := .called m .pipe fds₂) trivial
      cases fds₂ with
      | error e =>
          rw [hookWp_bind]
          exact wp_closeAll_mem h₂ nofun fun t' h' => h'.quiet trivial
      | ok fds₂ =>
          obtain ⟨parentRead, childWrite⟩ := fds₂
          have hne₂ : childWrite ≠ parentWrite := pipe_ne hfds₂
          rw [hookWp_bind, hookWp_call]
          intro pid _
          cases pid with
          | error e =>
              rw [hookWp_bind]
              have h₃ := h₂.concat (i := .called m (.fork cmd) (.error e)) trivial h₂.stdIn_eq
              exact wp_closeAll_mem h₃ nofun fun t' h' => h'.quiet trivial
          | ok pid =>
              have h₃ : Holding (some parentWrite)
                  (t ++ [.called m .pipe (.ok (childRead, parentWrite))]
                  ++ [.called m .pipe (.ok (parentRead, childWrite))]
                  ++ [.called m (.fork cmd) (.ok pid)]) := by
                refine h₂.concat trivial ?_
                rw [hookEnds_concat, hookEnds_concat]
                rfl
              rw [hookWp_bind, hookWp_call]
              intro childWaitFD _
              have h₄ := h₃.quiet (i := .called m (.pidfdOpen pid) childWaitFD) trivial
              cases childWaitFD with
              | error e =>
                  rw [hookWp_bind]
                  refine wp_closeAll_mem h₄ (fun fd hfd => ?_) fun t' h' => ?_
                  · obtain rfl := Option.some.inj hfd
                    simp
                  · rw [hookWp_bind, hookWp_call]
                    intro r _
                    exact (h'.quiet (i := .called m (.kill pid) r) trivial).quiet trivial
              | ok childWaitFD =>
                  rw [hookWp_bind]
                  refine wp_mono (wp_adoptChild h₄) ?_
                  rintro r m' t' ⟨h₅, pac, rfl, hstdIn⟩
                  rw [hookWp_bind]
                  refine wp_closeAll_ne h₅ (fun fd hfd heq => ?_) fun t'' h₆ => ?_
                  · obtain rfl := Option.some.inj heq
                    rcases List.mem_pair.mp hfd with hfd | hfd
                    · exact hne₁ hfd.symm
                    · exact hne₂ hfd.symm
                  · exact ⟨parentWrite, h₆, hstdIn⟩

end Starting

/-! ### Using a hook -/

section Using

variable {t : Trace D} {m : Process D} {pac : ObjId} {fd : ℤ}

/-- **Writing to a hook**: the daemon waits for room in the pipe only. -/
theorem wp_writeStdIn (h : Started pac fd m t) (buffer : StdString) :
    hookWp (writeStdIn pac buffer .storage) (fun _ => Started pac fd) m t := by
  obtain ⟨id, hid, hfd, hmanaged⟩ := h.hasStdIn
  have htry : ∀ b (t : Trace D), Holding (some fd) t →
      hookWp (do sysCall (.write (← getFD id) b)) (Tried fun m' t' => m' = m ∧ Holding (some fd) t')
        m t := by
    intro b t h
    rw [hookWp_bind]
    show hookWp (sysCall (.write (m.objects id).mFD b)) _ m t
    rw [hfd, hookWp_call]
    intro a _
    exact ⟨⟨rfl, h.write b a⟩, fun _ => ⟨_, lastCall_called _ _ _ _, trivial⟩⟩
  have hloop : ∀ n (t : Trace D), Holding (some fd) t →
      hookWp (writeLoop (fun b => do sysCall (.write (← getFD id) b)) .storage buffer n)
        (fun _ => Started pac fd) m t := by
    intro n
    induction hk : buffer.length - n using Nat.strong_induction_on generalizing n with
    | _ k ih =>
        intro t h
        rw [writeLoop, hookWp_bind]
        refine wp_mono (wp_awaitSyscall_holding (htry _ t h) (htry _)) ?_
        rintro r m' t' ⟨rfl, h'⟩
        have hstarted : Started pac fd m' t' := ⟨h', id, hid, hfd, hmanaged⟩
        cases r with
        | error e => exact hstarted
        | ok l =>
            simp only
            split_ifs with hmore
            · exact ih _ (by omega) (n + l.1) rfl t' h'
            · exact hstarted
  rw [writeStdIn, hookWp_bind, hookWp_memory, hid]
  exact hloop 0 t h.holding

/-- **Closing the standard input** of a hook closes the pipe. -/
theorem wp_closeStdIn (h : Started pac fd m t) :
    hookWp (closeStdIn pac .storage) (fun _ _ => Holding none) m t := by
  obtain ⟨id, hid, hfd, hmanaged⟩ := h.hasStdIn
  rw [closeStdIn, hookWp_bind, hookWp_memory, hookWp_bind]
  rw [← hfd] at hmanaged
  rw [hid]
  refine wp_mono (wp_closeAFD_managed h.holding hmanaged (Or.inr (congrArg some hfd.symm))) ?_
  intro mRet m' t' h'
  cases mRet with
  | false => exact h'
  | true => exact h'

/-- **The hooks of a directory**: between two of them the pipe is closed. -/
theorem keeps_runHooks (tDataStr : StdString) (entries : List (StdString × Option Bool)) :
    Keeps (runHooks tDataStr entries : Io D Unit) := by
  induction entries with
  | nil => exact keeps_pure ()
  | cons entry entries ih =>
      obtain ⟨hookPath, executable⟩ := entry
      cases executable with
      | none => exact ih
      | some executable =>
          cases executable with
          | false => exact ih
          | true =>
              intro m t h
              rw [runHooks, hookWp_bind]
              refine wp_mono (wp_execute h) fun hookCmd m₁ t₁ h₁ => ?_
              cases hookCmd with
              | none => exact ih m₁ t₁ h₁
              | some hookCmd =>
                  obtain ⟨fd, hstarted⟩ := h₁
                  rw [hookWp_bind]
                  refine wp_mono (wp_writeStdIn hstarted tDataStr) fun _ m₂ t₂ h₂ => ?_
                  rw [hookWp_bind]
                  refine wp_mono (wp_closeStdIn h₂) fun _ m₃ t₃ h₃ => ?_
                  exact keeps_bind (keeps_waitTermination hookCmd) (fun _ => ih) m₃ t₃ h₃

lemma keeps_notifyHooks (P : Platform D) (typeName : StdString) (errbub : ErrBub) :
    Keeps (notifyHooks P typeName errbub) := by
  refine keeps_bind (keeps_event _) fun _ => keeps_bind keeps_memory fun m => ?_
  cases m.shared.mStates[typeName]? with
  | none => exact keeps_bind (keeps_bubble _ _) fun _ => keeps_pure false
  | some tState =>
      refine keeps_bind (keeps_call fun _ _ => trivial) fun isDirectory => ?_
      split_ifs
      · exact keeps_pure false
      refine keeps_bind (keeps_call fun _ _ => trivial) fun entries => ?_
      cases entries with
      | none => exact keeps_bind (keeps_call fun _ _ => trivial) fun _ => keeps_pure _
      | some entries => exact keeps_bind (keeps_runHooks _ entries) fun _ => keeps_pure true

/-- **Accepting** without a connection: the loop waits, or the process ends. -/
theorem wp_accept_nobody (listener : ObjId) (h : Holding none t) :
    hookWp (accept listener) (fun _ _ _ => False) m t := by
  have htry : ∀ m (t : Trace D), Holding none t → .marked .accepting ∈ t →
      hookWp (do sysCall (.accept (← getFD listener))) (fun r m' t' => r.isOk = false ∧
        Tried (fun _ t' => Holding none t' ∧ .marked .accepting ∈ t') r m' t') m t := by
    intro m t h hmark
    rw [hookWp_bind]
    show hookWp (sysCall (.accept (m.objects listener).mFD)) _ m t
    rw [hookWp_call]
    intro a ha
    exact ⟨ha, ⟨h.concat ⟨h.stdIn_eq, hmark⟩ h.stdIn_eq, List.mem_append_left _ hmark⟩,
      fun _ => ⟨_, lastCall_called _ _ _ _, trivial⟩⟩
  -- the error goes nowhere, so that the process ends
  have hexit : ∀ (r : Except Errno ℤ) m (t : Trace D), r.isOk = false → WaitedWell t →
      hookWp (do reportError .null r; pure r) (fun _ _ _ => False) m t := by
    intro r m t hr ht
    cases r with
    | ok fd => cases hr
    | error e => exact ht
  rw [accept, hookWp_bind, hookWp_event, hookWp_bind, awaitSyscall, hookWp_bind]
  refine wp_mono (htry m _ (h.quiet trivial) (by simp)) ?_
  rintro r m₁ t₁ ⟨hr, ⟨h₁, hmark₁⟩, hblocks⟩
  split_ifs with hwait
  · rw [hookWp_bind, hookWp_giveWay, hookWp_bind]
    refine wp_mono (htry m₁ _ (h₁.resumed (hblocks hwait)) (List.mem_append_left _ hmark₁)) ?_
    rintro r' m₂ t₂ ⟨hr', ⟨h₂, -⟩, -⟩
    simp only [Bool.false_and, Bool.false_eq_true, if_false]
    exact wp_mono (hexit r' m₂ t₂ hr' h₂.waitedWell) fun _ _ _ hfalse => hfalse.elim
  · exact wp_mono (hexit r m₁ t₁ hr h₁.waitedWell) fun _ _ _ hfalse => hfalse.elim

lemma keeps_acceptReqSyncConnectionsLoop [BEq D] (P : Platform D) (listener : ObjId) (n : ℕ) :
    Keeps (acceptReqSyncConnectionsLoop P listener n) := by
  cases n with
  | zero => exact keeps_pure ()
  | succ n =>
      intro m t h
      rw [acceptReqSyncConnectionsLoop, hookWp_bind]
      exact wp_mono (wp_accept_nobody listener h) fun _ _ _ hfalse => hfalse.elim

end Using

/-! ### What the daemon waits for -/

section Waiting

variable {t : Trace D} {m : Process D} {k : Io D Unit}

/-- Something can always be answered. -/
lemma hookRely_called (t : Trace D) (m : Process D) (c : SysCall) :
    ∃ a, HookRely t (.called m c a) := by
  cases c with
  | accept fd => exact ⟨.error .eagain, rfl⟩
  | pipe => exact ⟨.error .einval, List.nodup_nil, fun fd hfd => absurd hfd List.not_mem_nil⟩
  | _ => exact ⟨quietAnswer _, trivial⟩

/-- The daemon waits for the hook or for a connection, with the pipe closed, or for room
in the pipe. -/
def WaitsAfter (t : Trace D) : SysCall → Prop
  | .waitpid _ => (hookEnds t).stdIn = none
  | .accept _ => (hookEnds t).stdIn = none ∧ .marked .accepting ∈ t
  | .write fd _ => (hookEnds t).stdIn = some fd
  | _ => False

/-- **What a daemon waits for** that has given way. -/
theorem waitsAfter_lastCall (h : hookWp (.suspend k) (fun _ _ => WaitedWell) m t) :
    ∃ c, lastCall t = some c ∧ WaitsAfter t c := by
  have hwell : WaitedWell (t ++ [.resumed m m]) :=
    wp_partial (fun t i ht => (waitedWell_concat.mp ht).1) hookRely_called (fun _ m => ⟨m, rfl⟩)
      (h m rfl)
  obtain ⟨ht, c, hlast, hc⟩ := waitedWell_concat.mp hwell
  obtain ⟨pre, m', a, rfl⟩ := eq_concat_of_lastCall hlast
  have hcall := (waitedWell_concat.mp ht).2
  refine ⟨c, hlast, ?_⟩
  cases c with
  | waitpid pid =>
      rw [WaitsAfter, hookEnds_concat]
      exact hcall
  | accept fd =>
      rw [WaitsAfter, hookEnds_concat]
      exact ⟨hcall.1, List.mem_append_left _ hcall.2⟩
  | write fd buffer =>
      rw [WaitsAfter, hookEnds_concat]
      exact hcall
  | _ => exact hc.elim

end Waiting

end SharedStateAsync
