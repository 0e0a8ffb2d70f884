/-
The statistics file between processes.

The daemon and the command lines of a host all record their sessions in the same file, by
reading it, adding a record and writing it again. Where the file is locked meanwhile, no
record is lost or written twice, in whatever order the processes take their steps.

* `StatKernel`, `statKernel`: the file, and who holds its lock;
* `lockPhase`: how far a process has got with its update;
* `Ledger`: the records a process has written, and those whose calls have all succeeded;
* `guarded_collectStats`: a process reads and writes only while it holds the lock, and it
  writes what it has read and one record more;
* `rules_stat`: so whoever has read the file has read what is in it;
* `NoRecordLost`, `statistics_serial`: the file is what the records lead to, one after the
  other, and among them are those of each process in their order, each that succeeded too.
-/
import SharedStateAsync.Lib.Family
import SharedStateAsync.Session.Statistics

namespace SharedStateAsync

open Coro Relation

variable {ι D : Type}

/-! ### The kernel -/

/-- The statistics file, and the process that holds its lock. -/
structure StatKernel (ι : Type) where
  file : Option StdString
  holder : Option ι

section Kernel

variable [DecidableEq ι]

/-- The process does not hold the lock any more. -/
def StatKernel.release (k : StatKernel ι) (i : ι) : StatKernel ι :=
  { k with holder := if k.holder = some i then none else k.holder }

lemma StatKernel.release_holder_of_ne {k : StatKernel ι} {i j : ι} (hholder : k.holder = some j)
    (hne : j ≠ i) : (k.release i).holder = some j := by
  rw [StatKernel.release, hholder]
  exact if_neg fun heq => hne (Option.some.inj heq)

/-- Who holds the lock after an answer to the process `i`. The lock goes with the
descriptor. -/
def StatKernel.holderStep (k : StatKernel ι) (i : ι) : Step D → Option ι
  | .called _ (.flock _ true) (.ok _) => some i
  | .called _ (.flock _ false) (.ok _) => (k.release i).holder
  | .called _ (.close _) _ => (k.release i).holder
  | _ => k.holder

/-- The lock is granted when nobody holds it, the file can be read, and is read as it is.
A write that opens the file completes; one that does not leaves it. -/
def statKernel (ι D : Type) [DecidableEq ι] :
    SharedKernel ι (StatKernel ι) SysCall Ans (Process D) Mark where
  allows := fun _ k _ item => match item with
    | .called _ (.flock _ true) r => r.isOk → k.holder = none
    | .called _ (.readFile path) text => path = SHARED_STATE_NET_STAT_FILE_PATH → text = k.file
    | _ => True
  effect := fun i k item => ⟨statFileStep k.file item, k.holderStep i item⟩
  ends := fun i k => k.release i

end Kernel

/-! ### What a process has done -/

/-- How far a process has got with its update. -/
inductive LockPhase where
  | unlocked
  | locked
  | updating (text : Option StdString)
  | updated
  deriving DecidableEq

def lockPhaseStep (phase : LockPhase) : Step D → LockPhase
  | .called _ (.flock _ true) (.ok _) => .locked
  | .called _ (.flock _ false) (.ok _) => .unlocked
  | .called _ (.readFile _) text => if phase = .locked then .updating text else phase
  | .called _ (.writeFile _ _) true => .updated
  | _ => phase

/-- The phase after a run. -/
def lockPhase (t : Trace D) : LockPhase := t.foldl lockPhaseStep .unlocked

/-- The times at which a process has called `collectStat`, and the records it has written. -/
structure Ledger where
  times : List ℤ := []
  calls : List (StdString × NetworkStats) := []
  /-- A system call of the call that was made last has failed. -/
  failed : Bool := false
  /-- The records of the calls that have come to their end without such a failure. -/
  succeeded : List (StdString × NetworkStats) := []

/-- The record is the last one written, if no system call has failed. -/
def Ledger.Written (l : Ledger) (record : StdString × NetworkStats) : Prop :=
  l.failed = false → ∃ calls, l.calls = calls ++ [record] ∧ l.succeeded.Sublist calls

/-- The record of the call that was made last. -/
def Platform.lastCall (P : Platform D) (netStats : List NetworkStats) (times : List ℤ) :
    StdString × NetworkStats :=
  P.statRecord (netStats[times.length - 1]?.getD {}) (times.getLast?.getD 0)

def Platform.ledgerStep (P : Platform D) (netStats : List NetworkStats) (l : Ledger) :
    Step D → Ledger
  | .called _ .steadyClock tNow => { l with times := l.times ++ [tNow], failed := false }
  | .called _ (.writeFile _ _) true => { l with calls := l.calls ++ [P.lastCall netStats l.times] }
  | .called _ (.close _) (.ok _) =>
      { l with succeeded := l.succeeded ++ if l.failed then [] else [P.lastCall netStats l.times] }
  | .called _ (.openFile _) (.error _) | .called _ (.flock _ _) (.error _)
  | .called _ (.writeFile _ _) false | .called _ (.close _) (.error _) => { l with failed := true }
  | _ => l

/-- The ledger of a process that records `netStats`, one after the other. -/
def Platform.ledger (P : Platform D) (netStats : List NetworkStats) (t : Trace D) : Ledger :=
  t.foldl (P.ledgerStep netStats) {}

/-- What one more record makes of the file. -/
def Platform.nextText (P : Platform D) (text : StdString) (call : StdString × NetworkStats) :
    StdString :=
  P.statsText (pushStat (P.loadStats text) call.1 call.2)

/-- A process reads the file when it has just got the lock, it writes what it has read then
and the record of its last call, and it closes the file when it has done so, if it could, and
the lock is released. -/
def Platform.statDuties (P : Platform D) (netStats : List NetworkStats) :
    Duties SysCall Ans (Process D) Mark where
  call := fun t _ c => match c with
    | .readFile path => path = SHARED_STATE_NET_STAT_FILE_PATH ∧ lockPhase t = .locked
    | .writeFile path content => path = SHARED_STATE_NET_STAT_FILE_PATH ∧
        ∃ text, lockPhase t = .updating text ∧
          content = P.nextText (text.getD []) (P.lastCall netStats (P.ledger netStats t).times)
    | .close _ => lockPhase t = .unlocked ∧
        (P.ledger netStats t).Written (P.lastCall netStats (P.ledger netStats t).times)
    | _ => True

section Process

variable {P : Platform D} {netStats : List NetworkStats} {t : Trace D} {m : Process D}
  {errbub : ErrBub} {item : Step D}

lemma lockPhase_concat (t : Trace D) (item : Step D) :
    lockPhase (t ++ [item]) = lockPhaseStep (lockPhase t) item := by
  rw [lockPhase, List.foldl_concat, lockPhase]

lemma ledger_concat (t : Trace D) (item : Step D) :
    P.ledger netStats (t ++ [item]) = P.ledgerStep netStats (P.ledger netStats t) item := by
  rw [Platform.ledger, List.foldl_concat, Platform.ledger]

/-- What is written stays written. -/
lemma calls_ledgerStep (l : Ledger) (item : Step D) :
    l.calls <+: (P.ledgerStep netStats l item).calls := by
  unfold Platform.ledgerStep
  split
  · exact List.prefix_rfl
  · exact List.prefix_append _ _
  all_goals exact List.prefix_rfl

/-- The process has called `collectStat` so often, and is `phase`. -/
structure StatPoint (P : Platform D) (netStats : List NetworkStats) (times : List ℤ)
    (phase : LockPhase) (t : Trace D) : Prop where
  times_eq : (P.ledger netStats t).times = times
  phase_eq : lockPhase t = phase
  recorded : (P.ledger netStats t).succeeded.Sublist (P.ledger netStats t).calls

variable {times : List ℤ} {phase phase' : LockPhase}

/-- A step that is no clock reading and closes nothing. -/
lemma StatPoint.concat (h : StatPoint P netStats times phase t)
    (htimes : ∀ l, (P.ledgerStep netStats l item).times = l.times)
    (hsucceeded : ∀ l, (P.ledgerStep netStats l item).succeeded = l.succeeded)
    (hphase : lockPhaseStep phase item = phase') :
    StatPoint P netStats times phase' (t ++ [item]) where
  times_eq := by rw [ledger_concat, htimes, h.times_eq]
  phase_eq := by rw [lockPhase_concat, h.phase_eq, hphase]
  recorded := by
    rw [ledger_concat, hsucceeded]
    exact h.recorded.trans (calls_ledgerStep _ _).sublist

/-- The record of the call is written. -/
lemma StatPoint.written (h : StatPoint P netStats times phase t) {path content : StdString} :
    (P.ledger netStats (t ++ [.called m (.writeFile path content) true])).Written
      (P.lastCall netStats times) := by
  rw [ledger_concat, ← h.times_eq]
  exact fun _ => ⟨(P.ledger netStats t).calls, rfl, h.recorded⟩

/-- The records that have succeeded, when the file is closed. -/
lemma recorded_close (m : Process D) (fd : ℤ)
    (hwritten : (P.ledger netStats t).Written
      (P.lastCall netStats (P.ledger netStats t).times))
    (h : (P.ledger netStats t).succeeded.Sublist (P.ledger netStats t).calls) :
    (P.ledger netStats (t ++ [.called m (.close fd) (.ok ())])).succeeded.Sublist
      (P.ledger netStats (t ++ [.called m (.close fd) (.ok ())])).calls := by
  rw [ledger_concat]
  change (_ ++ if _ then [] else _).Sublist _
  cases hfailed : (P.ledger netStats t).failed with
  | true =>
      rw [if_pos rfl, List.append_nil]
      exact h
  | false =>
      obtain ⟨calls, hcalls, hsub⟩ := hwritten hfailed
      rw [if_neg Bool.false_ne_true, show (P.ledgerStep netStats (P.ledger netStats t)
        (.called m (.close fd) (.ok ()))).calls = _ from hcalls]
      exact hsub.append (List.Sublist.refl _)

/-- The file is closed. -/
lemma StatPoint.close (h : StatPoint P netStats times .unlocked t) {m : Process D} {fd : ℤ}
    (hwritten : (P.ledger netStats t).Written
      (P.lastCall netStats (P.ledger netStats t).times)) :
    StatPoint P netStats times .unlocked (t ++ [.called m (.close fd) (.ok ())]) where
  times_eq := by rw [ledger_concat]; exact h.times_eq
  phase_eq := by rw [lockPhase_concat, h.phase_eq]; rfl
  recorded := recorded_close m fd hwritten h.recorded

/-- The clock is read at the start of a call. -/
lemma StatPoint.clock (h : StatPoint P netStats times phase t) (tNow : ℤ) :
    StatPoint P netStats (times ++ [tNow]) phase (t ++ [.called m .steadyClock tNow]) where
  times_eq := by
    rw [ledger_concat]
    exact congrArg (· ++ [tNow]) h.times_eq
  phase_eq := by
    rw [lockPhase_concat, h.phase_eq]
    rfl
  recorded := by
    rw [ledger_concat]
    exact h.recorded

/-- The call is the next one. -/
lemma lastCall_concat {netStat : NetworkStats} (hnetStat : netStats[times.length]? = some netStat)
    (tNow : ℤ) : P.lastCall netStats (times ++ [tNow]) = P.statRecord netStat tNow := by
  rw [Platform.lastCall, List.length_append, List.length_singleton, Nat.add_sub_cancel, hnetStat,
    List.getLast?_concat]
  rfl

lemma guarded_bubble_stat (c : ErrorCondition) (h : StatPoint P netStats times phase t) :
    guarded (P.statDuties netStats) (rs_error_bubble_or_exit c errbub)
      (fun _ _ t' => StatPoint P netStats times phase t' ∧
        P.ledger netStats t' = P.ledger netStats t) m t := by
  cases errbub with
  | null => trivial
  | storage =>
      exact ⟨trivial, h.concat (fun _ => rfl) (fun _ => rfl) rfl, ledger_concat t _⟩

/-- The update, while the lock is held. -/
lemma guarded_updateStats (hempty : P.loadStats [] = ∅) {netStat : NetworkStats} {tNow : ℤ}
    (hcall : P.lastCall netStats times = P.statRecord netStat tNow)
    (h : StatPoint P netStats times .locked t) :
    guarded (P.statDuties netStats)
      (updateStats P (P.statRecord netStat tNow).1 (P.statRecord netStat tNow).2 errbub)
      (fun _ _ t' => ∃ phase, StatPoint P netStats times phase t' ∧
        (P.ledger netStats t').Written (P.lastCall netStats times)) m t := by
  rw [updateStats_eq, guarded_bind, guarded_call]
  refine ⟨⟨rfl, h.phase_eq⟩, fun text _ => ?_⟩
  have h₁ : StatPoint P netStats times (.updating text)
      (t ++ [.called m (.readFile SHARED_STATE_NET_STAT_FILE_PATH) text]) :=
    h.concat (fun _ => rfl) (fun _ => rfl) rfl
  have hread : P.statsIn text = P.loadStats (text.getD []) := by
    cases text with
    | none => exact hempty.symm
    | some text => rfl
  rw [guarded_bind, guarded_call]
  refine ⟨⟨rfl, text, h₁.phase_eq, ?_⟩, fun isOpen _ => ?_⟩
  · rw [h₁.times_eq, hcall, hread]
    rfl
  · cases isOpen with
    | true =>
        rw [if_pos rfl]
        exact ⟨_, h₁.concat (fun _ => rfl) (fun _ => rfl) rfl, h₁.written⟩
    | false =>
        rw [if_neg (by decide)]
        have h₂ : ∀ content, StatPoint P netStats times (.updating text) (t
            ++ [.called m (.readFile SHARED_STATE_NET_STAT_FILE_PATH) text]
            ++ [.called m (.writeFile SHARED_STATE_NET_STAT_FILE_PATH content) false]) :=
          fun _ => h₁.concat (fun _ => rfl) (fun _ => rfl) rfl
        refine guarded_mono (guarded_bubble_stat _ (h₂ _)) fun _ _ t' h' => ⟨_, h'.1, fun hok => ?_⟩
        rw [h'.2, ledger_concat] at hok
        cases hok

/-- A call that failed and is reported. -/
lemma guarded_reported_stat (e : Errno) (h : StatPoint P netStats times phase t) :
    guarded (P.statDuties netStats) (do
      rs_error_bubble_or_exit (.errno e) errbub
      pure false : Io D Bool) (fun _ _ t' => ∃ phase, StatPoint P netStats times phase t') m t := by
  rw [guarded_bind]
  exact guarded_mono (guarded_bubble_stat _ h) fun _ _ _ h' => ⟨_, h'.1⟩

/-- After the update the lock is released, and the descriptor closed. -/
lemma guarded_unlock_stat (openRet : ℤ) (h : StatPoint P netStats times phase t)
    (hwritten : (P.ledger netStats t).Written (P.lastCall netStats times)) :
    guarded (P.statDuties netStats) (do
      match ← sysCall (.flock openRet false) with
      | .error e =>
          rs_error_bubble_or_exit (.errno e) errbub
          return false
      | .ok _ =>
          match ← sysCall (.close openRet) with
          | .error e =>
              rs_error_bubble_or_exit (.errno e) errbub
              return false
          | .ok _ => return true : Io D Bool)
      (fun _ _ t' => ∃ phase, StatPoint P netStats times phase t') m t := by
  rw [guarded_bind, guarded_call]
  refine ⟨trivial, fun unlocked _ => ?_⟩
  cases unlocked with
  | error e => exact guarded_reported_stat e (h.concat (fun _ => rfl) (fun _ => rfl) rfl)
  | ok _ =>
      have h₁ : StatPoint P netStats times .unlocked
          (t ++ [.called m (.flock openRet false) (.ok ())]) :=
        h.concat (fun _ => rfl) (fun _ => rfl) rfl
      have hledger : P.ledger netStats (t ++ [.called m (.flock openRet false) (.ok ())])
          = P.ledger netStats t := ledger_concat t _
      have hwritten₁ := hledger ▸ hwritten
      rw [guarded_bind, guarded_call]
      refine ⟨⟨h₁.phase_eq, by rw [h₁.times_eq]; exact hwritten₁⟩, fun closed _ => ?_⟩
      cases closed with
      | error e => exact guarded_reported_stat e (h₁.concat (fun _ => rfl) (fun _ => rfl) rfl)
      | ok _ => exact ⟨_, h₁.close (by rw [h₁.times_eq]; exact hwritten₁)⟩

/-- **One call** of `collectStat`. -/
lemma guarded_collectStat (hlock : P.statFileLocking = true) (hempty : P.loadStats [] = ∅)
    {netStat : NetworkStats} (hnetStat : netStats[times.length]? = some netStat)
    (h : StatPoint P netStats times phase t) :
    guarded (P.statDuties netStats) (collectStat P netStat errbub)
      (fun _ _ t' => ∃ tNow phase, StatPoint P netStats (times ++ [tNow]) phase t') m t := by
  rw [collectStat, guarded_bind, guarded_call]
  refine ⟨trivial, fun tNow _ => ?_⟩
  have h₁ := h.clock (m := m) tNow
  rw [hlock, if_neg (by decide), guarded_bind, guarded_call]
  refine ⟨trivial, fun openRet _ => ?_⟩
  cases openRet with
  | error e =>
      exact guarded_mono (guarded_reported_stat e (h₁.concat (fun _ => rfl) (fun _ => rfl) rfl))
        fun _ _ _ h' => ⟨tNow, h'⟩
  | ok openRet =>
      have h₂ : StatPoint P netStats (times ++ [tNow]) phase (t ++ [.called m .steadyClock tNow]
          ++ [.called m (.openFile SHARED_STATE_NET_STAT_FILE_PATH) (.ok openRet)]) :=
        h₁.concat (fun _ => rfl) (fun _ => rfl) rfl
      simp only
      rw [guarded_bind, guarded_call]
      refine ⟨trivial, fun locked _ => ?_⟩
      cases locked with
      | error e =>
          exact guarded_mono (guarded_reported_stat e (h₂.concat (fun _ => rfl) (fun _ => rfl) rfl))
            fun _ _ _ h' => ⟨tNow, h'⟩
      | ok _ =>
          have h₃ : StatPoint P netStats (times ++ [tNow]) .locked (t
              ++ [.called m .steadyClock tNow]
              ++ [.called m (.openFile SHARED_STATE_NET_STAT_FILE_PATH) (.ok openRet)]
              ++ [.called m (.flock openRet true) (.ok ())]) :=
            h₂.concat (fun _ => rfl) (fun _ => rfl) rfl
          simp only
          rw [guarded_bind]
          refine guarded_mono (guarded_updateStats hempty (lastCall_concat hnetStat tNow) h₃) ?_
          rintro _ m₄ t₄ ⟨phase₄, h₄, hwritten⟩
          exact guarded_mono (guarded_unlock_stat openRet h₄ hwritten) fun _ _ _ h' => ⟨tNow, h'⟩

/-- **Any number of calls.** -/
theorem guarded_collectStats (hlock : P.statFileLocking = true) (hempty : P.loadStats [] = ∅)
    {rest : List NetworkStats} (hrest : netStats.drop times.length = rest)
    (h : StatPoint P netStats times phase t) :
    guarded (P.statDuties netStats) (collectStats P errbub rest) (fun _ _ _ => True) m t := by
  induction rest generalizing times phase m t with
  | nil => trivial
  | cons netStat rest ih =>
      rw [collectStats, guarded_bind]
      have hnetStat : netStats[times.length]? = some netStat := by
        rw [← List.head?_drop, hrest]
        rfl
      refine guarded_mono (guarded_collectStat hlock hempty hnetStat h) ?_
      rintro _ m₁ t₁ ⟨tNow, phase₁, h₁⟩
      refine ih ?_ h₁
      rw [List.length_append, List.length_singleton, ← List.drop_drop, hrest]
      rfl

end Process

/-! ### All processes -/

section Processes

variable [DecidableEq ι] {P : Platform D} {netStats : ι → List NetworkStats} {text₀ : StdString}
  {k k' : StatKernel ι} {ended : ι → Bool} {ts : ι → Trace D} {i : ι} {item : Step D}

/-- The file is what the records lead to, one after the other, and each process has written
its own among them. -/
def Serial (P : Platform D) (netStats : ι → List NetworkStats) (text₀ : StdString)
    (file : Option StdString) (ts : ι → Trace D) : Prop :=
  ∃ history : List (ι × StdString × NetworkStats),
    file.getD [] = history.foldl (fun text call => P.nextText text call.2) text₀ ∧
    ∀ i, (history.filter fun call => call.1 = i).map Prod.snd
      = (P.ledger (netStats i) (ts i)).calls

/-- Whoever updates the file holds the lock, and has read what is in it. -/
structure StatInv (P : Platform D) (netStats : ι → List NetworkStats) (text₀ : StdString)
    (k : StatKernel ι) (ended : ι → Bool) (ts : ι → Trace D) : Prop where
  holder : ∀ i, ended i = false → lockPhase (ts i) ≠ .unlocked → k.holder = some i
  read : ∀ i text, ended i = false → lockPhase (ts i) = .updating text →
    text.getD [] = k.file.getD []
  serial : Serial P netStats text₀ k.file ts

lemma StatInv.eq_of_holds (h : StatInv P netStats text₀ k ended ts) {j : ι}
    (hi : ended i = false) (hphase : lockPhase (ts i) ≠ .unlocked) (hj : ended j = false)
    (hphase' : lockPhase (ts j) ≠ .unlocked) : j = i :=
  Option.some.inj ((h.holder j hj hphase').symm.trans (h.holder i hi hphase))

/-- One more item of the process `i`. -/
lemma StatInv.of_step (h : StatInv P netStats text₀ k ended ts)
    (hself : lockPhaseStep (lockPhase (ts i)) item ≠ .unlocked → k'.holder = some i)
    (hread : ∀ text, lockPhaseStep (lockPhase (ts i)) item = .updating text →
      text.getD [] = k'.file.getD [])
    (hother : ∀ j, j ≠ i → ended j = false → lockPhase (ts j) ≠ .unlocked →
      k'.holder = some j ∧ k'.file.getD [] = k.file.getD [])
    (hserial : Serial P netStats text₀ k'.file (Function.update ts i (ts i ++ [item]))) :
    StatInv P netStats text₀ k' ended (Function.update ts i (ts i ++ [item])) where
  holder := by
    intro j hj hphase
    by_cases hji : j = i
    · subst hji
      rw [Function.update_self, lockPhase_concat] at hphase
      exact hself hphase
    · rw [Function.update_of_ne hji] at hphase
      exact (hother j hji hj hphase).1
  read := by
    intro j text hj hphase
    by_cases hji : j = i
    · subst hji
      rw [Function.update_self, lockPhase_concat] at hphase
      exact hread text hphase
    · rw [Function.update_of_ne hji] at hphase
      have hne : lockPhase (ts j) ≠ .unlocked := by
        rw [hphase]
        exact LockPhase.noConfusion
      rw [(hother j hji hj hne).2]
      exact h.read j text hj hphase
  serial := hserial

/-- An item that is no write leaves the records. -/
lemma Serial.quiet (h : Serial P netStats text₀ k.file ts) {file : Option StdString}
    (hfile : file.getD [] = k.file.getD [])
    (hcalls : ∀ l, (P.ledgerStep (netStats i) l item).calls = l.calls) :
    Serial P netStats text₀ file (Function.update ts i (ts i ++ [item])) := by
  obtain ⟨history, htext, hown⟩ := h
  refine ⟨history, hfile.trans htext, fun j => ?_⟩
  by_cases hji : j = i
  · subst hji
    rw [Function.update_self, ledger_concat, hcalls]
    exact hown j
  · rw [Function.update_of_ne hji]
    exact hown j

/-- An item that changes neither the phase nor the lock nor the file. -/
lemma StatInv.quiet (h : StatInv P netStats text₀ k ended ts) (halive : ended i = false)
    (hphase : ∀ phase, lockPhaseStep phase item = phase) (hholder : k'.holder = k.holder)
    (hfile : k'.file.getD [] = k.file.getD [])
    (hcalls : ∀ l, (P.ledgerStep (netStats i) l item).calls = l.calls) :
    StatInv P netStats text₀ k' ended (Function.update ts i (ts i ++ [item])) := by
  refine h.of_step ?_ ?_ (fun j _ hj hphase' => ⟨hholder.trans (h.holder j hj hphase'), hfile⟩)
    (h.serial.quiet hfile hcalls)
  · rw [hphase, hholder]
    exact h.holder i halive
  · intro text htext
    rw [hphase] at htext
    rw [hfile]
    exact h.read i text halive htext

/-- The lock is granted. -/
lemma StatInv.lock (h : StatInv P netStats text₀ k ended ts) (hfree : k.holder = none)
    {m : Process D} {fd : ℤ} :
    StatInv P netStats text₀ ⟨k.file, some i⟩ ended
      (Function.update ts i (ts i ++ [.called m (.flock fd true) (.ok ())])) := by
  refine h.of_step (fun _ => rfl) (by rintro text ⟨⟩) (fun j _ hj hphase => ?_)
    (h.serial.quiet rfl fun _ => rfl)
  have hholder := h.holder j hj hphase
  rw [hfree] at hholder
  cases hholder

/-- The process `i` gives the lock back. -/
lemma StatInv.release (h : StatInv P netStats text₀ k ended ts)
    (hphase : lockPhaseStep (lockPhase (ts i)) item = .unlocked)
    (hcalls : ∀ l, (P.ledgerStep (netStats i) l item).calls = l.calls) :
    StatInv P netStats text₀ ⟨k.file, (k.release i).holder⟩ ended
      (Function.update ts i (ts i ++ [item])) := by
  refine h.of_step (fun hne => absurd hphase hne) (fun text htext => ?_)
    (fun j hji hj hphase' => ⟨StatKernel.release_holder_of_ne (h.holder j hj hphase') hji, rfl⟩)
    (h.serial.quiet rfl hcalls)
  rw [hphase] at htext
  cases htext

/-- The file is read, by the one who holds the lock. -/
lemma StatInv.readFile (h : StatInv P netStats text₀ k ended ts) (halive : ended i = false)
    (hlocked : lockPhase (ts i) = .locked) {m : Process D} :
    StatInv P netStats text₀ k ended (Function.update ts i
      (ts i ++ [.called m (.readFile SHARED_STATE_NET_STAT_FILE_PATH) k.file])) := by
  have hne : lockPhase (ts i) ≠ .unlocked := by
    rw [hlocked]
    exact LockPhase.noConfusion
  refine h.of_step (fun _ => h.holder i halive hne) (fun text htext => ?_)
    (fun j _ hj hphase => ⟨h.holder j hj hphase, rfl⟩) (h.serial.quiet rfl fun _ => rfl)
  rw [hlocked, lockPhaseStep, if_pos rfl] at htext
  rw [← LockPhase.updating.inj htext]

/-- The file is written, by the one who has read it. -/
lemma StatInv.writeFile (h : StatInv P netStats text₀ k ended ts) (halive : ended i = false)
    {text : Option StdString} (hphase : lockPhase (ts i) = .updating text) {m : Process D}
    {content : StdString} (hcontent : content = P.nextText (text.getD [])
      (P.lastCall (netStats i) (P.ledger (netStats i) (ts i)).times)) :
    StatInv P netStats text₀ ⟨some content, k.holder⟩ ended (Function.update ts i
      (ts i ++ [.called m (.writeFile SHARED_STATE_NET_STAT_FILE_PATH content) true])) := by
  have hne : lockPhase (ts i) ≠ .unlocked := by
    rw [hphase]
    exact LockPhase.noConfusion
  refine h.of_step (fun _ => h.holder i halive hne) (by rintro text' ⟨⟩)
    (fun j hji hj hphase' => absurd (h.eq_of_holds halive hne hj hphase') hji) ?_
  obtain ⟨history, htext, hown⟩ := h.serial
  refine ⟨history ++ [(i, P.lastCall (netStats i) (P.ledger (netStats i) (ts i)).times)], ?_,
    fun j => ?_⟩
  · rw [List.foldl_concat, ← htext, ← h.read i text halive hphase]
    exact hcontent
  · rw [List.filter_append, List.map_append, hown j]
    by_cases hji : j = i
    · subst hji
      rw [Function.update_self, ledger_concat]
      simp [Platform.ledgerStep]
    · rw [Function.update_of_ne hji]
      simp [Ne.symm hji]

/-- An item that opens the file, or is none of its calls. -/
lemma statFileStep_getD (file : Option StdString)
    (hitem : ∀ m path content opened, item ≠ .called m (.writeFile path content) opened) :
    (statFileStep file item).getD [] = file.getD [] := by
  cases item with
  | called m c a =>
      cases c with
      | writeFile path content => exact absurd rfl (hitem m path content a)
      | openFile path =>
          cases a with
          | error e => rfl
          | ok fd =>
              rw [statFileStep]
              split_ifs
              · rfl
              · rfl
      | _ => rfl
  | _ => rfl

/-- **Every answer keeps it so.** -/
lemma StatInv.answered (h : StatInv P netStats text₀ k ended ts) (halive : ended i = false)
    (howed : Config.owed (P.statDuties (netStats i)) (ts i) item)
    (hallows : (statKernel ι D).allows i k (ts i) item) :
    StatInv P netStats text₀ ((statKernel ι D).effect i k item) ended
      (Function.update ts i (ts i ++ [item])) := by
  cases item with
  | resumed m m' => exact h.quiet halive (fun _ => rfl) rfl rfl fun _ => rfl
  | marked e => exact h.quiet halive (fun _ => rfl) rfl rfl fun _ => rfl
  | called m c a =>
      cases c with
      | flock fd exclusive =>
          cases a with
          | error e =>
              cases exclusive with
              | true => exact h.quiet halive (fun _ => rfl) rfl rfl fun _ => rfl
              | false => exact h.quiet halive (fun _ => rfl) rfl rfl fun _ => rfl
          | ok _ =>
              cases exclusive with
              | true => exact h.lock (hallows rfl)
              | false => exact h.release rfl fun _ => rfl
      | close fd =>
          refine h.release howed.1 fun _ => ?_
          cases a with
          | error e => rfl
          | ok _ => rfl
      | readFile path =>
          obtain ⟨rfl, hlocked⟩ := howed
          obtain rfl : a = k.file := hallows rfl
          exact h.readFile halive hlocked
      | writeFile path content =>
          cases a with
          | false =>
              refine h.quiet halive (fun _ => rfl) rfl ?_ fun _ => rfl
              have hfile : statFileStep k.file (.called m (.writeFile path content) false)
                  = k.file := if_neg fun hopened => by cases hopened.2
              exact congrArg (Option.getD · []) hfile
          | true =>
              obtain ⟨rfl, text, hphase, hcontent⟩ := howed
              have hfile : statFileStep k.file (.called m
                  (.writeFile SHARED_STATE_NET_STAT_FILE_PATH content) true) = some content :=
                if_pos ⟨rfl, rfl⟩
              have heffect : (statKernel ι D).effect i k (.called m
                  (.writeFile SHARED_STATE_NET_STAT_FILE_PATH content) true)
                  = ⟨some content, k.holder⟩ := congrArg (StatKernel.mk · k.holder) hfile
              rw [heffect]
              exact h.writeFile halive hphase hcontent
      | openFile path =>
          refine h.quiet halive (fun _ => rfl) rfl ?_ fun _ => ?_
          · exact statFileStep_getD _ (by rintro _ _ _ _ ⟨⟩)
          · cases a with
            | error e => rfl
            | ok _ => rfl
      | _ => exact h.quiet halive (fun _ => rfl) rfl rfl fun _ => rfl

lemma rules_stat (P : Platform D) (netStats : ι → List NetworkStats) (text₀ : StdString) :
    Family.Rules (statKernel ι D) (fun i => P.statDuties (netStats i))
      (StatInv P netStats text₀) where
  answered := fun i item h halive howed hallows => h.answered halive howed hallows
  marked := fun i e h halive => h.quiet halive (fun _ => rfl) rfl rfl fun _ => rfl
  rely := fun _ _ _ _ _ _ => trivial
  ends := by
    intro k ended ts i h
    refine ⟨fun j hj hphase => ?_, fun j text hj hphase => ?_, h.serial⟩
    · by_cases hji : j = i
      · subst hji
        rw [Function.update_self] at hj
        cases hj
      · rw [Function.update_of_ne hji] at hj
        exact StatKernel.release_holder_of_ne (h.holder j hj hphase) hji
    · by_cases hji : j = i
      · subst hji
        rw [Function.update_self] at hj
        cases hj
      · rw [Function.update_of_ne hji] at hj
        exact h.read j text hj hphase

/-- The records of the calls that have succeeded are among those that were written. -/
def Recorded (P : Platform D) (netStats : ι → List NetworkStats) (_ : StatKernel ι)
    (_ : ι → Bool) (ts : ι → Trace D) : Prop :=
  ∀ i, (P.ledger (netStats i) (ts i)).succeeded.Sublist (P.ledger (netStats i) (ts i)).calls

lemma Recorded.concat (h : Recorded P netStats k ended ts)
    (hself : (P.ledger (netStats i) (ts i ++ [item])).succeeded.Sublist
      (P.ledger (netStats i) (ts i ++ [item])).calls) :
    Recorded P netStats k' ended (Function.update ts i (ts i ++ [item])) := by
  intro j
  by_cases hji : j = i
  · subst hji
    rw [Function.update_self]
    exact hself
  · rw [Function.update_of_ne hji]
    exact h j

/-- An item that closes nothing. -/
lemma Recorded.quiet (h : Recorded P netStats k ended ts)
    (hsucceeded : ∀ l, (P.ledgerStep (netStats i) l item).succeeded = l.succeeded) :
    Recorded P netStats k' ended (Function.update ts i (ts i ++ [item])) := by
  refine h.concat ?_
  rw [ledger_concat, hsucceeded]
  exact (h i).trans (calls_ledgerStep _ _).sublist

lemma rules_recorded (P : Platform D) (netStats : ι → List NetworkStats) :
    Family.Rules (statKernel ι D) (fun i => P.statDuties (netStats i)) (Recorded P netStats) where
  answered := by
    intro k ended ts i item h halive howed hallows
    cases item with
    | resumed m m' => exact h.quiet fun _ => rfl
    | marked e => exact h.quiet fun _ => rfl
    | called m c a =>
        cases c with
        | close fd =>
            cases a with
            | error e => exact h.quiet fun _ => rfl
            | ok _ => exact h.concat (recorded_close m fd howed.2 (h i))
        | flock fd exclusive =>
            cases a with
            | error e => exact h.quiet fun _ => rfl
            | ok _ => exact h.quiet fun _ => rfl
        | openFile path =>
            cases a with
            | error e => exact h.quiet fun _ => rfl
            | ok _ => exact h.quiet fun _ => rfl
        | writeFile path content =>
            cases a with
            | true => exact h.quiet fun _ => rfl
            | false => exact h.quiet fun _ => rfl
        | _ => exact h.quiet fun _ => rfl
  marked := fun i e h halive => h.quiet fun _ => rfl
  rely := fun _ _ _ _ _ _ => trivial
  ends := fun i h => h

/-- The processes at the start: `i` is to record `netStats i`. -/
def statStart (P : Platform D) (netStats : ι → List NetworkStats) (errbub : ι → ErrBub)
    (mem : ι → Process D) (file : Option StdString) :
    Family ι (StatKernel ι) SysCall Ans (Process D) Mark Unit where
  procs := fun i => ⟨collectStats P (errbub i) (netStats i), mem i, []⟩
  ended := fun _ => false
  kernel := ⟨file, none⟩

lemma ok_statStart (hlock : P.statFileLocking = true) (hempty : P.loadStats [] = ∅)
    (netStats : ι → List NetworkStats) (errbub : ι → ErrBub) (mem : ι → Process D)
    (file : Option StdString) :
    (statStart P netStats errbub mem file).Ok (fun i => P.statDuties (netStats i))
      (fun _ _ _ _ => True) (StatInv P netStats (file.getD [])) where
  guarded := fun i => guarded_collectStats hlock hempty rfl ⟨rfl, rfl, .refl _⟩
  known := {
    holder := fun i _ hphase => absurd rfl hphase
    read := by rintro i text - ⟨⟩
    serial := ⟨[], rfl, fun _ => rfl⟩ }

/-- In every run of the processes the file is what their records lead to, and the record of
every call whose system calls have all succeeded is among these. -/
def NoRecordLost (P : Platform D) (netStats : ι → List NetworkStats) (errbub : ι → ErrBub)
    (mem : ι → Process D) (file : Option StdString) : Prop :=
  ∀ s, ReflTransGen (Family.Step (statKernel ι D)) (statStart P netStats errbub mem file) s →
    Serial P netStats (file.getD []) s.kernel.file s.traces ∧
    ∀ i, (P.ledger (netStats i) (s.traces i)).succeeded.Sublist
      (P.ledger (netStats i) (s.traces i)).calls

/-- **No record is lost between processes.** Where the statistics file is locked, any number
of processes, in any order of their steps, whatever of their calls fails and whichever of
them exit on an error, leave it as the records they have written lead to, one after the
other; and of each process these are the records it has written, in its order and once, with
those of all its calls in which no system call has failed. -/
theorem statistics_serial (hlock : P.statFileLocking = true) (hempty : P.loadStats [] = ∅)
    (netStats : ι → List NetworkStats) (errbub : ι → ErrBub) (mem : ι → Process D)
    (file : Option StdString) : NoRecordLost P netStats errbub mem file := by
  intro s hs
  have hstart := ok_statStart hlock hempty netStats errbub mem file
  refine ⟨(hstart.run (rules_stat P netStats _) hs).known.serial, ?_⟩
  have hrecorded : (statStart P netStats errbub mem file).Ok (fun i => P.statDuties (netStats i))
      (fun _ _ _ _ => True) (Recorded P netStats) := ⟨hstart.guarded, fun _ => .refl _⟩
  exact (hrecorded.run (rules_recorded P netStats) hs).known

/-- The daemon and a command line, each with two sessions to record, and no file yet. -/
theorem statistics_serial_twoProcesses :
    NoRecordLost { statPlatform with statFileLocking := true }
      (fun _ : Bool => [sampleStat, sampleStat])
      (fun isDaemon => if isDaemon then .storage else .null) (fun _ => sampleProcess ∅) none :=
  statistics_serial rfl (by decide +kernel) _ _ _ none

end Processes

end SharedStateAsync
