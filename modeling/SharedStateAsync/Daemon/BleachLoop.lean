/-
The loop that ages the entries (`SharedStateCli::bleachDataLoop`).

Once a second the loop reloads the registered types and bleaches each of them by
the time that has passed since the last iteration was done, at least by a second,
in whole seconds. The time between the two clock readings of an iteration and
what is lost when a duration is cast to seconds are never made up for.

* `bleachTimes`, `toSeconds`: the duration of an iteration and its cast;
* `SharedState.bleachAll`, `BleachLoop.step`: one iteration;
* `gainedTime`, `lostTime`: what an iteration adds to and drops from the time it stands
  for;
* `bleached_eq`: how far the loop is from the clock, in these terms;
* `tracksTime_iff`: it stays within a second exactly when these balance.
-/
import SharedStateAsync.Config.Race

namespace SharedStateAsync

open Machine

variable {D : Type}

/-! ### One iteration -/

/-- `std::chrono::seconds(1)` in the nanoseconds of the steady clock. -/
def second : ℤ := 1000000000

/-- The time an iteration bleaches by: what has elapsed since the last one was
completed, at least a second. -/
def bleachTimes (elapsedTimeSinceLastBleach : ℤ) : ℤ :=
  if elapsedTimeSinceLastBleach > second then elapsedTimeSinceLastBleach else second

/-- `duration_cast<seconds>` of nanoseconds. -/
def toSeconds (ns : ℤ) : ℤ := ns.tdiv second

/-- Bleach every registered type. -/
def SharedState.bleachAll (s : SharedState D) (times : ℤ) : Except Raised (SharedState D) :=
  s.mTypeConf.toList.foldlM (fun s conf => (s.bleach conf.1 times).map Prod.snd) s

/-- What one iteration meets: the configuration file, with what `errno` holds
when it cannot be used, and the two readings of the clock. -/
structure BleachTick where
  file : Option StdString
  errno : Errno := .other 0
  /-- The reading the elapsed time is computed from. -/
  now : ℤ
  /-- The reading that is kept for the next iteration. -/
  completed : ℤ

/-- The loop in its process. -/
structure BleachLoop (D : Type) where
  daemon : Daemon D
  lastBleachCompletedTS : ℤ
  /-- The seconds passed to `bleach` in all iterations so far. -/
  bleached : ℤ := 0

/-- The seconds an iteration passes to `bleach`. -/
def BleachTick.seconds (lastBleachCompletedTS : ℤ) (tick : BleachTick) : ℤ :=
  toSeconds (bleachTimes (tick.now - lastBleachCompletedTS))

/-- One iteration of `SharedStateCli::bleachDataLoop`. Neither the reload nor the
bleaches are given an error pointer. -/
def BleachLoop.step (json : ConfJson) (l : BleachLoop D) (tick : BleachTick) : BleachLoop D :=
  match l.daemon with
  | .exited => l
  | .running s =>
      match s.loadRegisteredTypes json tick.errno tick.file with
      | .error _ => { l with daemon := .exited }
      | .ok (_, s) =>
          let seconds := tick.seconds l.lastBleachCompletedTS
          match s.bleachAll seconds with
          | .error _ => { l with daemon := .exited }
          | .ok s =>
              { daemon := .running s
                lastBleachCompletedTS := tick.completed
                bleached := l.bleached + seconds }

/-- The process runs. -/
def Daemon.isRunning : Daemon D → Bool
  | .running _ => true
  | .exited => false

/-- All iterations so far were carried out to their end. -/
abbrev BleachLoop.Running (l : BleachLoop D) : Prop := l.daemon.isRunning

/-- What an iteration that is carried out does to the time it keeps. -/
lemma BleachLoop.step_of_running {json : ConfJson} {l : BleachLoop D} {tick : BleachTick}
    (h : (l.step json tick).Running) :
    l.Running ∧ (l.step json tick).lastBleachCompletedTS = tick.completed ∧
      (l.step json tick).bleached = l.bleached + tick.seconds l.lastBleachCompletedTS := by
  rw [Running, step] at h
  rw [Running, step]
  cases hl : l.daemon with
  | exited =>
      rw [hl] at h
      simp only [hl] at h
      cases h
  | running s =>
      rw [hl] at h
      refine ⟨rfl, ?_⟩
      simp only at h ⊢
      cases hload : s.loadRegisteredTypes json tick.errno tick.file with
      | error e =>
          rw [hload] at h
          cases h
      | ok loaded =>
          obtain ⟨mOk, s₁⟩ := loaded
          rw [hload] at h
          simp only at h ⊢
          cases hbleach : s₁.bleachAll (tick.seconds l.lastBleachCompletedTS) with
          | error e =>
              rw [hbleach] at h
              cases h
          | ok s₂ => exact ⟨rfl, rfl⟩

/-! ### Gains and losses -/

/-- The reading the next iteration starts from. -/
def lastCompleted (start : ℤ) (ticks : List BleachTick) : ℤ :=
  (ticks.getLast?.map BleachTick.completed).getD start

/-- The elapsed times the iterations compute. -/
def elapsedTimes : ℤ → List BleachTick → List ℤ
  | _, [] => []
  | last, tick :: ticks => (tick.now - last) :: elapsedTimes tick.completed ticks

/-- What is added to an elapsed time by rounding it up to a second. -/
def gained (elapsed : ℤ) : ℤ := if elapsed > second then 0 else second - elapsed

/-- What is dropped from an elapsed time by casting it to seconds. -/
def dropped (elapsed : ℤ) : ℤ := if elapsed > second then elapsed % second else 0

/-- The time between the two clock readings of an iteration. -/
def BleachTick.spent (tick : BleachTick) : ℤ := tick.completed - tick.now

/-- All that the iterations have added to the time they stand for. -/
def gainedTime (start : ℤ) (ticks : List BleachTick) : ℤ :=
  ((elapsedTimes start ticks).map gained).sum

/-- All that the iterations have left out of the time they stand for, up to the
first reading of the last of them: the dropped fractions of a second, and the
time the iterations before it took themselves. -/
def lostTime (start : ℤ) (ticks : List BleachTick) : ℤ :=
  ((elapsedTimes start ticks).map dropped).sum + (ticks.dropLast.map BleachTick.spent).sum

@[simp] lemma lastCompleted_concat (start : ℤ) (ticks : List BleachTick) (tick : BleachTick) :
    lastCompleted start (ticks ++ [tick]) = tick.completed := by
  simp [lastCompleted]

lemma lastCompleted_cons (start : ℤ) (tick : BleachTick) (ticks : List BleachTick) :
    lastCompleted start (tick :: ticks) = lastCompleted tick.completed ticks := by
  cases ticks with
  | nil => rfl
  | cons tick' ticks =>
      have hlast : (tick' :: ticks).getLast? = some ((tick' :: ticks).getLast (by simp)) :=
        List.getLast?_eq_some_getLast (by simp)
      rw [lastCompleted, lastCompleted, List.getLast?_cons_cons, hlast, Option.map_some,
        Option.getD_some, Option.getD_some]

lemma elapsedTimes_concat (start : ℤ) (ticks : List BleachTick) (tick : BleachTick) :
    elapsedTimes start (ticks ++ [tick])
      = elapsedTimes start ticks ++ [tick.now - lastCompleted start ticks] := by
  induction ticks generalizing start with
  | nil => rfl
  | cons tick' ticks ih =>
      rw [List.cons_append, elapsedTimes, ih, lastCompleted_cons, elapsedTimes, List.cons_append]

lemma gainedTime_concat (start : ℤ) (ticks : List BleachTick) (tick : BleachTick) :
    gainedTime start (ticks ++ [tick])
      = gainedTime start ticks + gained (tick.now - lastCompleted start ticks) := by
  simp [gainedTime, elapsedTimes_concat]

/-- The seconds of an iteration are the elapsed time with what is added and
without what is dropped. -/
lemma toSeconds_bleachTimes (elapsed : ℤ) :
    toSeconds (bleachTimes elapsed) * second = elapsed + gained elapsed - dropped elapsed := by
  rw [toSeconds, bleachTimes, gained, dropped]
  by_cases hlong : elapsed > second
  · rw [if_pos hlong, if_pos hlong, if_pos hlong,
      Int.tdiv_eq_ediv_of_nonneg (by rw [second] at hlong; omega)]
    have hdiv := Int.mul_ediv_add_emod elapsed second
    linarith
  · rw [if_neg hlong, if_neg hlong, if_neg hlong]
    have hone : Int.tdiv second second = 1 := by decide
    rw [hone]
    ring

/-- Both readings of every iteration so far, in terms of gains and losses. -/
lemma run_bleached {json : ConfJson} {s : SharedState D} {start : ℤ} (ticks : List BleachTick)
    (h : (run (BleachLoop.step json) ⟨.running s, start, 0⟩ ticks).Running) :
    (run (BleachLoop.step json) ⟨.running s, start, 0⟩ ticks).lastBleachCompletedTS
        = lastCompleted start ticks ∧
      (run (BleachLoop.step json) ⟨.running s, start, 0⟩ ticks).bleached * second
        = lastCompleted start ticks - start + gainedTime start ticks
          - ((elapsedTimes start ticks).map dropped).sum - (ticks.map BleachTick.spent).sum := by
  induction ticks using List.reverseRecOn with
  | nil => simp [run, lastCompleted, gainedTime, elapsedTimes]
  | append_singleton ticks tick ih =>
      rw [run_concat] at h ⊢
      obtain ⟨hrunning, hlast, hsum⟩ := BleachLoop.step_of_running h
      obtain ⟨hlast₀, hsum₀⟩ := ih hrunning
      refine ⟨by rw [hlast, lastCompleted_concat], ?_⟩
      have hseconds := toSeconds_bleachTimes (tick.now - lastCompleted start ticks)
      rw [hsum, hlast₀, BleachTick.seconds, add_mul, hsum₀, hseconds, lastCompleted_concat,
        gainedTime_concat, elapsedTimes_concat]
      simp only [List.map_append, List.sum_append, List.map_cons, List.map_nil, List.sum_cons,
        List.sum_nil, BleachTick.spent]
      ring

/-- How far the seconds passed to `bleach` are ahead of the clock, at the first
reading of the last iteration. -/
lemma bleached_eq {json : ConfJson} {s : SharedState D} {start : ℤ} {ticks : List BleachTick}
    {tick : BleachTick}
    (h : (run (BleachLoop.step json) ⟨.running s, start, 0⟩ (ticks ++ [tick])).Running) :
    (run (BleachLoop.step json) ⟨.running s, start, 0⟩ (ticks ++ [tick])).bleached * second
        - (tick.now - start)
      = gainedTime start (ticks ++ [tick]) - lostTime start (ticks ++ [tick]) := by
  rw [(run_bleached _ h).2, lostTime, lastCompleted_concat, List.dropLast_concat, List.map_append,
    List.sum_append, List.map_cons, List.map_nil, List.sum_cons, List.sum_nil, BleachTick.spent]
  ring

/-! ### Keeping up with the clock -/

/-- The readings of a run: an iteration begins at least 999 ms after the one
before it was completed, and is completed after it began. -/
def Paced : ℤ → List BleachTick → Prop
  | _, [] => True
  | last, tick :: ticks =>
      last + 999000000 ≤ tick.now ∧ tick.now ≤ tick.completed ∧ Paced tick.completed ticks

/-- After every iteration the seconds passed to `bleach` differ from the time
since the loop was started by at most one. -/
def TracksTime (json : ConfJson) (s : SharedState D) (start : ℤ) (ticks : List BleachTick) : Prop :=
  ∀ pre tick, pre ++ [tick] <+: ticks →
    |(run (BleachLoop.step json) ⟨.running s, start, 0⟩ (pre ++ [tick])).bleached * second
      - (tick.now - start)| ≤ second

/-- A loop that has carried out its iterations has carried out the ones before. -/
lemma running_of_beginning {json : ConfJson} {l : BleachLoop D} {pre ticks : List BleachTick}
    (hpre : pre <+: ticks) (h : (run (BleachLoop.step json) l ticks).Running) :
    (run (BleachLoop.step json) l pre).Running := by
  induction ticks using List.reverseRecOn with
  | nil =>
      rw [List.prefix_nil.mp hpre]
      exact h
  | append_singleton ticks tick ih =>
      rcases List.prefix_concat_iff.mp hpre with rfl | hpre'
      · exact h
      · rw [run_concat] at h
        exact ih hpre' (BleachLoop.step_of_running h).1

/-- **The loop and the clock.** The seconds passed to `bleach` stay within one of
the time since the start exactly when, at every iteration, what was gained by
rounding up and what was lost by casting and by the iterations themselves
balance to within a second. -/
theorem tracksTime_iff (json : ConfJson) (s : SharedState D) (start : ℤ) (ticks : List BleachTick)
    (hrun : (run (BleachLoop.step json) ⟨.running s, start, 0⟩ ticks).Running) :
    TracksTime json s start ticks ↔ ∀ pre, pre <+: ticks →
      lostTime start pre ≤ gainedTime start pre + second ∧
        gainedTime start pre ≤ lostTime start pre + second := by
  have hiff : ∀ pre tick, pre ++ [tick] <+: ticks →
      (|(run (BleachLoop.step json) ⟨.running s, start, 0⟩ (pre ++ [tick])).bleached * second
          - (tick.now - start)| ≤ second ↔
        lostTime start (pre ++ [tick]) ≤ gainedTime start (pre ++ [tick]) + second ∧
          gainedTime start (pre ++ [tick]) ≤ lostTime start (pre ++ [tick]) + second) := by
    intro pre tick hpre
    rw [bleached_eq (running_of_beginning hpre hrun), abs_le]
    constructor
    · rintro ⟨hlow, hhigh⟩
      exact ⟨by linarith, by linarith⟩
    · rintro ⟨hlow, hhigh⟩
      exact ⟨by linarith, by linarith⟩
  constructor
  · intro htracks pre hpre
    rcases List.eq_nil_or_concat' pre with rfl | ⟨pre', tick, rfl⟩
    · simp [lostTime, gainedTime, elapsedTimes, second]
    · exact (hiff pre' tick hpre).mp (htracks pre' tick hpre)
  · intro hbalance pre tick hpre
    exact (hiff pre tick hpre).mpr (hbalance _ hpre)

/-- The iteration of a daemon with one type, without delay between its readings. -/
def tickAt (now : ℤ) : BleachTick := ⟨some oneTypeDocument, .other 0, now, now⟩

/-- Iterations on the second keep up with the clock. -/
theorem tracksTime_punctual :
    TracksTime twoDocuments oneTypeDaemon 0 [tickAt 1000000000, tickAt 2000000000] := by
  refine (tracksTime_iff twoDocuments oneTypeDaemon 0 _ (by decide +kernel)).mpr fun pre hpre => ?_
  rw [← List.mem_inits] at hpre
  revert pre
  decide

/-- Three iterations half a second late stand for four and a half seconds, of
which three are bleached. -/
theorem not_tracksTime_late :
    let ticks := [tickAt 1500000000, tickAt 3000000000, tickAt 4500000000]
    Paced 0 ticks ∧
      (run (BleachLoop.step twoDocuments) ⟨.running oneTypeDaemon, 0, 0⟩ ticks).Running ∧
      ¬ TracksTime twoDocuments oneTypeDaemon 0 ticks := by
  intro ticks
  refine ⟨by simp [ticks, Paced, tickAt], by decide +kernel, fun htracks => ?_⟩
  have hlate := htracks [tickAt 1500000000, tickAt 3000000000] (tickAt 4500000000) List.prefix_rfl
  exact absurd hlate (by decide +kernel)

end SharedStateAsync
