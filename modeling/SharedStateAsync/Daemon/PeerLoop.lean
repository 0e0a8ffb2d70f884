/-
When the daemon publishes (`SharedStateCli::peer`).

The loop of the peer wakes up about once a second and syncs the types whose update
interval divides the time, in whole seconds of the steady clock. A type whose second
passes while the loop is busy is not made up for: it waits for the next one.

* `DataTypeConf.shouldSync`, `shouldSyncTypes`: the types a wake-up selects;
* `mem_shouldSyncTypes`: a type is among them if its interval divides the time;
* `WakeUps`, `NeverStarves`: wake-ups of the loop, and that a type is selected in every
  window of the length of its interval and the longest gap;
* `SkipsRound`: a gap that leaves out a whole second divisible by the interval;
* `neverStarves`: where there is no such gap, the type is published.
-/
import SharedStateAsync.Daemon.BleachLoop
import SharedStateAsync.Lib.Signed64

namespace SharedStateAsync

open Signed64

/-! ### The types of a wake-up -/

/-- The test of the loop in `SharedStateCli::peer` at a reading of the steady clock, which
counts nanoseconds from the start of the machine; nothing where the remainder is not
defined, which ends the process. -/
def DataTypeConf.shouldSync (typeConf : DataTypeConf) (now : ℕ) : Option Bool := do
  let tNow := toSeconds now
  let remainder ← checkedRem tNow typeConf.mUpdateInterval
  return remainder == 0

/-- `shouldSyncTypes`, as the loop collects it. -/
def shouldSyncTypes (mTypeConf : OrdMap StdString DataTypeConf) (now : ℕ) :
    Option (List StdString) :=
  mTypeConf.toList.foldlM (fun shouldSyncTypes p => do
    if ← p.2.shouldSync now then return shouldSyncTypes ++ [p.1] else return shouldSyncTypes) []

lemma shouldSync_eq (typeConf : DataTypeConf) (now : ℕ) :
    typeConf.shouldSync now
      = if typeConf.mUpdateInterval = 0 then none
        else some (decide (typeConf.mUpdateInterval ∣ toSeconds now)) := by
  have hnonneg : 0 ≤ toSeconds now := Int.tdiv_nonneg (Int.natCast_nonneg _) (by decide)
  simp only [DataTypeConf.shouldSync, checkedRem_of_nonneg hnonneg]
  split_ifs with hzero
  · rfl
  · simp [Int.dvd_iff_tmod_eq_zero, beq_eq_decide]

/-- **The types a wake-up selects** are those whose interval divides the time. -/
theorem mem_shouldSyncTypes {mTypeConf : OrdMap StdString DataTypeConf} {now : ℕ}
    {types : List StdString} (h : shouldSyncTypes mTypeConf now = some types)
    (typeName : StdString) : typeName ∈ types ↔
      ∃ typeConf, mTypeConf[typeName]? = some typeConf ∧ typeConf.shouldSync now = some true := by
  -- over the entries met so far, and the types collected from them
  have hloop : ∀ (l : List (StdString × DataTypeConf)) (collected types : List StdString),
      l.foldlM (fun shouldSyncTypes p => do
        if ← p.2.shouldSync now then return shouldSyncTypes ++ [p.1]
        else return shouldSyncTypes) collected = some types →
      (typeName ∈ types ↔ typeName ∈ collected ∨
        ∃ typeConf, (typeName, typeConf) ∈ l ∧ typeConf.shouldSync now = some true) := by
    intro l
    induction l with
    | nil =>
        intro collected types htypes
        obtain rfl := Option.some.inj htypes
        simp
    | cons p l ih =>
        intro collected types htypes
        rw [List.foldlM_cons] at htypes
        cases hp : p.2.shouldSync now with
        | none =>
            simp only [hp] at htypes
            cases htypes
        | some sync =>
            simp only [hp] at htypes
            cases sync with
            | false =>
                rw [ih collected types htypes]
                refine or_congr_right (exists_congr fun typeConf => ?_)
                rw [List.mem_cons]
                constructor
                · exact fun hc => ⟨Or.inr hc.1, hc.2⟩
                · rintro ⟨rfl | hmem, hsync⟩
                  · cases hp.symm.trans hsync
                  · exact ⟨hmem, hsync⟩
            | true =>
                rw [ih (collected ++ [p.1]) types htypes, List.mem_append, List.mem_singleton,
                  or_assoc]
                refine or_congr_right ?_
                constructor
                · rintro (rfl | ⟨typeConf, hmem, hsync⟩)
                  · exact ⟨p.2, List.mem_cons_self, hp⟩
                  · exact ⟨typeConf, List.mem_cons_of_mem _ hmem, hsync⟩
                · rintro ⟨typeConf, hmem, hsync⟩
                  rcases List.mem_cons.mp hmem with rfl | hmem
                  · exact Or.inl rfl
                  · exact Or.inr ⟨typeConf, hmem, hsync⟩
  rw [hloop _ _ _ h]
  simp only [List.not_mem_nil, false_or, Std.ExtTreeMap.mem_toList_iff_getElem?_eq_some]

/-! ### Wake-ups -/

/-- Wake-ups of the loop, at least the 999 ms of its timer and at most `g` apart. -/
def WakeUps (g : ℕ) (times : List ℕ) : Prop :=
  times.IsChain fun now next => now + 999000000 ≤ next ∧ next ≤ now + g

/-- Every window as long as the interval and `g`, from the first wake-up to the last, has a
wake-up in which the type is selected. -/
def NeverStarves (typeConf : DataTypeConf) (g : ℕ) (times : List ℕ) : Prop :=
  ∀ first last w : ℕ, times.head? = some first → times.getLast? = some last → first ≤ w →
    w + (typeConf.mUpdateInterval * second + g) ≤ last →
    ∃ now ∈ times, w ≤ now ∧ now ≤ w + (typeConf.mUpdateInterval * second + g) ∧
      typeConf.shouldSync now = some true

/-- Between the two wake-ups there is a whole second that the interval divides. -/
def SkipsRound (typeConf : DataTypeConf) (now next : ℕ) : Prop :=
  ∃ n : ℤ, typeConf.mUpdateInterval ∣ n ∧ now < n * second ∧ (n + 1) * second ≤ next

/-- A gap of a second skips nothing. -/
lemma not_skipsRound_of_le {typeConf : DataTypeConf} {now next : ℕ}
    (h : (next : ℤ) ≤ now + second) : ¬ SkipsRound typeConf now next := by
  rintro ⟨n, -, hlt, hle⟩
  rw [add_mul, one_mul] at hle
  omega

/-- A list that starts before `m` and ends at `m` or after has two neighbours with `m` between
them. -/
lemma exists_crossing {m : ℤ} : ∀ {times : List ℕ} {first last : ℕ},
    times.head? = some first → times.getLast? = some last → first < m → m ≤ last →
    ∃ now next : ℕ, [now, next] <:+: times ∧ now < m ∧ m ≤ next
  | [], _, _, hfirst, _, _, _ => by cases hfirst
  | [_], _, _, hfirst, hlast, hlt, hle => by
      obtain rfl := Option.some.inj hfirst
      obtain rfl := Option.some.inj hlast
      exact absurd hlt (not_lt.mpr hle)
  | now :: next :: times, _, _, hfirst, hlast, hlt, hle => by
      obtain rfl := Option.some.inj hfirst
      by_cases hnext : m ≤ next
      · exact ⟨now, next, ⟨[], times, rfl⟩, hlt, hnext⟩
      · rw [List.getLast?_cons_cons] at hlast
        obtain ⟨now', next', hpair, hlt', hle'⟩ :=
          exists_crossing rfl hlast (not_le.mp hnext) hle
        exact ⟨now', next', hpair.trans (List.suffix_cons _ _).isInfix, hlt', hle'⟩

/-- A wake-up within a second that the interval divides selects the type. -/
lemma shouldSync_of_within {typeConf : DataTypeConf} {now : ℕ} {n : ℤ}
    (hpos : typeConf.mUpdateInterval ≠ 0) (hn : typeConf.mUpdateInterval ∣ n)
    (hle : n * second ≤ now) (hlt : now < (n + 1) * second) :
    typeConf.shouldSync now = some true := by
  have hseconds : toSeconds now = n := by
    rw [toSeconds, Int.tdiv_eq_ediv_of_nonneg (Int.natCast_nonneg _)]
    refine (Int.ediv_eq_iff_of_pos (by decide)).mpr ⟨hle, ?_⟩
    rw [add_mul, one_mul] at hlt
    exact hlt
  rw [shouldSync_eq, if_neg hpos, hseconds, decide_eq_true hn]

/-- The first second from `w` on that the interval divides. -/
lemma exists_round {u : ℤ} (hu : 0 < u) (w : ℤ) :
    ∃ n, u ∣ n ∧ w ≤ n * second ∧ n * second < w + u * second := by
  have hpos : 0 < u * second := mul_pos hu (by decide)
  refine ⟨u * ((w + u * second - 1) / (u * second)), dvd_mul_right _ _, ?_, ?_⟩
  · have hlt := Int.lt_ediv_add_one_mul_self (w + u * second - 1) hpos
    have hcomm : u * ((w + u * second - 1) / (u * second)) * second
        = (w + u * second - 1) / (u * second) * (u * second) := by ring
    rw [add_mul, one_mul] at hlt
    omega
  · have hle := Int.ediv_mul_le (w + u * second - 1) hpos.ne'
    have hcomm : u * ((w + u * second - 1) / (u * second)) * second
        = (w + u * second - 1) / (u * second) * (u * second) := by ring
    omega

/-- **Publishing does not starve** as long as no wake-up comes so late that a round is skipped. -/
theorem neverStarves {typeConf : DataTypeConf} (hu : 0 < typeConf.mUpdateInterval) {g : ℕ}
    {times : List ℕ} (hwake : WakeUps g times)
    (hskip : times.IsChain fun now next => ¬ SkipsRound typeConf now next) :
    NeverStarves typeConf g times := by
  intro first last w hfirst hlast hfw hwl
  have hpos : 0 < typeConf.mUpdateInterval * second := mul_pos hu (by decide)
  obtain ⟨n, hn, hwn, hnw⟩ := exists_round hu w
  rcases lt_or_ge (first : ℤ) (n * second) with hlt | hge
  · -- the first wake-up from the round on is in its second, and in the window
    obtain ⟨now, next, hpair, hnow, hnext⟩ := exists_crossing hfirst hlast hlt (by omega)
    have hgap := List.IsChain.infix hwake hpair
    have hround := List.IsChain.infix hskip hpair
    rw [List.isChain_pair] at hgap hround
    have hmem : next ∈ times := hpair.subset (by simp)
    have hsecond : (next : ℤ) < (n + 1) * second := by
      by_contra hc
      exact hround ⟨n, hn, hnow, not_lt.mp hc⟩
    refine ⟨next, hmem, by omega, by omega, shouldSync_of_within hu.ne' hn hnext hsecond⟩
  · -- the window starts with the first wake-up, at the round
    refine ⟨first, List.mem_of_mem_head? hfirst, by omega, by omega, ?_⟩
    refine shouldSync_of_within hu.ne' hn hge ?_
    rw [add_mul, one_mul]
    have hsecond : 0 < second := by decide
    omega

/-! ### Two seconds between wake-ups -/

/-- A type that is published every four seconds. -/
def everyFourSeconds : DataTypeConf := ⟨bytes "t", bytes "c", 4, 300⟩

/-- Wake-ups a second apart. -/
def steadyTimes : List ℕ :=
  [1000000000, 2000000000, 3000000000, 4000000000, 5000000000, 6000000000]

/-- Wake-ups two seconds apart, in the odd seconds. -/
def lateTimes : List ℕ := [1000000000, 3000000000, 5000000000, 7000000000, 9000000000]

/-- A steady loop publishes. -/
theorem neverStarves_steadyTimes : NeverStarves everyFourSeconds 1000000000 steadyTimes := by
  have hwake : WakeUps 1000000000 steadyTimes := by
    simp [WakeUps, steadyTimes]
  refine neverStarves (by decide) hwake (List.IsChain.imp (fun now next hgap => ?_) hwake)
  refine not_skipsRound_of_le ?_
  rw [second]
  omega

/-- A loop with gaps of two seconds never publishes: all four-second marks are skipped. -/
theorem not_neverStarves_lateTimes :
    2 ≤ everyFourSeconds.mUpdateInterval ∧ 2000000000 < everyFourSeconds.mUpdateInterval * second ∧
      WakeUps 2000000000 lateTimes ∧ ¬ NeverStarves everyFourSeconds 2000000000 lateTimes := by
  refine ⟨by decide, by decide, by simp [WakeUps, lateTimes], fun hnever => ?_⟩
  obtain ⟨now, hmem, -, -, hsync⟩ :=
    hnever 1000000000 9000000000 1000000000 rfl rfl le_rfl (by decide)
  have hnone : ∀ now ∈ lateTimes, everyFourSeconds.shouldSync now ≠ some true := by decide
  exact hnone now hmem hsync

end SharedStateAsync
