/-
The guard of a node's own entries (`tests/spec-suite/model.py`).

The strategy `v1i` is `v1` with the guard it was meant to have: a remote copy of a node's own
entry must have a higher TTL to replace it, and one with a higher TTL is taken for ill. So no
remote copy replaces it at all. Without the guard one with the same TTL does.

* `RemoteOp.seconds`, `elapsedSeconds`: the time the bleaches of a run stand for;
* `OnlyAges`: as long as it has some TTL left, a node's own entry loses only that time;
* `kept_of_own`: what a merge leaves of an own entry;
* `Ties`, `NeverTied`: a slice has a copy with the TTL that is left, which says something
  else;
* `onlyAges_iff`: an own entry only ages, under `v1i` in every run, and under `v1` in exactly
  those runs that never tie.
-/
import SharedStateAsync.SpecSuite.OwnData

namespace SharedStateAsync

namespace SpecSuite

open Machine

variable {D : Type}

/-- The seconds an operation takes off every TTL; `bleach` raises for less than one. -/
def RemoteOp.seconds : RemoteOp D → ℤ
  | .merge _ => 0
  | .bleach elapsed => if elapsed < 1 then 0 else elapsed

/-- The seconds the bleaches of a run add up to. -/
def elapsedSeconds (ops : List (RemoteOp D)) : ℤ := (ops.map RemoteOp.seconds).sum

lemma RemoteOp.seconds_nonneg (op : RemoteOp D) : 0 ≤ op.seconds := by
  cases op with
  | merge slice => exact le_rfl
  | bleach elapsed =>
      rw [RemoteOp.seconds]
      split_ifs
      · exact le_rfl
      · omega

lemma elapsedSeconds_concat (ops : List (RemoteOp D)) (op : RemoteOp D) :
    elapsedSeconds (ops ++ [op]) = elapsedSeconds ops + op.seconds := by
  rw [elapsedSeconds, elapsedSeconds, List.map_append, List.sum_append, List.map_singleton,
    List.sum_singleton]

/-- The entry is the host's, with the data `d` and so much TTL. -/
def Entry.IsAged (hostname : StdString) (d : D) (ttl : ℤ) (e : Entry D) : Prop :=
  e.IsOwn hostname d ∧ e.ttl = ttl

/-- A merge meets a copy of the key with the TTL `ttl`, of another author or with other data. -/
def RemoteOp.Ties (hostname : StdString) (k : StdString) (d : D) (ttl : ℤ) :
    RemoteOp D → Prop
  | .merge slice => ∃ e, slice.get? k = some e ∧ e.ttl = ttl ∧ ¬ e.IsOwn hostname d
  | .bleach _ => False

/-! ### One step -/

section Step

variable {hostname k : StdString} {strategy : Strategy} {d : D} {state : State D} {ttl : ℤ}

/-- **What a merge leaves of an own entry**: all of it, unless it is `v1` that merges, and the
copy has the same TTL. -/
lemma kept_of_own (hv : strategy = .v1 ∨ strategy = .v1i) {known e : Entry D}
    (hown : known.author = hostname) :
    kept true hostname strategy (some known) e
      = if strategy = .v1 ∧ e.ttl = known.ttl then e.adopted else known := by
  have hauthor : (known.author == hostname) = true := by rw [hown, beq_self_eq_true]
  rcases hv with rfl | rfl
  · simp only [kept, hauthor, thresholdOk, reduceCtorEq, or_self, if_false, Bool.and_true,
      Bool.true_and, decide_eq_true_eq, true_and]
    rcases lt_trichotomy e.ttl known.ttl with hlt | heq | hgt
    · rw [if_neg (by omega), if_neg (by omega), if_neg (by omega)]
    · rw [if_neg (by omega), if_pos (by omega), if_pos heq]
    · rw [if_pos hgt, if_neg (by omega)]
  · simp only [kept, hauthor, thresholdOk, reduceCtorEq, or_self, if_false, Bool.and_true,
      Bool.true_and, decide_eq_true_eq, false_and, if_true]
    by_cases hgt : known.ttl < e.ttl
    · rw [if_pos hgt]
    · rw [if_neg hgt, if_neg (by omega)]

variable [BEq D]

/-- **One step.** As long as it has some TTL left, an own entry loses the time of the step,
and nothing else, unless a merge of `v1` ties. -/
theorem RemoteOp.step_ages_iff (hv : strategy = .v1 ∨ strategy = .v1i) (op : RemoteOp D)
    {known : Entry D} (hknown : state.get? k = some known)
    (haged : known.IsAged hostname d ttl) (hleft : op.seconds < ttl) :
    (∃ e, (op.step hostname strategy state).get? k = some e ∧
        e.IsAged hostname d (ttl - op.seconds)) ↔
      ¬ (strategy = .v1 ∧ op.Ties hostname k d ttl) := by
  cases op with
  | merge slice =>
      rw [RemoteOp.step, merge_get?, hknown, RemoteOp.Ties, RemoteOp.seconds, sub_zero]
      cases hslice : slice.get? k with
      | none =>
          rw [Option.elim_none]
          refine iff_of_true ⟨known, rfl, haged⟩ ?_
          rintro ⟨-, e, hnone, -⟩
          cases hnone
      | some e =>
          rw [Option.elim_some, kept_of_own hv haged.1.1]
          by_cases htie : strategy = .v1 ∧ e.ttl = known.ttl
          · rw [if_pos htie]
            constructor
            · rintro ⟨_, he, hown, -⟩ ⟨-, _, he', -, hnot⟩
              obtain rfl := Option.some.inj he
              obtain rfl := Option.some.inj he'
              exact hnot hown
            · intro hnone
              have hown : e.IsOwn hostname d := by
                by_contra hnot
                exact hnone ⟨htie.1, e, rfl, htie.2.trans haged.2, hnot⟩
              exact ⟨e.adopted, rfl, hown, htie.2.trans haged.2⟩
          · rw [if_neg htie]
            refine iff_of_true ⟨known, rfl, haged⟩ ?_
            rintro ⟨hv1, _, he, httl, -⟩
            obtain rfl := Option.some.inj he
            exact htie ⟨hv1, httl.trans haged.2.symm⟩
  | bleach elapsed =>
      rw [RemoteOp.step]
      refine iff_of_true ?_ fun h => h.2
      rw [RemoteOp.seconds] at hleft ⊢
      cases hbleach : SpecSuite.bleach state elapsed with
      | none =>
          have hlt : elapsed < 1 := by
            by_contra hge
            rw [SpecSuite.bleach, if_neg hge] at hbleach
            cases hbleach
          rw [if_pos hlt, sub_zero, Option.elim_none]
          exact ⟨known, hknown, haged⟩
      | some result =>
          have hge : ¬ elapsed < 1 := by
            intro hlt
            rw [SpecSuite.bleach, if_pos hlt] at hbleach
            cases hbleach
          rw [if_neg hge] at hleft ⊢
          rw [Option.elim_some, bleach_get? hbleach, hknown, Option.bind_some,
            if_neg (by rw [haged.2]; omega)]
          exact ⟨_, rfl, haged.1, by rw [← haged.2]⟩

end Step

/-! ### Runs -/

section Run

variable [BEq D] {hostname k : StdString} {strategy : Strategy} {d : D} {state : State D} {ttl : ℤ}

/-- In a run that begins with the TTL `ttl`, the own entry keeps its data and loses only the
time of the bleaches, as long as there is some left. -/
def OnlyAges (hostname : StdString) (strategy : Strategy) (k : StdString) (d : D) (ttl : ℤ)
    (state : State D) (ops : List (RemoteOp D)) : Prop :=
  ∀ pre, pre <+: ops → elapsedSeconds pre < ttl →
    ∃ e, (run (RemoteOp.step hostname strategy) state pre).get? k = some e ∧
      e.IsAged hostname d (ttl - elapsedSeconds pre)

/-- No slice has a copy with just the TTL that is left, of another author or with other
data. -/
def NeverTied (hostname : StdString) (k : StdString) (d : D) (ttl : ℤ)
    (ops : List (RemoteOp D)) : Prop :=
  ∀ pre op, pre ++ [op] <+: ops → elapsedSeconds pre < ttl →
    ¬ op.Ties hostname k d (ttl - elapsedSeconds pre)

omit [BEq D] in
/-- A merge takes no time. -/
lemma RemoteOp.Ties.seconds_eq {op : RemoteOp D} (h : op.Ties hostname k d ttl) :
    op.seconds = 0 := by
  cases op with
  | merge slice => rfl
  | bleach elapsed => exact h.elim

/-- **Runs** that begin with an own entry. -/
lemma onlyAges_iff_neverTied (hv : strategy = .v1 ∨ strategy = .v1i) {known : Entry D}
    (hknown : state.get? k = some known) (haged : known.IsAged hostname d ttl)
    (ops : List (RemoteOp D)) :
    OnlyAges hostname strategy k d ttl state ops ↔
      (strategy = .v1 → NeverTied hostname k d ttl ops) := by
  constructor
  · rintro hages hv1 pre op hpre hleft hties
    obtain ⟨e, he, heaged⟩ := hages pre ((List.prefix_append _ _).trans hpre) hleft
    have hleft' : elapsedSeconds (pre ++ [op]) < ttl := by
      rw [elapsedSeconds_concat, hties.seconds_eq, add_zero]
      exact hleft
    have hnext := hages (pre ++ [op]) hpre hleft'
    rw [run_concat, elapsedSeconds_concat, ← sub_sub] at hnext
    refine (op.step_ages_iff hv he heaged ?_).mp hnext ⟨hv1, hties⟩
    rw [hties.seconds_eq]
    omega
  · intro hnever
    refine run_induction (fun hleft => ⟨known, hknown, haged.1, ?_⟩) fun pre op hpre ih hleft => ?_
    · rw [elapsedSeconds, List.map_nil, List.sum_nil, sub_zero, haged.2]
    · rw [elapsedSeconds_concat] at hleft
      have hbefore : elapsedSeconds pre < ttl := by
        have := op.seconds_nonneg
        omega
      obtain ⟨e, he, heaged⟩ := ih hbefore
      rw [run_concat, elapsedSeconds_concat, ← sub_sub]
      refine (op.step_ages_iff hv he heaged (by omega)).mpr ?_
      rintro ⟨hv1, hties⟩
      exact hnever hv1 pre op hpre hbefore hties

/-- **The guard works.** After an insert of `d`, however merges of remote slices and bleaches
go on: under `v1i` the node's entry only ages, as long as it has some TTL left, and under
`v1` it does exactly if no slice ties with it. -/
theorem onlyAges_iff (hv : strategy = .v1 ∨ strategy = .v1i) (state : State D)
    (hostname k : StdString) (d : D) (bleachTtl updateInterval : ℤ) (ops : List (RemoteOp D)) :
    let ttl := insertTtl strategy bleachTtl updateInterval
    OnlyAges hostname strategy k d ttl
        (authorInsert state hostname k d strategy bleachTtl updateInterval) ops ↔
      (strategy = .v1 → NeverTied hostname k d ttl ops) := by
  intro ttl
  have hknown : (authorInsert state hostname k d strategy bleachTtl updateInterval).get? k
      = some _ := (Dict.get?_set _ _ _ _).trans (if_pos rfl)
  exact onlyAges_iff_neverTied hv hknown ⟨⟨rfl, rfl⟩, rfl⟩ ops

end Run

/-- An echo of the measurement before, which was inserted with the same TTL. -/
def staleEcho : State ℕ := (∅ : State ℕ).set (bytes "k") ⟨bytes "A", 331, 5, 0, false⟩

/-- The echo overwrites the newer measurement under `v1`, and not under `v1i`. -/
theorem onlyAges_staleEcho :
    OnlyAges (bytes "A") .v1i (bytes "k") 6 331 (freshlyInserted .v1i) [.merge staleEcho] ∧
      ¬ OnlyAges (bytes "A") .v1 (bytes "k") 6 331 (freshlyInserted .v1) [.merge staleEcho] := by
  constructor
  · exact (onlyAges_iff (Or.inr rfl) ∅ (bytes "A") (bytes "k") 6 300 30 _).mpr (by rintro ⟨⟩)
  · intro hages
    have hnever := (onlyAges_iff (Or.inl rfl) ∅ (bytes "A") (bytes "k") 6 300 30 _).mp hages rfl
    refine hnever [] (.merge staleEcho) List.prefix_rfl (by decide) ?_
    refine ⟨⟨bytes "A", 331, 5, 0, false⟩, (Dict.get?_set _ _ _ _).trans (if_pos rfl),
      by decide, ?_⟩
    rintro ⟨-, ⟨⟩⟩

end SpecSuite

end SharedStateAsync
