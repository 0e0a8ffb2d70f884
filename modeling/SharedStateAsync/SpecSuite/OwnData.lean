/-
A node's own data against what it hears of it (`tests/spec-suite`, strategies `v2` and `v2r`).

A copy of a higher version makes the node go past it with the data it has. A copy of the same
version and a higher TTL is taken as it is, whoever its author; and `v2r` goes past others only
with an entry that is marked as inserted here, a mark which the entry loses when such a copy
replaces it.

* `RemoteOp`: merges of what other nodes send, and bleaches;
* `Overrides`: the copies that take the place of the node's data;
* `RemoteOp.step_keeps_iff`: what one step does to it;
* `KeepsOwn`, `keepsOwn_iff`: the runs in which the data stay.
-/
import SharedStateAsync.SpecSuite.Versions

namespace SharedStateAsync

namespace SpecSuite

open Machine

variable {D : Type}

/-- What happens to the state of a node between two inserts. -/
inductive RemoteOp (D : Type) where
  | merge (slice : State D)
  | bleach (elapsed : ℤ)

/-- The state afterwards. A bleach that raises an exception changes nothing. -/
def RemoteOp.step [BEq D] (hostname : StdString) (strategy : Strategy) (state : State D) :
    RemoteOp D → State D
  | .merge slice => (SpecSuite.merge state slice true hostname strategy).1
  | .bleach elapsed => (SpecSuite.bleach state elapsed).elim state Prod.snd

/-- The entry is of the host, with the data `d`. -/
def Entry.IsOwn (hostname : StdString) (d : D) (e : Entry D) : Prop :=
  e.author = hostname ∧ e.data = d

/-- The copy `e` has another author or other data, and it has the version of the known entry and
a higher TTL, or under `v2r` a higher version while the known entry is not marked as local. -/
def Overrides (hostname : StdString) (strategy : Strategy) (d : D) (known e : Entry D) : Prop :=
  ¬ e.IsOwn hostname d ∧
    (e.version = known.version ∧ known.ttl < e.ttl ∨
      strategy = .v2r ∧ known.isLocal = false ∧ known.version < e.version)

/-- The operation is the merge of a slice with such a copy of the key. -/
def RemoteOp.Overrides (hostname : StdString) (strategy : Strategy) (k : StdString) (d : D)
    (state : State D) : RemoteOp D → Prop
  | .merge slice => ∃ known e, state.get? k = some known ∧ slice.get? k = some e ∧
      SpecSuite.Overrides hostname strategy d known e
  | .bleach _ => False

/-! ### One step -/

section Step

variable {hostname k : StdString} {strategy : Strategy} {d : D} {state : State D}

/-- A merge keeps the host's data unless the copy overrides it. -/
lemma isOwn_kept_iff (hv : strategy.Versioned) {known e : Entry D}
    (hown : known.IsOwn hostname d) :
    (kept true hostname strategy (some known) e).IsOwn hostname d ↔
      ¬ Overrides hostname strategy d known e := by
  rw [kept_of_versioned hv]
  by_cases hrec : recoveryApplies strategy true (known.author == hostname) known e = true
  · rw [if_pos hrec]
    obtain ⟨-, -, hlt, hlocal⟩ := recoveryApplies_iff.mp hrec
    refine iff_of_true hown ?_
    rintro ⟨-, ⟨hsame, -⟩ | ⟨hv2r, hnot, -⟩⟩
    · omega
    · rw [hlocal hv2r] at hnot
      cases hnot
  · rw [if_neg hrec]
    by_cases htake : known.version < e.version ∨ e.version = known.version ∧ known.ttl < e.ttl
    · rw [if_pos htake]
      -- a copy of a higher version is only taken where the entry is not local
      have hover : e.version = known.version ∧ known.ttl < e.ttl ∨
          strategy = .v2r ∧ known.isLocal = false ∧ known.version < e.version := by
        refine htake.symm.imp_right fun hlt => ?_
        rw [recoveryApplies_iff] at hrec
        have hlocal : ¬ (strategy = .v2r → known.isLocal = true) :=
          fun hc => hrec ⟨rfl, hown.1, hlt, hc⟩
        rw [Classical.not_imp, Bool.not_eq_true] at hlocal
        exact ⟨hlocal.1, hlocal.2, hlt⟩
      show e.adopted.IsOwn hostname d ↔ ¬ (¬ e.IsOwn hostname d ∧ _)
      rw [and_iff_left hover, not_not]
      exact Iff.rfl
    · rw [if_neg htake]
      refine iff_of_true hown ?_
      rintro ⟨-, hsame | ⟨-, -, hlt⟩⟩
      · exact htake (Or.inr hsame)
      · exact htake (Or.inl hlt)

variable [BEq D]

/-- **One step** leaves the host's data, as long as it leaves an entry, unless it overrides
them. -/
theorem RemoteOp.step_keeps_iff (hv : strategy.Versioned) (op : RemoteOp D) {known e' : Entry D}
    (hknown : state.get? k = some known) (hown : known.IsOwn hostname d)
    (he' : (op.step hostname strategy state).get? k = some e') :
    e'.IsOwn hostname d ↔ ¬ op.Overrides hostname strategy k d state := by
  cases op with
  | merge slice =>
      rw [RemoteOp.step, merge_get?, hknown] at he'
      rw [RemoteOp.Overrides]
      simp only [hknown]
      cases hslice : slice.get? k with
      | none =>
          rw [hslice] at he'
          obtain rfl := Option.some.inj he'
          refine iff_of_true hown ?_
          rintro ⟨_, _, -, hnone, -⟩
          cases hnone
      | some e =>
          rw [hslice] at he'
          obtain rfl := Option.some.inj he'
          rw [isOwn_kept_iff hv hown]
          refine not_congr ⟨fun h => ⟨known, e, rfl, rfl, h⟩, ?_⟩
          rintro ⟨_, _, hsome, hsome', h⟩
          obtain rfl := Option.some.inj hsome
          obtain rfl := Option.some.inj hsome'
          exact h
  | bleach elapsed =>
      refine iff_of_true ?_ not_false
      rw [RemoteOp.step] at he'
      cases hbleach : SpecSuite.bleach state elapsed with
      | none =>
          rw [hbleach, Option.elim_none, hknown] at he'
          exact Option.some.inj he' ▸ hown
      | some result =>
          rw [hbleach, Option.elim_some, bleach_get? hbleach, hknown, Option.bind_some] at he'
          split_ifs at he'
          obtain rfl := Option.some.inj he'
          exact hown

end Step

/-! ### Runs -/

section Run

variable [BEq D] {hostname k : StdString} {strategy : Strategy} {d : D} {state : State D}

/-- The node has an entry for the key in every state of the run. -/
def Holding (hostname : StdString) (strategy : Strategy) (k : StdString) (state : State D)
    (ops : List (RemoteOp D)) : Prop :=
  Throughout (RemoteOp.step hostname strategy) (fun s => (s.get? k).isSome) state ops

/-- As long as the node has an entry for the key, it is of the host, with the data `d`. -/
def KeepsOwn (hostname : StdString) (strategy : Strategy) (k : StdString) (d : D)
    (state : State D) (ops : List (RemoteOp D)) : Prop :=
  ∀ pre, pre <+: ops → Holding hostname strategy k state pre →
    ∃ e, (run (RemoteOp.step hostname strategy) state pre).get? k = some e ∧ e.IsOwn hostname d

/-- As long as the node has an entry for the key, no operation overrides it. -/
def NeverOverridden (hostname : StdString) (strategy : Strategy) (k : StdString) (d : D)
    (state : State D) (ops : List (RemoteOp D)) : Prop :=
  ∀ pre op, pre ++ [op] <+: ops → Holding hostname strategy k state pre →
    ¬ op.Overrides hostname strategy k d (run (RemoteOp.step hostname strategy) state pre)

/-- The last operation that removes the entry does not override it. -/
lemma RemoteOp.not_overrides_of_removes (op : RemoteOp D)
    (h : ((op.step hostname strategy state).get? k).isSome = false) :
    ¬ op.Overrides hostname strategy k d state := by
  cases op with
  | merge slice =>
      rintro ⟨known, e, -, hslice, -⟩
      rw [RemoteOp.step, merge_get?, hslice] at h
      cases h
  | bleach elapsed => exact not_false

/-- **Runs.** The node keeps its data as long as it has an entry if and only if no operation
overrides them. -/
theorem keepsOwn_iff_neverOverridden (hv : strategy.Versioned) {known : Entry D}
    (hknown : state.get? k = some known) (hown : known.IsOwn hostname d)
    (ops : List (RemoteOp D)) :
    KeepsOwn hostname strategy k d state ops ↔ NeverOverridden hostname strategy k d state ops := by
  constructor
  · intro hkeeps pre op hpre hholding hover
    obtain ⟨e, he, heown⟩ := hkeeps pre ((List.prefix_append _ _).trans hpre) hholding
    cases hsome : ((op.step hostname strategy
        (run (RemoteOp.step hostname strategy) state pre)).get? k).isSome with
    | false => exact op.not_overrides_of_removes hsome hover
    | true =>
        have hholding' : Holding hostname strategy k state (pre ++ [op]) :=
          throughout_concat.mpr ⟨hholding, by rw [run_concat]; exact hsome⟩
        obtain ⟨e', he', heown'⟩ := hkeeps (pre ++ [op]) hpre hholding'
        rw [run_concat] at he'
        exact (op.step_keeps_iff hv he heown he').mp heown' hover
  · intro hnever
    refine run_induction (fun _ => ⟨known, hknown, hown⟩) fun pre op hpre ih hholding => ?_
    obtain ⟨hbefore, hsome⟩ := throughout_concat.mp hholding
    obtain ⟨e, he, heown⟩ := ih hbefore
    obtain ⟨e', he'⟩ := Option.isSome_iff_exists.mp hsome
    refine ⟨e', he', ?_⟩
    rw [run_concat] at he'
    exact (op.step_keeps_iff hv he heown he').mpr (hnever pre op hpre hbefore)

omit [BEq D] in
/-- What an insert leaves under its key. -/
lemma authorInsert_isOwn (state : State D) (hostname k : StdString) (d : D) (strategy : Strategy)
    (bleachTtl updateInterval : ℤ) :
    ∃ e, (authorInsert state hostname k d strategy bleachTtl updateInterval).get? k = some e ∧
      e.IsOwn hostname d :=
  ⟨_, (Dict.get?_set _ _ _ _).trans (if_pos rfl), rfl, rfl⟩

/-- **A node's own measurement.** After an insert of `d`, however the merges and bleaches go on:
the node keeps its data as long as it has an entry for the key if and only if no slice overrides
them. -/
theorem keepsOwn_iff (hv : strategy.Versioned) (state : State D) (hostname k : StdString) (d : D)
    (bleachTtl updateInterval : ℤ) (ops : List (RemoteOp D)) :
    let inserted := authorInsert state hostname k d strategy bleachTtl updateInterval
    KeepsOwn hostname strategy k d inserted ops ↔
      NeverOverridden hostname strategy k d inserted ops := by
  intro inserted
  obtain ⟨known, hknown, hown⟩ :=
    authorInsert_isOwn state hostname k d strategy bleachTtl updateInterval
  exact keepsOwn_iff_neverOverridden hv hknown hown ops

end Run

/-! ### Two echoes -/

/-- A slice with one copy of the key, of an earlier measurement of host `A`. -/
def echoSlice (version : ℤ) : State ℕ :=
  (∅ : State ℕ).set (bytes "k") ⟨bytes "A", 400, 5, version, false⟩

/-- The state of `A` after a reboot and an insert. -/
def freshlyInserted (strategy : Strategy) : State ℕ :=
  authorInsert ∅ (bytes "A") (bytes "k") 6 strategy 300 30

lemma echoSlice_get? (version : ℤ) :
    (echoSlice version).get? (bytes "k") = some ⟨bytes "A", 400, 5, version, false⟩ :=
  (Dict.get?_set _ _ _ _).trans (if_pos rfl)

lemma freshlyInserted_get? {strategy : Strategy} (hv : strategy.Versioned) :
    (freshlyInserted strategy).get? (bytes "k") = some ⟨bytes "A", 300, 6, 1, true⟩ := by
  rcases hv with rfl | rfl
  · exact (Dict.get?_set _ _ _ _).trans (if_pos rfl)
  · exact (Dict.get?_set _ _ _ _).trans (if_pos rfl)

/-- An echo of a higher version does not replace the measurement. -/
theorem keepsOwn_higherVersion :
    KeepsOwn (bytes "A") .v2r (bytes "k") 6 (freshlyInserted .v2r)
      [.merge (echoSlice 5), .bleach 10] := by
  refine (keepsOwn_iff (Or.inr rfl) ∅ (bytes "A") (bytes "k") 6 300 30 _).mpr ?_
  rintro pre op hpre -
  cases pre with
  | nil =>
      obtain ⟨rfl, -⟩ := List.cons_prefix_cons.mp hpre
      rintro ⟨known, e, hknown, he, -, hover⟩
      obtain rfl := Option.some.inj ((freshlyInserted_get? (Or.inr rfl)).symm.trans hknown)
      obtain rfl := Option.some.inj ((echoSlice_get? 5).symm.trans he)
      rcases hover with ⟨hsame, -⟩ | ⟨-, hlocal, -⟩
      · cases hsame
      · cases hlocal
  | cons op₀ pre =>
      obtain ⟨-, hpre'⟩ := List.cons_prefix_cons.mp hpre
      obtain rfl : op = .bleach 10 := by
        cases pre with
        | nil => exact (List.cons_prefix_cons.mp hpre').1
        | cons op₁ pre => simp at hpre'
      exact not_false

/-- An echo of the same version and a higher TTL does. -/
theorem not_keepsOwn_sameVersion :
    ¬ KeepsOwn (bytes "A") .v2 (bytes "k") 6 (freshlyInserted .v2) [.merge (echoSlice 1)] ∧
    ¬ KeepsOwn (bytes "A") .v2r (bytes "k") 6 (freshlyInserted .v2r) [.merge (echoSlice 1)] := by
  have hall : ∀ strategy : Strategy, strategy.Versioned → ¬ KeepsOwn (bytes "A") strategy
      (bytes "k") 6 (freshlyInserted strategy) [.merge (echoSlice 1)] := by
    intro strategy hv hkeeps
    have hknown := freshlyInserted_get? hv
    refine (keepsOwn_iff_neverOverridden hv hknown ⟨rfl, rfl⟩ _).mp hkeeps [] _ List.prefix_rfl
      (throughout_nil.mpr ?_) ⟨_, _, hknown, echoSlice_get? 1, ?_, Or.inl ⟨rfl, by decide⟩⟩
    · rw [hknown]
      rfl
    · rintro ⟨-, hdata⟩
      cases hdata
  exact ⟨hall .v2 (Or.inl rfl), hall .v2r (Or.inr rfl)⟩

end SpecSuite

end SharedStateAsync
