/-
The `v1` strategy of the spec suite is the deployed store.

The suite and the daemon hold the entries of a type in different kinds of tables and
iterate them in different orders. What they have under a key is the same along every run
of merges and bleaches, and so is what they report.

* `Entry.toStateEntry`, `sliceMap`: the entries the suite and the daemon have in common;
* `SameEntries`: a state of the suite and a type of the daemon with the same entries;
* `modelStep`, `storeStep`: an operation on the one and on the other, with its report;
* `sameEntries_merge`, `sameEntries_bleach`: one operation;
* `model_refines`: runs.
-/
import SharedStateAsync.Lib.Machine
import SharedStateAsync.SpecSuite.Model
import SharedStateAsync.Store.Merge

namespace SharedStateAsync

namespace SpecSuite

open Machine

variable {D : Type}

/-! ### The entries in common -/

/-- An entry without what the daemon does not have. -/
def Entry.toStateEntry (e : Entry D) : StateEntry D := ⟨e.author, e.ttl, e.data⟩

/-- The slice the daemon gets when the suite has `slice`. -/
def sliceMap (slice : State D) : StateMap D := (slice.mapValues Entry.toStateEntry).toOrdMap

lemma sliceMap_getElem? (slice : State D) (k : StateKey) :
    (sliceMap slice)[k]? = (slice.get? k).map Entry.toStateEntry := by
  rw [sliceMap, Dict.getElem?_toOrdMap, Dict.get?_mapValues]

/-- The type is registered and has the entries of `state`. -/
def SameEntries (t : StdString) (state : State D) (s : SharedState D) : Prop :=
  s.Registered t ∧ ∀ k, s.entryAt t k = (state.get? k).map Entry.toStateEntry

/-- What an operation reports. -/
inductive Report where
  | merged (significant : ℤ)
  | expired (count : ℤ)
  | error
  deriving DecidableEq, Repr

/-- An operation on the suite's state and on the daemon's: a merge on a host with a peer, or a
bleach. -/
inductive SuiteOp (D : Type) where
  | merge (host : Host) (peerAddr : SockAddr) (slice : State D)
  | bleach (elapsed : ℤ)

variable [BEq D]

/-- An operation of the suite. -/
def modelStep (acc : State D × List Report) : SuiteOp D → State D × List Report
  | .merge host peerAddr slice =>
      let (state, r) := merge acc.1 slice (!host.isLoopbackNet peerAddr) host.authorPlaceOlder .v1
      (state, acc.2 ++ [.merged r.significant])
  | .bleach elapsed =>
      match bleach acc.1 elapsed with
      | none => (acc.1, acc.2 ++ [.error])
      | some (expired, state) => (state, acc.2 ++ [.expired expired.length])

/-- The same operation of the daemon. -/
def storeStep (t : StdString) (acc : SharedState D × List Report) :
    SuiteOp D → SharedState D × List Report
  | .merge host peerAddr slice =>
      match acc.1.merge host t (sliceMap slice) peerAddr with
      | .ok (changes, s) => (s, acc.2 ++ [.merged changes])
      | .error _ => (acc.1, acc.2 ++ [.error])
  | .bleach elapsed =>
      match acc.1.bleach t elapsed with
      | .ok (changes, s) => (s, acc.2 ++ [.expired changes])
      | .error _ => (acc.1, acc.2 ++ [.error])

/-! ### One merge -/

omit [BEq D] in
lemma discardsIll_iff {remote : Bool} {hostname : StdString} {a e : Entry D} :
    (remote && a.author == hostname && decide (e.ttl > a.ttl)) = true ↔
      remote = true ∧ a.author = hostname ∧ a.ttl < e.ttl := by
  simp only [Bool.and_eq_true, beq_iff_eq, decide_eq_true_eq, gt_iff_lt, and_assoc]

omit [BEq D] in
/-- Both keep the same copy. -/
lemma kept_toStateEntry (remote : Bool) (hostname : StdString) (known : Option (Entry D))
    (e : Entry D) :
    (kept remote hostname .v1 known e).toStateEntry
      = resolve hostname remote (known.map Entry.toStateEntry) e.toStateEntry := by
  cases known with
  | none => rfl
  | some a =>
      simp only [kept, thresholdOk, reduceCtorEq, or_self, if_false, discardsIll_iff,
        decide_eq_true_eq, Option.map_some, resolve, Entry.toStateEntry, ge_iff_le]
      by_cases hc : remote = true ∧ a.author = hostname ∧ a.ttl < e.ttl
      · rw [if_pos hc, if_neg fun hle => hle.2 hc]
      · rw [if_neg hc]
        by_cases hle : a.ttl ≤ e.ttl
        · rw [if_pos hle, if_pos ⟨hle, hc⟩]
          rfl
        · rw [if_neg hle, if_neg fun hboth => hle hboth.1]

/-- Both count the same at an entry. -/
lemma mergeItem_significant (remote : Bool) (hostname : StdString) (acc : State D × MergeResult)
    (k : StdString) (e : Entry D) :
    (mergeItem remote hostname .v1 acc k e).2.significant = acc.2.significant
      + counted hostname remote ((acc.1.get? k).map Entry.toStateEntry) e.toStateEntry := by
  rw [mergeItem]
  cases acc.1.get? k with
  | none => rfl
  | some a =>
      have hrej : Rejects hostname remote a.toStateEntry e.toStateEntry ↔
          e.ttl < a.ttl ∨ remote = true ∧ a.author = hostname ∧ a.ttl < e.ttl := Iff.rfl
      simp only [reduceCtorEq, or_self, if_false, discardsIll_iff, thresholdOk, decide_eq_true_eq,
        counted, Option.map_some, hrej, ge_iff_le]
      by_cases hc : remote = true ∧ a.author = hostname ∧ a.ttl < e.ttl
      · rw [if_pos hc, if_pos (Or.inr hc), Nat.cast_zero, add_zero]
        rfl
      · by_cases hlt : e.ttl < a.ttl
        · rw [if_neg hc, if_neg (not_le.mpr hlt), if_pos (Or.inl hlt), Nat.cast_zero, add_zero]
          rfl
        · rw [if_neg hc, if_pos (not_lt.mp hlt), if_neg (not_or.mpr ⟨hlt, hc⟩)]
          change (if (a.data != e.data) = true then _ else _) = acc.2.significant
            + ((if (a.data != e.data) = true then 1 else 0 : ℕ) : ℤ)
          split_ifs
          · rfl
          · rw [Nat.cast_zero, add_zero]

/-- What a merge of the suite counts is what the loop of the daemon counts. -/
lemma merge_significant {state : State D} {tState : StateMap D}
    (h : ∀ k, tState[k]? = (state.get? k).map Entry.toStateEntry) (slice : State D)
    (remote : Bool) (hostname : StdString) :
    (merge state slice remote hostname .v1).2.significant
      = (mergeLoop hostname remote tState (sliceMap slice)).significantChanges := by
  have hcount := (keyedLoop_mergeItem remote hostname .v1).foldl_count
    (fun acc : State D × MergeResult => acc.2.significant)
    (fun known e => counted hostname remote (known.map Entry.toStateEntry) e.toStateEntry)
    (mergeItem_significant remote hostname) slice.nodup (state, {})
  have hperm := Dict.perm_toList (sliceMap_getElem? slice)
  rw [merge, hcount, significantChanges_eq_weight, OrdMap.weight,
    ← (hperm.map fun p => counted hostname remote tState[p.1]? p.2).sum_eq, Dict.mapValues,
    List.map_map, Nat.cast_list_sum, List.map_map, zero_add]
  refine congrArg List.sum (List.map_congr_left fun p _ => ?_)
  rw [Function.comp_apply, Function.comp_apply, h]

section Step

variable {t : StdString} {state : State D} {s : SharedState D}

omit [BEq D] in
/-- The entries of the type as a map. -/
lemma SameEntries.exists_state (h : SameEntries t state s) :
    ∃ tState, s.mStates[t]? = some tState ∧
      ∀ k, tState[k]? = (state.get? k).map Entry.toStateEntry := by
  obtain ⟨tState, hstate⟩ := Option.isSome_iff_exists.mp h.1.1
  refine ⟨tState, hstate, fun k => ?_⟩
  have hk := h.2 k
  rwa [SharedState.entryAt, hstate, Option.bind_some] at hk

omit [BEq D] in
lemma SameEntries.setState {state' : State D} {tState' : StateMap D} (h : SameEntries t state s)
    (h' : ∀ k, tState'[k]? = (state'.get? k).map Entry.toStateEntry) :
    SameEntries t state' (s.setState t tState') := by
  refine ⟨SharedState.setState_registered _ h.1, fun k => ?_⟩
  rw [SharedState.entryAt, SharedState.setState_getElem?_self, Option.bind_some, h']

/-- **A merge** leaves the same entries and reports the same number. -/
lemma sameEntries_merge (h : SameEntries t state s) (reports : List Report) (host : Host)
    (peerAddr : SockAddr) (slice : State D) :
    SameEntries t (modelStep (state, reports) (.merge host peerAddr slice)).1
        (storeStep t (s, reports) (.merge host peerAddr slice)).1 ∧
      (modelStep (state, reports) (.merge host peerAddr slice)).2
        = (storeStep t (s, reports) (.merge host peerAddr slice)).2 := by
  obtain ⟨tState, hstate, hentries⟩ := h.exists_state
  obtain ⟨tState₀, htState₀, hmerge⟩ := SharedState.merge_eq_ok host h.1 (sliceMap slice) peerAddr
  obtain rfl := Option.some.inj (hstate.symm.trans htState₀)
  rw [modelStep, storeStep, hmerge]
  refine ⟨h.setState fun k => ?_, ?_⟩
  · rw [mergeState_getElem?, sliceMap_getElem?, merge_get?, hentries]
    cases slice.get? k with
    | none => rfl
    | some e => exact congrArg some (kept_toStateEntry _ _ _ _).symm
  · dsimp only
    rw [merge_significant hentries]

omit [BEq D] in
/-- The number of entries a bleach removes. -/
lemma expired_length {tState : StateMap D}
    (h : ∀ k, tState[k]? = (state.get? k).map Entry.toStateEntry) (elapsed : ℤ) :
    (((state.items.filter fun p => p.2.ttl ≤ elapsed).map Prod.fst).length : ℤ)
      = tState.size - (bleachState elapsed tState).size := by
  -- every entry is kept or expires
  have hsize : tState.size = (bleachState elapsed tState).size
      + tState.weight fun _ e => if e.mTtl ≤ elapsed then 1 else 0 := by
    rw [OrdMap.size_eq_weight, OrdMap.size_eq_weight]
    refine OrdMap.weight_eq_add fun k => ?_
    rw [OrdMap.weightAt, OrdMap.weightAt, OrdMap.weightAt, bleachState_getElem?]
    cases tState[k]? with
    | none => rfl
    | some e =>
        by_cases hle : e.mTtl ≤ elapsed
        · simp [hle]
        · simp [hle]
  have hperm := Dict.perm_toList h
  have hweight : tState.weight (fun _ e => if e.mTtl ≤ elapsed then 1 else 0)
      = (state.items.filter fun p => p.2.ttl ≤ elapsed).length := by
    rw [OrdMap.weight_ite, ← (hperm.filter fun p => p.2.mTtl ≤ elapsed).length_eq, Dict.mapValues,
      List.filter_map, List.length_map]
    rfl
  rw [List.length_map, ← hweight, hsize]
  push_cast
  ring

/-- **A bleach** leaves the same entries, reports the same number and fails in the same calls. -/
lemma sameEntries_bleach (h : SameEntries t state s) (reports : List Report) (elapsed : ℤ) :
    SameEntries t (modelStep (state, reports) (.bleach elapsed)).1
        (storeStep t (s, reports) (.bleach elapsed)).1 ∧
      (modelStep (state, reports) (.bleach elapsed)).2
        = (storeStep t (s, reports) (.bleach elapsed)).2 := by
  obtain ⟨tState, hstate, hentries⟩ := h.exists_state
  rw [modelStep, storeStep, SharedState.bleach]
  by_cases helapsed : elapsed < 1
  · have hnone : bleach state elapsed = none := if_pos helapsed
    rw [if_pos helapsed]
    simp only [hnone]
    exact ⟨h, trivial⟩
  · have hsome : bleach state elapsed = some _ := if_neg helapsed
    rw [if_neg helapsed, hstate]
    simp only [hsome]
    refine ⟨h.setState fun k => ?_, ?_⟩
    · rw [bleach_get? hsome, bleachState_getElem?, hentries]
      cases state.get? k with
      | none => rfl
      | some e =>
          change (if e.ttl ≤ elapsed then none else some _) = _
          rw [Option.bind_some]
          split_ifs <;> rfl
    · rw [expired_length hentries]

/-- **The model of the suite is the deployed store**: from the same entries, every run of merges
and bleaches leads to the same entries and makes the same reports. -/
theorem model_refines (h : SameEntries t state s) (ops : List (SuiteOp D)) :
    SameEntries t (run modelStep (state, []) ops).1 (run (storeStep t) (s, []) ops).1 ∧
      (run modelStep (state, []) ops).2 = (run (storeStep t) (s, []) ops).2 := by
  induction ops using List.reverseRecOn with
  | nil => exact ⟨h, rfl⟩
  | append_singleton ops op ih =>
      rw [run_concat, run_concat]
      obtain ⟨hsame, hreports⟩ := ih
      set m := run modelStep (state, []) ops
      set c := run (storeStep t) (s, []) ops
      have hm : m = (m.1, c.2) := Prod.ext rfl hreports
      rw [hm]
      cases op with
      | merge host peerAddr slice => exact sameEntries_merge hsame c.2 host peerAddr slice
      | bleach elapsed => exact sameEntries_bleach hsame c.2 elapsed

end Step

/-- A slice of another host with one entry. -/
def suiteSlice : State ℕ := (∅ : State ℕ).set (bytes "k") ⟨bytes "b", 9, 1, 0, false⟩

/-- An entry that is merged and expires, and a bleach that fails. -/
def suiteOps : List (SuiteOp ℕ) :=
  [.merge ⟨bytes "a", fun _ => false⟩ [] suiteSlice, .bleach 5, .bleach 0, .bleach 5]

theorem model_refines_suiteOps :
    (run (storeStep (bytes "A")) (blankState, []) suiteOps).2
        = [.merged 1, .expired 0, .error, .expired 1] ∧
      SameEntries (bytes "A") (run modelStep (∅, []) suiteOps).1
        (run (storeStep (bytes "A")) (blankState, []) suiteOps).1 := by
  have hblank : SameEntries (bytes "A") (∅ : State ℕ) blankState := by
    refine ⟨⟨Option.isSome_of_eq_some blankState_getElem?, by decide +kernel⟩, fun k => ?_⟩
    rw [SharedState.entryAt, blankState_getElem?, Option.bind_some, Dict.get?_empty]
    exact Std.ExtTreeMap.getElem?_empty
  obtain ⟨hsame, hreports⟩ := model_refines hblank suiteOps
  exact ⟨by rw [← hreports]; decide +kernel, hsame⟩

end SpecSuite

end SharedStateAsync
