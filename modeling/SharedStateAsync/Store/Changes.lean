/-
What a merge changes, and what it returns.

`SharedState::merge` returns the number of its significant changes, and the daemon
calls the hooks when there are any. The hooks are given an object with the data of
all entries, so what matters to them is under how many keys the data have changed.

* `nothingNew_mergeState`, `merge_twice`: merging a slice again changes nothing;
* `cleanJsonData`, `changedKeys`: the object the hooks are given, and the keys whose
  values in it change;
* `CountsInVain`: data that are counted although they are the same;
* `significantChanges_eq_ncard_iff`: the count is right if there are none of these;
* `MergeReports`, `mergeSlice_reports_iff`: what the coroutine returns.
-/
import SharedStateAsync.Lib.Json
import SharedStateAsync.Session.Handlers

namespace SharedStateAsync

open Coro

/-! ### Merging a slice again -/

section Twice

variable {D : Type} [BEq D]

/-- After a merge there is nothing new in the slice: its entries were taken, or they are
rejected again. -/
lemma nothingNew_mergeState (h : StdString) (r : Bool) (tState stateSlice : StateMap D) :
    NothingNew h r (mergeState h r tState stateSlice) stateSlice := by
  intro k e he
  rw [mergeState_getElem?_of_some he]
  cases hk : tState[k]? with
  | none => exact ⟨e, rfl, Or.inl rfl⟩
  | some a =>
      rcases resolve_eq_or_rejects h r a e with htaken | ⟨hkept, hrej⟩
      · exact ⟨e, congrArg some htaken, Or.inl rfl⟩
      · exact ⟨a, congrArg some hkept, Or.inr hrej⟩

/-- **Merging the same slice twice** is the same as merging it once. -/
theorem merge_twice (host : Host) (s : SharedState D) (t : StdString) (stateSlice : StateMap D)
    (peerAddr : SockAddr) :
    (do let (_, s₁) ← s.merge host t stateSlice peerAddr
        let (_, s₂) ← s₁.merge host t stateSlice peerAddr
        return s₂ : Except Raised (SharedState D))
      = (do let (_, s₁) ← s.merge host t stateSlice peerAddr
            return s₁) := by
  rcases s.merge_cases host t stateSlice peerAddr with ⟨tState, conf, -, hconf, hmerge⟩ |
    ⟨-, hmerge⟩ | ⟨tState, -, -, hmerge⟩
  · rw [hmerge]
    set s₁ := s.setState t (mergeState host.authorPlaceOlder (!host.isLoopbackNet peerAddr) tState
      stateSlice)
    have hstate₁ : s₁.mStates[t]? = some (mergeState host.authorPlaceOlder
        (!host.isLoopbackNet peerAddr) tState stateSlice) :=
      SharedState.setState_getElem?_self _ _ _
    have hreg : s₁.Registered t :=
      ⟨Option.isSome_iff_exists.mpr ⟨_, hstate₁⟩, Option.isSome_iff_exists.mpr ⟨conf, hconf⟩⟩
    obtain ⟨tState₁, htState₁, hmerge₁⟩ := SharedState.merge_eq_ok host hreg stateSlice peerAddr
    obtain rfl := Option.some.inj (hstate₁.symm.trans htState₁)
    rw [mergeState_eq_self_iff.mpr (nothingNew_mergeState _ _ _ _),
      SharedState.setState_self hstate₁] at hmerge₁
    change (s₁.merge host t stateSlice peerAddr >>= fun x => pure x.2) = pure s₁
    rw [hmerge₁]
    rfl
  · rw [hmerge]
    rfl
  · rw [hmerge]
    rfl

end Twice

/-! ### The keys whose data change -/

section Counting

variable {N : Type}

/-- The object `notifyHooks` gives to the hooks. -/
def cleanJsonData (tState : StateMap (Json N)) : OrdMap StateKey (Json N) :=
  tState.map fun _ stateEntry => stateEntry.mData

/-- What there is under a key differs, as a JSON value; a new key counts as different. -/
def ValueDiffers : Option (Json N) → Option (Json N) → Prop
  | none, none => False
  | some v, some v' => ¬ v.Same v'
  | _, _ => True

/-- The keys whose values differ in the objects the hooks are given. -/
def changedKeys (before after : StateMap (Json N)) : Set StateKey :=
  { k | ValueDiffers (cleanJsonData before)[k]? (cleanJsonData after)[k]? }

/-- An entry replaces one with the same data, in which a name is repeated. -/
def CountsInVain (h : StdString) (r : Bool) (tState stateSlice : StateMap (Json N))
    (k : StateKey) : Prop :=
  ∃ a e, tState[k]? = some a ∧ stateSlice[k]? = some e ∧ ¬ Rejects h r a e ∧
    a.mData.Same e.mData ∧ ¬ a.mData.Distinct

variable [DecidableEq N] {h : StdString} {r : Bool} {tState stateSlice : StateMap (Json N)}
  {k : StateKey}

lemma mem_changedKeys_of_none (hk : stateSlice[k]? = none) :
    k ∉ changedKeys tState (mergeState h r tState stateSlice) := by
  rw [changedKeys, Set.mem_ofPred_eq, cleanJsonData, cleanJsonData, Std.ExtTreeMap.getElem?_map,
    Std.ExtTreeMap.getElem?_map, mergeState_getElem?_of_none hk]
  cases tState[k]? with
  | none => exact not_false
  | some a => exact not_not_intro (Json.Same.refl _)

lemma mem_changedKeys_of_new {e : StateEntry (Json N)} (hk : stateSlice[k]? = some e)
    (ha : tState[k]? = none) : k ∈ changedKeys tState (mergeState h r tState stateSlice) := by
  rw [changedKeys, Set.mem_ofPred_eq, cleanJsonData, cleanJsonData, Std.ExtTreeMap.getElem?_map,
    Std.ExtTreeMap.getElem?_map, mergeState_getElem?_of_some hk, ha]
  trivial

lemma mem_changedKeys_of_known {a e : StateEntry (Json N)} (hk : stateSlice[k]? = some e)
    (ha : tState[k]? = some a) : k ∈ changedKeys tState (mergeState h r tState stateSlice) ↔
      ¬ Rejects h r a e ∧ ¬ a.mData.Same e.mData := by
  rw [changedKeys, Set.mem_ofPred_eq, cleanJsonData, cleanJsonData, Std.ExtTreeMap.getElem?_map,
    Std.ExtTreeMap.getElem?_map, mergeState_getElem?_of_some hk, ha]
  change ¬ a.mData.Same (resolve h r (some a) e).mData ↔ _
  by_cases hrej : Rejects h r a e
  · rw [hrej.resolve_eq]
    exact iff_of_false (not_not_intro (Json.Same.refl _)) fun hc => hc.1 hrej
  · rcases resolve_eq_or_rejects h r a e with htaken | ⟨-, hrej'⟩
    · rw [htaken, and_iff_right hrej]
    · exact absurd hrej' hrej

open Classical in
/-- What a merge counts under a key: one if the data change, and one if it counts in
vain. -/
lemma weightAt_counted (k : StateKey) :
    stateSlice.weightAt (fun k e => counted h r tState[k]? e) k
      = (if k ∈ changedKeys tState (mergeState h r tState stateSlice) then 1 else 0)
        + if CountsInVain h r tState stateSlice k then 1 else 0 := by
  rw [OrdMap.weightAt]
  cases hk : stateSlice[k]? with
  | none =>
      have hvain : ¬ CountsInVain h r tState stateSlice k := by
        rintro ⟨a, e, -, he, -⟩
        cases hk.symm.trans he
      rw [if_neg (mem_changedKeys_of_none hk), if_neg hvain]
      rfl
  | some e =>
      rw [Option.elim_some]
      cases ha : tState[k]? with
      | none =>
          have hvain : ¬ CountsInVain h r tState stateSlice k := by
            rintro ⟨a, e, ha', -⟩
            cases ha.symm.trans ha'
          rw [if_pos (mem_changedKeys_of_new hk ha), if_neg hvain]
          rfl
      | some a =>
          have hvain : CountsInVain h r tState stateSlice k ↔
              ¬ Rejects h r a e ∧ a.mData.Same e.mData ∧ ¬ a.mData.Distinct := by
            constructor
            · rintro ⟨a', e', ha', he', hc⟩
              obtain rfl := Option.some.inj (ha.symm.trans ha')
              obtain rfl := Option.some.inj (hk.symm.trans he')
              exact hc
            · exact fun hc => ⟨a, e, ha, hk, hc⟩
          have hbeq : (a.mData != e.mData) = true ↔
              ¬ (a.mData.Same e.mData ∧ a.mData.Distinct) := by
            rw [← Json.beq_iff, Bool.not_eq_true]
            exact iff_of_eq (Bool.not_eq_true' (Json.beq a.mData e.mData))
          simp only [mem_changedKeys_of_known hk ha, hvain, counted, hbeq]
          by_cases hrej : Rejects h r a e
          · simp [hrej]
          · by_cases hsame : a.mData.Same e.mData
            · simp [hrej, hsame]
            · simp [hrej, hsame]

/-- **What a merge returns**: the number of keys whose data change, if it counts none in
vain. -/
lemma significantChanges_eq_ncard_iff (h : StdString) (r : Bool)
    (tState stateSlice : StateMap (Json N)) :
    (mergeLoop h r tState stateSlice).significantChanges
        = (changedKeys tState (mergeState h r tState stateSlice)).ncard ↔
      ∀ k, ¬ CountsInVain h r tState stateSlice k := by
  classical
  set changed := changedKeys tState (mergeState h r tState stateSlice)
  -- both kinds of keys are keys of the slice
  have hchanged : changed = (stateSlice.keySet.filter (· ∈ changed) : Finset StateKey) := by
    ext k
    rw [Finset.coe_filter, Set.mem_ofPred_eq, iff_and_self, OrdMap.mem_keySet]
    intro hk
    cases hnone : stateSlice[k]? with
    | none => exact absurd hk (mem_changedKeys_of_none hnone)
    | some e => rfl
  have hvain : ∀ k, CountsInVain h r tState stateSlice k → k ∈ stateSlice.keySet := by
    rintro k ⟨a, e, -, he, -⟩
    rw [OrdMap.mem_keySet, he]
    rfl
  have hcard : changed.ncard = (stateSlice.keySet.filter (· ∈ changed)).card := by
    conv_lhs => rw [hchanged]
    exact Set.ncard_coe_finset _
  rw [significantChanges_eq_weight, OrdMap.weight_eq_sum _ _ subset_rfl, hcard, Nat.cast_inj,
    Finset.sum_congr rfl fun k _ => weightAt_counted k, Finset.sum_add_distrib,
    Finset.card_filter, add_eq_left, Finset.sum_eq_zero_iff]
  refine ⟨fun hzero k hk => ?_, fun hnone k _ => if_neg (hnone k)⟩
  have hk' := hzero k (hvain k hk)
  rw [if_pos hk] at hk'
  cases hk'

/-! ### What the coroutine returns -/

/-- What is asked of a merge that returns `changes`: it is the number of keys of the type
whose data have changed, no other type has, and for a type that is not registered it is
-1 and nothing has. -/
structure MergeReports (t : StdString) (m m' : Process (Json N)) (changes : ℤ) : Prop where
  registered : m.shared.Registered t → ∃ tState tState', m.shared.mStates[t]? = some tState ∧
    m'.shared.mStates[t]? = some tState' ∧ changes = (changedKeys tState tState').ncard
  others : ∀ u, u ≠ t → m'.shared.mStates[u]? = m.shared.mStates[u]?
  unregistered : ¬ m.shared.Registered t → changes = -1 ∧ m' = m

variable {P : Platform (Json N)} {t : StdString} {peerAddr : SockAddr} {m : Process (Json N)}
  {tr : Trace (Json N)}

lemma mergeSlice_reports_of_registered {conf : DataTypeConf}
    (hstate : m.shared.mStates[t]? = some tState) (hconf : m.shared.mTypeConf[t]? = some conf) :
    wp (fun _ _ => True) (fun _ _ => False) (mergeSlice P t stateSlice peerAddr .storage)
        (fun changes m' _ => MergeReports t m m' changes) m tr ↔
      ∀ k, ¬ CountsInVain P.host.authorPlaceOlder (!P.host.isLoopbackNet peerAddr) tState
        stateSlice k := by
  have hreg : m.shared.Registered t :=
    ⟨Option.isSome_of_eq_some hstate, Option.isSome_of_eq_some hconf⟩
  obtain ⟨tState₀, htState₀, hmerge⟩ :=
    SharedState.merge_eq_ok P.host hreg stateSlice peerAddr
  obtain rfl := Option.some.inj (hstate.symm.trans htState₀)
  rw [mergeSlice, wp_bind, wp_memory, hmerge, ← significantChanges_eq_ncard_iff]
  change MergeReports t m _ _ ↔ _
  constructor
  · intro hreports
    obtain ⟨tState₁, tState', htState₁, htState', hchanges⟩ := hreports.registered hreg
    obtain rfl := Option.some.inj (hstate.symm.trans htState₁)
    obtain rfl := Option.some.inj ((SharedState.setState_getElem?_self _ _ _).symm.trans htState')
    exact hchanges
  · intro hchanges
    refine ⟨fun _ => ⟨tState, _, hstate, SharedState.setState_getElem?_self _ _ _, hchanges⟩,
      fun u hu => ?_, fun hunreg => absurd hreg hunreg⟩
    exact (SharedState.setState_getElem? _ _ _ _).trans (if_neg (Ne.symm hu))

/-- **When a merge returns what the hooks can see**: unless the type has a state without a
configuration, or an entry is counted in vain. -/
theorem mergeSlice_reports_iff (P : Platform (Json N)) (t : StdString)
    (stateSlice : StateMap (Json N)) (peerAddr : SockAddr) (m : Process (Json N))
    (tr : Trace (Json N)) :
    wp (fun _ _ => True) (fun _ _ => False) (mergeSlice P t stateSlice peerAddr .storage)
        (fun changes m' _ => MergeReports t m m' changes) m tr ↔
      ∀ tState, m.shared.mStates[t]? = some tState → m.shared.mTypeConf[t]?.isSome ∧
        ∀ k, ¬ CountsInVain P.host.authorPlaceOlder (!P.host.isLoopbackNet peerAddr) tState
          stateSlice k := by
  rcases m.shared.merge_cases P.host t stateSlice peerAddr with
    ⟨tState, conf, hstate, hconf, -⟩ | ⟨hstate, hmerge⟩ | ⟨tState, hstate, hconf, hmerge⟩
  · rw [mergeSlice_reports_of_registered hstate hconf]
    constructor
    · intro hvain tState₀ htState₀
      obtain rfl := Option.some.inj (hstate.symm.trans htState₀)
      exact ⟨Option.isSome_of_eq_some hconf, hvain⟩
    · exact fun hall => (hall tState hstate).2
  · -- the type has no state
    rw [mergeSlice, wp_bind, wp_memory, hmerge]
    have hunreg : ¬ m.shared.Registered t := fun hreg => by
      rw [SharedState.Registered, hstate] at hreg
      cases hreg.1
    refine iff_of_true ?_ fun tState htState => ?_
    · exact ⟨fun hreg => absurd hreg hunreg, fun _ _ => rfl, fun _ => ⟨rfl, rfl⟩⟩
    · cases hstate.symm.trans htState
  · -- `at` throws, and what is returned can be anything
    rw [mergeSlice, wp_bind, wp_memory, hmerge]
    have hunreg : ¬ m.shared.Registered t := fun hreg => by
      rw [SharedState.Registered, hconf] at hreg
      cases hreg.2
    refine iff_of_false (fun hreports => ?_) fun hall => ?_
    · have hzero : MergeReports t m m 0 := hreports 0 trivial
      cases (hzero.unregistered hunreg).1
    · have hsome := (hall tState hstate).1
      rw [hconf] at hsome
      cases hsome

end Counting

/-! ### An object that repeats a name -/

/-- The data of `\x7b"a":1,"a":2\x7d`. -/
def repeatedName : Json ℕ := .object [(bytes "a", .number 1), (bytes "a", .number 2)]

def repeatedSlice : StateMap (Json ℕ) :=
  (∅ : StateMap (Json ℕ)).insert (bytes "k") ⟨bytes "b", 9, repeatedName⟩

/-- A node that has the slice already. -/
def repeatedProcess : Process (Json ℕ) where
  shared :=
    { mStates := (∅ : OrdMap StdString (StateMap (Json ℕ))).insert (bytes "A") repeatedSlice
      mTypeConf := (∅ : OrdMap StdString DataTypeConf).insert (bytes "A")
        ⟨bytes "A", bytes "community", 30, 300⟩
      isPeer := true }

/-- The slice of the node and its hooks' object as texts. -/
def repeatedPlatform : Platform (Json ℕ) where
  host := ⟨bytes "a", fun _ => false⟩
  endian := .little
  addrCheck := ⟨fun _ => true, some⟩
  ipToString := id
  fromStateSlice := fun _ => []
  toStateSlice := fun _ => repeatedSlice
  cleanJsonData := fun _ => bytes "\x7b\"k\":\x7b\"a\":1,\"a\":2\x7d\x7d"
  loadStats := fun _ => ∅
  printStats := fun _ => none
  statFileLocking := false

/-- Merging the slice again is counted as a change, and the data are the same. -/
theorem not_mergeReports_repeatedName :
    ¬ wp (fun _ _ => True) (fun _ _ => False)
      (mergeSlice repeatedPlatform (bytes "A") repeatedSlice [] .storage)
      (fun changes m' _ => MergeReports (bytes "A") repeatedProcess m' changes)
      repeatedProcess [] := by
  have hstate : repeatedProcess.shared.mStates[bytes "A"]? = some repeatedSlice := by
    rw [repeatedProcess, OrdMap.getElem?_insert_eq, if_pos rfl]
  have hconf : repeatedProcess.shared.mTypeConf[bytes "A"]?
      = some ⟨bytes "A", bytes "community", 30, 300⟩ := by
    rw [repeatedProcess, OrdMap.getElem?_insert_eq, if_pos rfl]
  have hentry : repeatedSlice[bytes "k"]? = some ⟨bytes "b", 9, repeatedName⟩ := by
    rw [repeatedSlice, OrdMap.getElem?_insert_eq, if_pos rfl]
  rw [mergeSlice_reports_of_registered hstate hconf]
  refine fun hvain => hvain (bytes "k") ⟨_, _, hentry, hentry, ?_, Json.Same.refl _, ?_⟩
  · rintro (hlt | ⟨-, hown, -⟩)
    · exact absurd hlt (lt_irrefl _)
    · exact absurd hown (by decide +kernel)
  · rintro ⟨hnodup, -⟩
    exact absurd hnodup (by decide +kernel)

end SharedStateAsync
