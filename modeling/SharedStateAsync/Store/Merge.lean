/-
`SharedState::merge` and `SharedState::bleach` (`src/sharedstate.cc`).

Both are written as the code computes them, the loop of `merge` with its two
counters and `bleach` with its two passes, and then read key by key:

* `mergeEntry`, `mergeLoop`, `SharedState.merge`: the loop body, the loop over
  the slice, and the coroutine's synchronous part around it;
* `resolve`: which of two copies of a key a merge keeps;
* `mergeState_getElem?`: a merge keeps, under every key, what `resolve` says;
* `NothingNew`: a slice that changes nothing;
* `counted`, `significantChanges_eq_weight`: what a merge counts, entry by entry;
* `bleachState`, `SharedState.bleach`: ageing;
* `bleachState_getElem?`: what a bleach leaves under a key.
-/
import SharedStateAsync.Basic
import SharedStateAsync.Lib.MapWeight

namespace SharedStateAsync

/-- The two ways in which a call ends without a result: an error condition
passed to `rs_error_bubble_or_exit`, or a C++ exception. -/
inductive Raised where
  | bubble (c : ErrorCondition)
  | exception
  deriving DecidableEq, Repr

variable {D : Type} [BEq D]

/-! ### Merge -/

/-- The variables of the loop in `SharedState::merge`. -/
structure MergeAcc (D : Type) where
  tState : StateMap D
  allChanges : ℤ := 0
  significantChanges : ℤ := 0

/-- The body of the loop in `SharedState::merge`. The bound `minUpdateTtl` is
computed as in the source, where the comparison that follows does not use
it. -/
def mergeEntry (authorPlaceOlder : StdString) (isRemote : Bool) (acc : MergeAcc D)
    (stateKey : StateKey) (sliceEntry : StateEntry D) : MergeAcc D :=
  match acc.tState[stateKey]? with
  | none =>
      { tState := acc.tState.insertIfNew stateKey sliceEntry
        allChanges := acc.allChanges + 1
        significantChanges := acc.significantChanges + 1 }
  | some knownEntry =>
      let ownAuthorship := knownEntry.mAuthor == authorPlaceOlder
      if isRemote && ownAuthorship && decide (sliceEntry.mTtl > knownEntry.mTtl) then acc
      else
        let _minUpdateTtl :=
          if isRemote && ownAuthorship then knownEntry.mTtl + 1 else knownEntry.mTtl
        if sliceEntry.mTtl ≥ knownEntry.mTtl then
          let significant := knownEntry.mData != sliceEntry.mData
          { tState := (acc.tState.erase stateKey).insertIfNew stateKey sliceEntry
            allChanges := acc.allChanges + 1
            significantChanges :=
              if significant then acc.significantChanges + 1 else acc.significantChanges }
        else acc

/-- The loop of `SharedState::merge` over the slice. -/
def mergeLoop (authorPlaceOlder : StdString) (isRemote : Bool) (tState : StateMap D)
    (stateSlice : StateMap D) : MergeAcc D :=
  stateSlice.foldl (mergeEntry authorPlaceOlder isRemote) { tState := tState }

/-- The state of a type after a merge. -/
def mergeState (authorPlaceOlder : StdString) (isRemote : Bool) (tState : StateMap D)
    (stateSlice : StateMap D) : StateMap D :=
  (mergeLoop authorPlaceOlder isRemote tState stateSlice).tState

/-- `SharedState::merge`: the number of significant changes and the object
afterwards. `mTypeConf.at` throws when the type has a state but no
configuration. -/
def SharedState.merge (host : Host) (s : SharedState D) (dataTypeName : StdString)
    (stateSlice : StateMap D) (peerAddr : SockAddr) :
    Except Raised (ℤ × SharedState D) :=
  match s.mStates[dataTypeName]? with
  | none => .error (.bubble .unkownDataType)
  | some tState =>
      match s.mTypeConf[dataTypeName]? with
      | none => .error .exception
      | some _ =>
          let isRemote := !host.isLoopbackNet peerAddr
          let acc := mergeLoop host.authorPlaceOlder isRemote tState stateSlice
          .ok (acc.significantChanges, s.setState dataTypeName acc.tState)

/-! ### Merge, key by key -/

/-- The copy of a key that a merge keeps, given the copy it knows, if any, and
the copy in the slice: the slice's one when its TTL is not lower, except that a
remote peer cannot raise the TTL of an entry of this host. -/
def resolve (authorPlaceOlder : StdString) (isRemote : Bool) :
    Option (StateEntry D) → StateEntry D → StateEntry D
  | none, e => e
  | some a, e =>
      if a.mTtl ≤ e.mTtl ∧ ¬ (isRemote ∧ a.mAuthor = authorPlaceOlder ∧ a.mTtl < e.mTtl)
      then e else a

section Resolve

variable {h : StdString} {r : Bool} {a e : StateEntry D}

omit [BEq D]

@[simp] lemma resolve_none (h : StdString) (r : Bool) (e : StateEntry D) :
    resolve h r none e = e := rfl

lemma resolve_of_lt (hlt : e.mTtl < a.mTtl) : resolve h r (some a) e = a := by
  rw [resolve, if_neg (by omega)]

lemma resolve_of_eq (heq : a.mTtl = e.mTtl) : resolve h r (some a) e = e := by
  rw [resolve, if_pos ⟨heq.le, by omega⟩]

lemma resolve_of_gt_own (ha : a.mAuthor = h) (hlt : a.mTtl < e.mTtl) :
    resolve h true (some a) e = a := by
  rw [resolve, if_neg (by simp [ha, hlt])]

lemma resolve_of_gt_foreign (ha : a.mAuthor ≠ h) (hlt : a.mTtl < e.mTtl) :
    resolve h r (some a) e = e := by
  rw [resolve, if_pos ⟨hlt.le, by simp [ha]⟩]

lemma resolve_loopback (hle : a.mTtl ≤ e.mTtl) : resolve h false (some a) e = e := by
  rw [resolve, if_pos ⟨hle, by simp⟩]

/-- A merge at an entry it does not protect compares TTLs. -/
lemma resolve_of_unprotected (hfree : ¬ (r = true ∧ a.mAuthor = h)) :
    resolve h r (some a) e = if a.mTtl ≤ e.mTtl then e else a := by
  have hguard : ¬ (r = true ∧ a.mAuthor = h ∧ a.mTtl < e.mTtl) := fun hc => hfree ⟨hc.1, hc.2.1⟩
  rw [resolve]
  simp only [hguard, not_false_eq_true, and_true]

/-- A merge lowers no TTL, -/
lemma le_mTtl_resolve (h : StdString) (r : Bool) (a e : StateEntry D) :
    a.mTtl ≤ (resolve h r (some a) e).mTtl := by
  rw [resolve]
  split_ifs with hc
  · exact hc.1
  · exact le_rfl

/-- and raises none over the higher one. -/
lemma mTtl_resolve_le (h : StdString) (r : Bool) (a e : StateEntry D) :
    (resolve h r (some a) e).mTtl ≤ max a.mTtl e.mTtl := by
  rw [resolve]
  split_ifs
  · exact le_max_right _ _
  · exact le_max_left _ _

/-- At an entry it does not protect it keeps the higher one. -/
lemma mTtl_resolve_of_unprotected (hfree : ¬ (r = true ∧ a.mAuthor = h)) :
    (resolve h r (some a) e).mTtl = max a.mTtl e.mTtl := by
  rw [resolve_of_unprotected hfree]
  rcases le_or_gt a.mTtl e.mTtl with hle | hgt
  · rw [if_pos hle, max_eq_right hle]
  · rw [if_neg (not_le.mpr hgt), max_eq_left hgt.le]

/-- A merge invents nothing: it keeps one of the two copies. -/
lemma resolve_eq_or (h : StdString) (r : Bool) (a e : StateEntry D) :
    resolve h r (some a) e = a ∨ resolve h r (some a) e = e := by
  rw [resolve]
  split_ifs
  · exact Or.inr rfl
  · exact Or.inl rfl

/-- A merge with a copy it already holds changes nothing. -/
@[simp] lemma resolve_self (h : StdString) (r : Bool) (a : StateEntry D) :
    resolve h r (some a) a = a := resolve_of_eq rfl

end Resolve

/-- The body of the loop touches its own key only, and there it does what
`resolve` says. -/
lemma mergeEntry_tState_getElem? (h : StdString) (r : Bool) (acc : MergeAcc D)
    (k a : StateKey) (e : StateEntry D) :
    (mergeEntry h r acc k e).tState[a]?
      = if k = a then some (resolve h r acc.tState[k]? e) else acc.tState[a]? := by
  rw [mergeEntry]
  cases hk : acc.tState[k]? with
  | none => exact OrdMap.getElem?_emplace _ _ _ _ hk
  | some b =>
      have hsame : acc.tState[a]? = if k = a then some b else acc.tState[a]? := by
        split_ifs with hka
        · rw [← hka, hk]
        · rfl
      dsimp only
      by_cases hguard : (r && b.mAuthor == h && decide (e.mTtl > b.mTtl)) = true
      · -- the remote copy is discarded
        rw [if_pos hguard]
        simp only [Bool.and_eq_true, beq_iff_eq, decide_eq_true_eq] at hguard
        obtain ⟨⟨rfl, hown⟩, hgt⟩ := hguard
        rw [resolve_of_gt_own hown hgt]
        exact hsame
      · rw [if_neg hguard]
        simp only [Bool.and_eq_true, beq_iff_eq, decide_eq_true_eq, not_and] at hguard
        by_cases hle : e.mTtl ≥ b.mTtl
        · -- `erase` and `emplace` of the same key
          rw [if_pos hle]
          have herase : (acc.tState.erase k)[k]? = none := by
            rw [OrdMap.getElem?_erase_eq, if_pos rfl]
          have hres : resolve h r (some b) e = e := by
            rw [resolve, if_pos ⟨hle, fun hc => hguard ⟨hc.1, hc.2.1⟩ hc.2.2⟩]
          rw [OrdMap.getElem?_emplace _ _ _ _ herase, hres, OrdMap.getElem?_erase_eq]
          split_ifs <;> rfl
        · rw [if_neg hle, resolve_of_lt (by omega)]
          exact hsame

/-- The loop of a merge touches one key at a time. -/
lemma keyedLoop_mergeEntry (h : StdString) (r : Bool) :
    KeyedLoop (fun (acc : MergeAcc D) (k : StateKey) => acc.tState[k]?) (mergeEntry h r)
      fun a e => some (resolve h r a e) :=
  fun acc k e a => mergeEntry_tState_getElem? h r acc k a e

/-- **A merge, key by key.** -/
theorem mergeState_getElem? (h : StdString) (r : Bool) (tState stateSlice : StateMap D)
    (k : StateKey) :
    (mergeState h r tState stateSlice)[k]?
      = stateSlice[k]?.elim tState[k]? fun e => some (resolve h r tState[k]? e) :=
  OrdMap.foldl_keyed (keyedLoop_mergeEntry h r) stateSlice { tState := tState } k

lemma mergeState_getElem?_of_none {h : StdString} {r : Bool} {tState stateSlice : StateMap D}
    {k : StateKey} (hk : stateSlice[k]? = none) :
    (mergeState h r tState stateSlice)[k]? = tState[k]? := by
  rw [mergeState_getElem?, hk, Option.elim_none]

lemma mergeState_getElem?_of_some {h : StdString} {r : Bool} {tState stateSlice : StateMap D}
    {k : StateKey} {e : StateEntry D} (hk : stateSlice[k]? = some e) :
    (mergeState h r tState stateSlice)[k]? = some (resolve h r tState[k]? e) := by
  rw [mergeState_getElem?, hk, Option.elim_some]

/-- A merge invents no entries: each was known or is in the slice. -/
lemma mergeState_eq_some {h : StdString} {r : Bool} {tState stateSlice : StateMap D}
    {k : StateKey} {e : StateEntry D} (he : (mergeState h r tState stateSlice)[k]? = some e) :
    tState[k]? = some e ∨ stateSlice[k]? = some e := by
  cases hk : stateSlice[k]? with
  | none =>
      rw [mergeState_getElem?_of_none hk] at he
      exact Or.inl he
  | some e' =>
      rw [mergeState_getElem?_of_some hk] at he
      cases ha : tState[k]? with
      | none => exact Or.inr (by rw [← he, ha, resolve_none])
      | some a =>
          rw [ha] at he
          rcases resolve_eq_or h r a e' with hres | hres
          · exact Or.inl (by rw [← he, hres])
          · exact Or.inr (by rw [← he, hres])

/-! ### Merges without news -/

/-- The merge of a host keeps the copy `a` it knows and drops the copy `e`. -/
def Rejects (h : StdString) (r : Bool) (a e : StateEntry D) : Prop :=
  e.mTtl < a.mTtl ∨ r ∧ a.mAuthor = h ∧ a.mTtl < e.mTtl

/-- Every entry of the slice is known as it is, or dropped. -/
def NothingNew (h : StdString) (r : Bool) (tState stateSlice : StateMap D) : Prop :=
  ∀ (k : StateKey) (e : StateEntry D), stateSlice[k]? = some e →
    ∃ a, tState[k]? = some a ∧ (a = e ∨ Rejects h r a e)

section NothingNew

variable {h : StdString} {r : Bool} {a e : StateEntry D} {tState stateSlice : StateMap D}

omit [BEq D] in
lemma Rejects.resolve_eq (ha : Rejects h r a e) : resolve h r (some a) e = a := by
  rcases ha with hlt | ⟨rfl, hown, hlt⟩
  · exact resolve_of_lt hlt
  · exact resolve_of_gt_own hown hlt

omit [BEq D] in
/-- A merge takes the slice's copy or rejects it. -/
lemma resolve_eq_or_rejects (h : StdString) (r : Bool) (a e : StateEntry D) :
    resolve h r (some a) e = e ∨ resolve h r (some a) e = a ∧ Rejects h r a e := by
  by_cases ha : Rejects h r a e
  · exact Or.inr ⟨ha.resolve_eq, ha⟩
  · rw [Rejects] at ha
    refine Or.inl ?_
    rw [resolve, if_pos ⟨by omega, fun hc => ha (Or.inr hc)⟩]

/-- **A slice without news** is one that leaves the state as it is. -/
theorem mergeState_eq_self_iff :
    mergeState h r tState stateSlice = tState ↔ NothingNew h r tState stateSlice := by
  constructor
  · intro hsame k e he
    have hk : (mergeState h r tState stateSlice)[k]? = some (resolve h r tState[k]? e) :=
      mergeState_getElem?_of_some he
    rw [hsame] at hk
    cases ha : tState[k]? with
    | none =>
        rw [ha] at hk
        cases hk
    | some a =>
        rw [ha] at hk
        have hres := (Option.some.inj hk).symm
        rcases resolve_eq_or_rejects h r a e with htaken | ⟨-, hrej⟩
        · exact ⟨a, rfl, Or.inl (hres.symm.trans htaken)⟩
        · exact ⟨a, rfl, Or.inr hrej⟩
  · intro hnew
    refine Std.ExtTreeMap.ext_getElem? fun k => ?_
    cases he : stateSlice[k]? with
    | none => exact mergeState_getElem?_of_none he
    | some e =>
        obtain ⟨a, ha, hae⟩ := hnew k e he
        rw [mergeState_getElem?_of_some he, ha]
        rcases hae with rfl | hrej
        · rw [resolve_self]
        · rw [hrej.resolve_eq]

instance : Decidable (Rejects h r a e) :=
  inferInstanceAs (Decidable (e.mTtl < a.mTtl ∨ r = true ∧ a.mAuthor = h ∧ a.mTtl < e.mTtl))

/-- What a merge counts at an entry of the slice: one for a new key, and one where the
entry that replaces the known one has other data. -/
def counted (h : StdString) (r : Bool) : Option (StateEntry D) → StateEntry D → ℕ
  | none, _ => 1
  | some a, e => if Rejects h r a e then 0 else if a.mData != e.mData then 1 else 0

lemma mergeEntry_significantChanges (h : StdString) (r : Bool) (acc : MergeAcc D) (k : StateKey)
    (e : StateEntry D) :
    (mergeEntry h r acc k e).significantChanges
      = acc.significantChanges + counted h r acc.tState[k]? e := by
  rw [mergeEntry]
  cases acc.tState[k]? with
  | none => rfl
  | some a =>
      have hguard : (r && a.mAuthor == h && decide (e.mTtl > a.mTtl)) = true ↔
          r = true ∧ a.mAuthor = h ∧ a.mTtl < e.mTtl := by
        simp only [Bool.and_eq_true, beq_iff_eq, decide_eq_true_eq, gt_iff_lt, and_assoc]
      simp only [hguard, counted, ge_iff_le]
      by_cases hill : r = true ∧ a.mAuthor = h ∧ a.mTtl < e.mTtl
      · have hrej : Rejects h r a e := Or.inr hill
        rw [if_pos hill, if_pos hrej, Nat.cast_zero, add_zero]
      · by_cases hlt : e.mTtl < a.mTtl
        · have hrej : Rejects h r a e := Or.inl hlt
          rw [if_neg hill, if_neg (not_le.mpr hlt), if_pos hrej, Nat.cast_zero, add_zero]
        · have hrej : ¬ Rejects h r a e := not_or.mpr ⟨hlt, hill⟩
          rw [if_neg hill, if_pos (not_lt.mp hlt), if_neg hrej]
          dsimp only
          split_ifs
          · rfl
          · rw [Nat.cast_zero, add_zero]

/-- **What a merge counts**, entry by entry. -/
theorem significantChanges_eq_weight (h : StdString) (r : Bool) (tState stateSlice : StateMap D) :
    (mergeLoop h r tState stateSlice).significantChanges
      = stateSlice.weight fun k e => counted h r tState[k]? e := by
  have hcount := (keyedLoop_mergeEntry h r).foldl_count MergeAcc.significantChanges
    (fun a e => counted h r a e) (mergeEntry_significantChanges h r)
    (OrdMap.nodup_map_fst_toList stateSlice) ({ tState := tState } : MergeAcc D)
  rw [mergeLoop, Std.ExtTreeMap.foldl_eq_foldl_toList, hcount, OrdMap.weight, Nat.cast_list_sum,
    List.map_map]
  exact zero_add _

lemma significantChanges_nonneg (h : StdString) (r : Bool) (tState stateSlice : StateMap D) :
    0 ≤ (mergeLoop h r tState stateSlice).significantChanges := by
  rw [significantChanges_eq_weight]
  exact Int.natCast_nonneg _

omit [BEq D] in
/-- A copy is not dropped for being the one that is known. -/
lemma not_rejects_self (h : StdString) (r : Bool) (e : StateEntry D) : ¬ Rejects h r e e := by
  rintro (hlt | ⟨-, -, hlt⟩)
  · exact lt_irrefl _ hlt
  · exact lt_irrefl _ hlt

/-- **What a slice without news counts**: the entries that are known as they are, and whose data
are not equal to themselves. -/
theorem significantChanges_eq_zero_iff (hnew : NothingNew h r tState stateSlice) :
    (mergeLoop h r tState stateSlice).significantChanges = 0 ↔
      ∀ (k : StateKey) (e : StateEntry D), stateSlice[k]? = some e → tState[k]? = some e →
        e.mData == e.mData := by
  rw [significantChanges_eq_weight, OrdMap.weight, Nat.cast_eq_zero,
    List.sum_eq_zero_iff_forall_eq_nat]
  constructor
  · intro hzero k e he ha
    have hcounted := hzero _ (List.mem_map_of_mem
      (Std.ExtTreeMap.mem_toList_iff_getElem?_eq_some.mpr he))
    simp only [ha, counted, if_neg (not_rejects_self h r e)] at hcounted
    split_ifs at hcounted with hdiffers
    rw [bne, Bool.not_eq_true, Bool.not_eq_false'] at hdiffers
    exact hdiffers
  · intro hdata n hn
    obtain ⟨p, hp, rfl⟩ := List.mem_map.mp hn
    have he := Std.ExtTreeMap.mem_toList_iff_getElem?_eq_some.mp hp
    obtain ⟨a, ha, hae⟩ := hnew p.1 p.2 he
    rw [ha, counted]
    split_ifs with hrej hdiffers
    · rfl
    · -- an entry that replaces the one known is equal to it
      rcases hae with rfl | hrej'
      · rw [bne, hdata p.1 p.2 he ha] at hdiffers
        cases hdiffers
      · exact absurd hrej' hrej
    · rfl

/-- A slice without news whose data are equal to themselves counts nothing. -/
theorem significantChanges_nothingNew (hnew : NothingNew h r tState stateSlice)
    (hdata : ∀ (k : StateKey) (e : StateEntry D), stateSlice[k]? = some e → e.mData == e.mData) :
    (mergeLoop h r tState stateSlice).significantChanges = 0 :=
  (significantChanges_eq_zero_iff hnew).mpr fun k e he _ => hdata k e he

end NothingNew

/-! ### The object after a merge -/

/-- A merge of a registered type returns, and what it leaves in the object is
the merged state of that type. -/
lemma SharedState.merge_eq_ok (host : Host) {s : SharedState D} {t : StdString}
    (ht : s.Registered t) (stateSlice : StateMap D) (peerAddr : SockAddr) :
    ∃ tState, s.mStates[t]? = some tState ∧
      s.merge host t stateSlice peerAddr
        = .ok ((mergeLoop host.authorPlaceOlder (!host.isLoopbackNet peerAddr) tState
                  stateSlice).significantChanges,
              s.setState t (mergeState host.authorPlaceOlder (!host.isLoopbackNet peerAddr)
                tState stateSlice)) := by
  obtain ⟨tState, hstate⟩ := Option.isSome_iff_exists.mp ht.1
  obtain ⟨conf, hconf⟩ := Option.isSome_iff_exists.mp ht.2
  refine ⟨tState, hstate, ?_⟩
  rw [SharedState.merge, hstate]
  simp only [hconf]
  rfl

/-- How a merge ends: with the merged state of a registered type, because the type
has no state, or because it has one but no configuration. -/
lemma SharedState.merge_cases (host : Host) (s : SharedState D) (t : StdString)
    (stateSlice : StateMap D) (peerAddr : SockAddr) :
    (∃ tState conf, s.mStates[t]? = some tState ∧ s.mTypeConf[t]? = some conf ∧
      s.merge host t stateSlice peerAddr
        = .ok ((mergeLoop host.authorPlaceOlder (!host.isLoopbackNet peerAddr) tState
            stateSlice).significantChanges,
          s.setState t (mergeState host.authorPlaceOlder (!host.isLoopbackNet peerAddr) tState
            stateSlice))) ∨
      (s.mStates[t]? = none ∧
        s.merge host t stateSlice peerAddr = .error (.bubble .unkownDataType)) ∨
      ∃ tState, s.mStates[t]? = some tState ∧ s.mTypeConf[t]? = none ∧
        s.merge host t stateSlice peerAddr = .error .exception := by
  rw [SharedState.merge]
  cases s.mStates[t]? with
  | none => exact Or.inr (Or.inl ⟨rfl, rfl⟩)
  | some tState =>
      simp only
      cases s.mTypeConf[t]? with
      | none => exact Or.inr (Or.inr ⟨tState, rfl, rfl, rfl⟩)
      | some conf => exact Or.inl ⟨tState, conf, rfl, rfl, rfl⟩

/-- A merge that returns puts a state in place of one that is there. -/
lemma SharedState.merge_ok {host : Host} {s s' : SharedState D} {t : StdString}
    {stateSlice : StateMap D} {peerAddr : SockAddr} {changes : ℤ}
    (h : s.merge host t stateSlice peerAddr = .ok (changes, s')) :
    s.mStates[t]?.isSome ∧ ∃ tState, s' = s.setState t tState := by
  rcases SharedState.merge_cases host s t stateSlice peerAddr with
    ⟨tState, conf, hstate, -, hok⟩ | ⟨-, herr⟩ | ⟨tState, -, -, herr⟩
  · rw [hok] at h
    obtain ⟨-, rfl⟩ := Prod.mk.inj (Except.ok.inj h)
    exact ⟨Option.isSome_iff_exists.mpr ⟨tState, hstate⟩, _, rfl⟩
  · rw [herr] at h
    cases h
  · rw [herr] at h
    cases h

/-- A merge changes states only. -/
lemma SharedState.merge_isPeer {host : Host} {s s' : SharedState D} {t : StdString}
    {stateSlice : StateMap D} {peerAddr : SockAddr} {changes : ℤ}
    (h : s.merge host t stateSlice peerAddr = .ok (changes, s')) : s'.isPeer = s.isPeer := by
  obtain ⟨-, tState, rfl⟩ := SharedState.merge_ok h
  exact SharedState.setState_isPeer _ _ _

/-! ### Bleach -/

omit [BEq D]

/-- The two passes of `SharedState::bleach`: `erase_if` on the entries whose
TTL is used up, then the decrement of the others. -/
def bleachState (times : ℤ) (tState : StateMap D) : StateMap D :=
  (tState.filter fun _ e => !decide (e.mTtl ≤ times)).map
    fun _ stateEntry => { stateEntry with mTtl := stateEntry.mTtl - times }

/-- `SharedState::bleach`: the number of removed entries and the object
afterwards. -/
def SharedState.bleach (s : SharedState D) (dataTypeName : StdString) (times : ℤ) :
    Except Raised (ℤ × SharedState D) :=
  if times < 1 then .error (.bubble .invalidArgument)
  else
    match s.mStates[dataTypeName]? with
    | none => .error (.bubble .unkownDataType)
    | some tState =>
        let kept := bleachState times tState
        let significativeChanges : ℤ := tState.size - kept.size
        .ok (significativeChanges, s.setState dataTypeName kept)

/-- **A bleach, key by key.** -/
theorem bleachState_getElem? (times : ℤ) (tState : StateMap D) (k : StateKey) :
    (bleachState times tState)[k]?
      = tState[k]?.bind fun e =>
          if e.mTtl ≤ times then none else some { e with mTtl := e.mTtl - times } := by
  rw [bleachState, Std.ExtTreeMap.getElem?_map, Std.ExtTreeMap.getElem?_filter']
  cases tState[k]? with
  | none => rfl
  | some e =>
      by_cases hle : e.mTtl ≤ times
      · simp [hle]
      · simp [hle, not_le.mp hle]

/-- An entry that survives a bleach is the old one with a lower, still positive
TTL. -/
lemma bleachState_eq_some {times : ℤ} {tState : StateMap D} {k : StateKey}
    {e : StateEntry D} :
    (bleachState times tState)[k]? = some e ↔
      ∃ e₀, tState[k]? = some e₀ ∧ times < e₀.mTtl ∧ e = { e₀ with mTtl := e₀.mTtl - times } := by
  rw [bleachState_getElem?]
  constructor
  · intro hk
    obtain ⟨e₀, he₀, hite⟩ := Option.bind_eq_some_iff.mp hk
    split_ifs at hite with hle
    exact ⟨e₀, he₀, by omega, (Option.some.inj hite).symm⟩
  · rintro ⟨e₀, he₀, hlt, rfl⟩
    rw [he₀, Option.bind_some, if_neg (by omega)]

/-! ### A sample to run operations on -/

/-- An object with one type, of which it has no entries. -/
def blankState : SharedState ℕ where
  mStates := (∅ : OrdMap StdString (StateMap ℕ)).insert (bytes "A") ∅
  mTypeConf := (∅ : OrdMap StdString DataTypeConf).insert (bytes "A")
    ⟨bytes "A", bytes "community", 30, 300⟩

lemma blankState_getElem? : blankState.mStates[bytes "A"]? = some ∅ := by
  rw [blankState, OrdMap.getElem?_insert_eq, if_pos rfl]

end SharedStateAsync
