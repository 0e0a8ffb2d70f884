/-
The arithmetic on TTLs in `SharedState::merge` and `SharedState::bleach`.

TTLs are `int64_t` and come off the network as they are. The model computes with integers;
here the same code is written with the operations of `int64_t`, which have no result when
they overflow, and compared with it. The only sum of a merge is `minUpdateTtl`, computed
for entries of this host in remote merges; a bleach subtracts from entries that last longer
than what it subtracts.

* `mergeEntryChecked`, `bleachChecked`, `SharedState.applyChecked`: the code with checked
  arithmetic;
* `mergeChecked_eq`, `bleachChecked_eq`: when it has a result, and that it is the model's;
* `MeetsMaximum`: a remote merge at an entry of this host with the highest TTL;
* `TtlSafe`, `ttlSafe_iff`: a run is safe if none of its steps is such a merge.
-/
import SharedStateAsync.Lib.Signed64
import SharedStateAsync.Store.OwnEntry

namespace SharedStateAsync

open Machine Signed64

variable {D : Type} [BEq D]

/-! ### The code with checked arithmetic -/

/-- The body of the loop in `SharedState::merge`, with the sum of `int64_t`. -/
def mergeEntryChecked (authorPlaceOlder : StdString) (isRemote : Bool) (acc : MergeAcc D)
    (stateKey : StateKey) (sliceEntry : StateEntry D) : Option (MergeAcc D) :=
  match acc.tState[stateKey]? with
  | none =>
      some
        { tState := acc.tState.insertIfNew stateKey sliceEntry
          allChanges := acc.allChanges + 1
          significantChanges := acc.significantChanges + 1 }
  | some knownEntry =>
      let ownAuthorship := knownEntry.mAuthor == authorPlaceOlder
      if isRemote && ownAuthorship && decide (sliceEntry.mTtl > knownEntry.mTtl) then some acc
      else do
        let _minUpdateTtl ←
          if isRemote && ownAuthorship then checkedAdd knownEntry.mTtl 1 else some knownEntry.mTtl
        if sliceEntry.mTtl ≥ knownEntry.mTtl then
          let significant := knownEntry.mData != sliceEntry.mData
          return {
            tState := (acc.tState.erase stateKey).insertIfNew stateKey sliceEntry
            allChanges := acc.allChanges + 1
            significantChanges :=
              if significant then acc.significantChanges + 1 else acc.significantChanges }
        else return acc

/-- The state of a type after a merge. -/
def mergeChecked (authorPlaceOlder : StdString) (isRemote : Bool) (tState stateSlice : StateMap D) :
    Option (StateMap D) := do
  let acc ← stateSlice.foldlM (mergeEntryChecked authorPlaceOlder isRemote) { tState := tState }
  return acc.tState

omit [BEq D] in
/-- The two passes of `SharedState::bleach`. -/
def bleachChecked (times : ℤ) (tState : StateMap D) : Option (StateMap D) :=
  let kept := tState.filter fun _ e => !decide (e.mTtl ≤ times)
  kept.foldlM (fun tState key stateEntry => do
    let mTtl ← checkedSub stateEntry.mTtl times
    return tState.insert key { stateEntry with mTtl := mTtl }) kept

/-- An operation on the type `t`, or nothing when its arithmetic overflows; a call that fails
does none. -/
def SharedState.applyChecked (host : Host) (t : StdString) (s : SharedState D) :
    StoreOp D → Option (SharedState D)
  | .merge peerAddr stateSlice =>
      match s.mStates[t]?, s.mTypeConf[t]? with
      | some tState, some _ => do
          let isRemote := !host.isLoopbackNet peerAddr
          let merged ← mergeChecked host.authorPlaceOlder isRemote tState stateSlice
          return s.setState t merged
      | _, _ => some s
  | .bleach times =>
      if times < 1 then some s
      else
        match s.mStates[t]? with
        | none => some s
        | some tState => do
            let kept ← bleachChecked times tState
            return s.setState t kept

/-! ### When it has a result -/

/-- A merge computes no sum at the entry, or one in range. -/
def SumInRange (h : StdString) (r : Bool) : Option (StateEntry D) → StateEntry D → Prop
  | none, _ => True
  | some a, e => r ∧ a.mAuthor = h ∧ e.mTtl ≤ a.mTtl → InRange (a.mTtl + 1)

instance (h : StdString) (r : Bool) (a : Option (StateEntry D)) (e : StateEntry D) :
    Decidable (SumInRange h r a e) :=
  match a with
  | none => isTrue trivial
  | some a => inferInstanceAs
      (Decidable (r = true ∧ a.mAuthor = h ∧ e.mTtl ≤ a.mTtl → InRange (a.mTtl + 1)))

lemma mergeEntryChecked_eq (h : StdString) (r : Bool) (acc : MergeAcc D) (k : StateKey)
    (e : StateEntry D) :
    mergeEntryChecked h r acc k e
      = if SumInRange h r acc.tState[k]? e then some (mergeEntry h r acc k e) else none := by
  rw [mergeEntryChecked, mergeEntry]
  cases acc.tState[k]? with
  | none => exact (if_pos trivial).symm
  | some a =>
      simp only [SumInRange]
      by_cases hown : (r && a.mAuthor == h) = true
      · have hown' : r = true ∧ a.mAuthor = h := by simpa using hown
        by_cases hgt : e.mTtl > a.mTtl
        · simp [hown', hgt]
        · by_cases hrange : InRange (a.mTtl + 1)
          · by_cases hle : a.mTtl ≤ e.mTtl
            · simp [hown', hgt, checkedAdd, hrange, hle]
            · simp [hown', hgt, checkedAdd, hrange, hle]
          · simp [hown', hgt, checkedAdd, hrange, not_lt.mp hgt]
      · have hown' : r = true → a.mAuthor ≠ h := by simpa using hown
        have hfree : r = true ∧ a.mAuthor = h ∧ e.mTtl ≤ a.mTtl → InRange (a.mTtl + 1) :=
          fun hc => absurd hc.2.1 (hown' hc.1)
        rw [if_pos hfree]
        by_cases hle : a.mTtl ≤ e.mTtl
        · simp [hown, hle]
        · simp [hown, hle]

/-- **The merge with checked arithmetic** is the model's, unless the sum at an entry is out of
range. -/
theorem mergeChecked_eq (h : StdString) (r : Bool) (tState stateSlice : StateMap D) :
    mergeChecked h r tState stateSlice
      = if ∀ p ∈ stateSlice.toList, SumInRange h r tState[p.1]? p.2
        then some (mergeState h r tState stateSlice) else none := by
  rw [mergeChecked, OrdMap.foldlM_keyed (keyedLoop_mergeEntry h r) (SumInRange h r)
    (mergeEntryChecked_eq h r)]
  split_ifs
  · rfl
  · rfl

omit [BEq D] in
/-- All TTLs are numbers an `int64_t` can have. -/
def TtlsInRange (tState : StateMap D) : Prop :=
  ∀ (k : StateKey) (e : StateEntry D), tState[k]? = some e → InRange e.mTtl

omit [BEq D] in
/-- **The bleach with checked arithmetic** is the model's: what it subtracts is less than what
it subtracts from. -/
theorem bleachChecked_eq {times : ℤ} (htimes : 1 ≤ times) {tState : StateMap D}
    (hrange : TtlsInRange tState) :
    bleachChecked times tState = some (bleachState times tState) := by
  set kept := tState.filter fun _ e => !decide (e.mTtl ≤ times) with hkept
  have hloop : KeyedLoop (fun (m : StateMap D) k => m[k]?)
      (fun m key (e : StateEntry D) => m.insert key { e with mTtl := e.mTtl - times })
      fun _ e => some { e with mTtl := e.mTtl - times } :=
    fun m k e a => OrdMap.getElem?_insert_eq m k a _
  have hstep : ∀ (m : StateMap D) (k : StateKey) (e : StateEntry D),
      (do let mTtl ← checkedSub e.mTtl times
          return m.insert k { e with mTtl := mTtl } : Option (StateMap D))
        = if InRange (e.mTtl - times) then some (m.insert k { e with mTtl := e.mTtl - times })
          else none := by
    intro m k e
    rw [checkedSub]
    split_ifs <;> rfl
  have hall : ∀ p ∈ kept.toList, InRange (p.2.mTtl - times) := by
    intro p hp
    have hp' := Std.ExtTreeMap.mem_toList_iff_getElem?_eq_some.mp hp
    rw [hkept, Std.ExtTreeMap.getElem?_filter', Option.filter_eq_some_iff] at hp'
    obtain ⟨he, hlong⟩ := hp'
    have hlt : ¬ p.2.mTtl ≤ times := by simpa using hlong
    obtain ⟨hlo, hhi⟩ := hrange p.1 p.2 he
    exact ⟨by omega, by omega⟩
  have hrun := OrdMap.foldlM_keyed hloop (fun _ e => InRange (e.mTtl - times)) hstep kept kept
  rw [if_pos hall] at hrun
  refine hrun.trans (congrArg some (Std.ExtTreeMap.ext_getElem? fun k => ?_))
  rw [OrdMap.foldl_keyed hloop, bleachState, Std.ExtTreeMap.getElem?_map, ← hkept]
  cases kept[k]? with
  | none => rfl
  | some e => rfl

/-! ### Runs -/

namespace StoreOp

omit [BEq D] in
/-- The TTLs of a slice are numbers an `int64_t` can have. -/
def TtlsOk : StoreOp D → Prop
  | .merge _ stateSlice => TtlsInRange stateSlice
  | .bleach _ => True

omit [BEq D] in
/-- A remote merge that brings a key under which there is an entry of this host with the
highest TTL. -/
def MeetsMaximum (host : Host) (t : StdString) (s : SharedState D) : StoreOp D → Prop
  | .merge peerAddr stateSlice => s.Registered t ∧ host.isLoopbackNet peerAddr = false ∧
      ∃ k a, stateSlice[k]?.isSome ∧ s.entryAt t k = some a ∧
        a.mAuthor = host.authorPlaceOlder ∧ a.mTtl = 2 ^ 63 - 1
  | .bleach _ => False

end StoreOp

section Step

variable {host : Host} {t : StdString} {s : SharedState D}

/-- All TTLs of the type are numbers an `int64_t` can have. -/
def SharedState.TtlsOk (t : StdString) (s : SharedState D) : Prop :=
  ∀ tState, s.mStates[t]? = some tState → TtlsInRange tState

omit [BEq D] in
lemma SharedState.TtlsOk.setState {tState : StateMap D} (h : TtlsInRange tState) :
    (s.setState t tState).TtlsOk t := by
  intro tState' htState'
  rw [SharedState.setState_getElem?_self] at htState'
  exact Option.some.inj htState' ▸ h

/-- What an operation leaves has its TTLs in range, whether or not `minUpdateTtl` was. -/
lemma ttlsOk_apply {op : StoreOp D} (hs : s.TtlsOk t) (hop : op.TtlsOk) :
    (s.apply host t op).TtlsOk t := by
  cases op with
  | merge peerAddr stateSlice =>
      rw [SharedState.apply]
      rcases s.merge_cases host t stateSlice peerAddr with
        ⟨tState, conf, hstate, -, hmerge⟩ | ⟨-, hmerge⟩ | ⟨tState, -, -, hmerge⟩
      · rw [hmerge]
        refine SharedState.TtlsOk.setState fun k e he => ?_
        rcases mergeState_eq_some he with hknown | hslice
        · exact hs tState hstate k e hknown
        · exact hop k e hslice
      · rw [hmerge]
        exact hs
      · rw [hmerge]
        exact hs
  | bleach times =>
      rw [SharedState.apply, SharedState.bleach]
      by_cases htimes : times < 1
      · rw [if_pos htimes]
        exact hs
      · rw [if_neg htimes]
        cases hstate : s.mStates[t]? with
        | none => exact hs
        | some tState =>
            refine SharedState.TtlsOk.setState fun k e he => ?_
            obtain ⟨e₀, he₀, hlt, rfl⟩ := bleachState_eq_some.mp he
            obtain ⟨hlo, hhi⟩ := hs tState hstate k e₀ he₀
            exact ⟨by dsimp only; omega, by dsimp only; omega⟩

omit [BEq D] in
/-- At entries whose TTLs are in range, only the highest TTL has no successor. -/
lemma sumInRange_iff {h : StdString} {r : Bool} {a e : StateEntry D} (ha : InRange a.mTtl)
    (he : InRange e.mTtl) :
    SumInRange h r (some a) e ↔ ¬ (r ∧ a.mAuthor = h ∧ a.mTtl = 2 ^ 63 - 1) := by
  obtain ⟨halo, hahi⟩ := ha
  obtain ⟨helo, hehi⟩ := he
  constructor
  · rintro hsum ⟨hr, hown, hmax⟩
    have hrange := hsum ⟨hr, hown, by omega⟩
    exact absurd hrange.2 (by omega)
  · rintro hmax ⟨hr, hown, -⟩
    have hne : a.mTtl ≠ 2 ^ 63 - 1 := fun hc => hmax ⟨hr, hown, hc⟩
    exact ⟨by omega, by omega⟩

lemma applyChecked_merge (hs : s.TtlsOk t) {peerAddr : SockAddr} {stateSlice : StateMap D}
    (hslice : TtlsInRange stateSlice) :
    (StoreOp.MeetsMaximum host t s (.merge peerAddr stateSlice) →
        s.applyChecked host t (.merge peerAddr stateSlice) = none) ∧
      (¬ StoreOp.MeetsMaximum host t s (.merge peerAddr stateSlice) →
        s.applyChecked host t (.merge peerAddr stateSlice)
          = some (s.apply host t (.merge peerAddr stateSlice))) := by
  rcases s.merge_cases host t stateSlice peerAddr with
    ⟨tState, conf, hstate, hconf, hmerge⟩ | ⟨hstate, hmerge⟩ | ⟨tState, hstate, hconf, hmerge⟩
  · have hreg : s.Registered t :=
      ⟨Option.isSome_of_eq_some hstate, Option.isSome_of_eq_some hconf⟩
    have hsums : (∀ p ∈ stateSlice.toList, SumInRange host.authorPlaceOlder
        (!host.isLoopbackNet peerAddr) tState[p.1]? p.2) ↔
        ¬ StoreOp.MeetsMaximum host t s (.merge peerAddr stateSlice) := by
      constructor
      · rintro hall ⟨-, hremote, k, a, hk, ha, hown, hmax⟩
        obtain ⟨e, he⟩ := Option.isSome_iff_exists.mp hk
        rw [SharedState.entryAt, hstate, Option.bind_some] at ha
        have hsum := hall (k, e) (Std.ExtTreeMap.mem_toList_iff_getElem?_eq_some.mpr he)
        rw [ha, sumInRange_iff (hs tState hstate k a ha) (hslice k e he), hremote] at hsum
        exact hsum ⟨rfl, hown, hmax⟩
      · intro hmax p hp
        have he := Std.ExtTreeMap.mem_toList_iff_getElem?_eq_some.mp hp
        cases ha : tState[p.1]? with
        | none => trivial
        | some a =>
            rw [sumInRange_iff (hs tState hstate p.1 a ha) (hslice p.1 p.2 he)]
            rintro ⟨hremote, hown, hmaximal⟩
            refine hmax ⟨hreg, by simpa using hremote, p.1, a, Option.isSome_of_eq_some he, ?_,
              hown, hmaximal⟩
            rw [SharedState.entryAt, hstate, Option.bind_some, ha]
    rw [SharedState.applyChecked, SharedState.apply, hmerge, hstate, hconf]
    simp only [mergeChecked_eq]
    refine ⟨fun hbad => ?_, fun hgood => ?_⟩
    · rw [if_neg fun hall => hsums.mp hall hbad]
      rfl
    · rw [if_pos (hsums.mpr hgood)]
      rfl
  · have hgood : ¬ StoreOp.MeetsMaximum host t s (.merge peerAddr stateSlice) := by
      rintro ⟨hreg, -⟩
      rw [SharedState.Registered, hstate] at hreg
      cases hreg.1
    refine ⟨fun hbad => absurd hbad hgood, fun _ => ?_⟩
    rw [SharedState.applyChecked, SharedState.apply, hmerge, hstate]
  · have hgood : ¬ StoreOp.MeetsMaximum host t s (.merge peerAddr stateSlice) := by
      rintro ⟨hreg, -⟩
      rw [SharedState.Registered, hconf] at hreg
      cases hreg.2
    refine ⟨fun hbad => absurd hbad hgood, fun _ => ?_⟩
    rw [SharedState.applyChecked, SharedState.apply, hmerge, hstate, hconf]

lemma applyChecked_bleach (hs : s.TtlsOk t) (times : ℤ) :
    s.applyChecked host t (.bleach times) = some (s.apply host t (.bleach times)) := by
  rw [SharedState.applyChecked, SharedState.apply, SharedState.bleach]
  by_cases htimes : times < 1
  · rw [if_pos htimes, if_pos htimes]
  · rw [if_neg htimes, if_neg htimes]
    cases hstate : s.mStates[t]? with
    | none => rfl
    | some tState =>
        simp only [bleachChecked_eq (not_lt.mp htimes) (hs tState hstate)]
        rfl

/-- **A step with checked arithmetic** is the model's, unless it meets the maximum. -/
lemma failsAt_applyChecked (host : Host) (t : StdString) :
    FailsAt (SharedState.apply host t) (SharedState.applyChecked (D := D) host t)
      (SharedState.TtlsOk t) StoreOp.TtlsOk fun s op => op.MeetsMaximum host t s where
  keeps := fun _ _ hs hop => ttlsOk_apply hs hop
  good := by
    intro s op hs hop hgood
    cases op with
    | merge peerAddr stateSlice => exact (applyChecked_merge hs hop).2 hgood
    | bleach times => exact applyChecked_bleach hs times
  bad := by
    intro s op hs hop hbad
    cases op with
    | merge peerAddr stateSlice => exact (applyChecked_merge hs hop).1 hbad
    | bleach times => cases hbad

end Step

/-- The arithmetic of the operations `ops` does not overflow, and what a bleach leaves has a
TTL of at least 1. -/
structure TtlSafe (host : Host) (t : StdString) (s : SharedState D) (ops : List (StoreOp D)) :
    Prop where
  inRange : ops.foldlM (SharedState.applyChecked host t) s
    = some (run (SharedState.apply host t) s ops)
  positive : ∀ pre times, pre ++ [.bleach times] <+: ops → 1 ≤ times → ∀ k e,
    (run (SharedState.apply host t) s (pre ++ [.bleach times])).entryAt t k = some e → 1 ≤ e.mTtl

/-- What a bleach leaves. -/
lemma one_le_mTtl_of_bleach {host : Host} {t : StdString} {s : SharedState D} {times : ℤ}
    (htimes : 1 ≤ times) {k : StateKey} {e : StateEntry D}
    (he : (s.apply host t (.bleach times)).entryAt t k = some e) : 1 ≤ e.mTtl := by
  rw [SharedState.apply, SharedState.bleach, if_neg (by omega), SharedState.entryAt] at he
  cases hstate : s.mStates[t]? with
  | none =>
      rw [hstate] at he
      simp only at he
      rw [hstate] at he
      cases he
  | some tState =>
      rw [hstate] at he
      simp only at he
      rw [SharedState.setState_getElem?_self, Option.bind_some] at he
      obtain ⟨e₀, -, hlt, rfl⟩ := bleachState_eq_some.mp he
      dsimp only
      omega

/-- **When the arithmetic on TTLs is safe**: as long as no remote merge meets an entry of this
host with the highest TTL. -/
theorem ttlSafe_iff (host : Host) (t : StdString) {s : SharedState D} (hs : s.TtlsOk t)
    {ops : List (StoreOp D)} (hops : ∀ op ∈ ops, op.TtlsOk) :
    TtlSafe host t s ops ↔
      ∀ pre op, pre ++ [op] <+: ops →
        ¬ op.MeetsMaximum host t (run (SharedState.apply host t) s pre) := by
  rw [← (failsAt_applyChecked host t).foldlM_eq_iff hs hops]
  refine ⟨TtlSafe.inRange, fun hrange => ⟨hrange, fun pre times _ htimes k e he => ?_⟩⟩
  rw [run_concat] at he
  exact one_le_mTtl_of_bleach htimes he

/-! ### The highest TTL -/

/-- A slice with an entry of the host `a`. -/
def ownSlice (mTtl : ℤ) : StateMap ℕ := (∅ : StateMap ℕ).insert (bytes "k") ⟨bytes "a", mTtl, 1⟩

/-- The host `a`, all of whose peers are remote. -/
def remoteHost : Host := ⟨bytes "a", fun _ => false⟩

lemma blankState_ttlsOk : blankState.TtlsOk (bytes "A") := by
  intro tState htState k e he
  obtain rfl := Option.some.inj (blankState_getElem?.symm.trans htState)
  simp at he

lemma ownSlice_ttlsInRange {mTtl : ℤ} (h : InRange mTtl) : TtlsInRange (ownSlice mTtl) := by
  intro k e he
  rw [ownSlice, OrdMap.getElem?_insert_eq] at he
  split_ifs at he
  · cases he
    exact h
  · simp at he

/-- An entry that is merged and bleached. -/
theorem ttlSafe_mergeBleach :
    TtlSafe remoteHost (bytes "A") blankState [.merge [] (ownSlice 9), .bleach 5] := by
  refine (ttlSafe_iff remoteHost (bytes "A") blankState_ttlsOk ?_).mpr ?_
  · intro op hop
    rcases List.mem_pair.mp hop with rfl | rfl
    · exact ownSlice_ttlsInRange (by decide)
    · trivial
  · intro pre op hpre
    cases op with
    | bleach times => exact not_false
    | merge peerAddr stateSlice =>
        -- the merge comes first, when there is nothing to meet
        have hnil : pre = [] := by
          cases pre with
          | nil => rfl
          | cons op pre =>
              obtain ⟨-, hrest⟩ := List.cons_prefix_cons.mp hpre
              cases pre with
              | nil => simp at hrest
              | cons op pre => simp at hrest
        subst hnil
        rintro ⟨-, -, k, a, -, ha, -⟩
        rw [run, List.foldl_nil, SharedState.entryAt, blankState_getElem?] at ha
        simp at ha

/-- A remote peer brings an entry of this host with the highest TTL, and brings it again. -/
theorem not_ttlSafe_highestTtl :
    let ops : List (StoreOp ℕ) :=
      [.merge [] (ownSlice (2 ^ 63 - 1)), .merge [] (ownSlice (2 ^ 63 - 1))]
    blankState.TtlsOk (bytes "A") ∧ (∀ op ∈ ops, op.TtlsOk) ∧
      ¬ TtlSafe remoteHost (bytes "A") blankState ops := by
  intro ops
  refine ⟨blankState_ttlsOk, fun op hop => ?_, fun hsafe => ?_⟩
  · rcases List.mem_pair.mp hop with rfl | rfl
    · exact ownSlice_ttlsInRange (by decide)
    · exact ownSlice_ttlsInRange (by decide)
  · have hnone :
        (ops.foldlM (SharedState.applyChecked remoteHost (bytes "A")) blankState).isNone := by
      decide +kernel
    rw [hsafe.inRange] at hnone
    cases hnone

end SharedStateAsync
