/-
Ageing, alone and together with merges.

Both passes of a bleach compare with the same number of seconds, so two bleaches do what
one does that takes their time together, also to the entries that expire on the way. A
merge compares TTLs, and a bleach lowers them all by the same amount: an entry that
expires on one side only had the lower TTL.

* `SharedState.bleachCall`, `SharedState.bleachEach`: what a caller of `bleach` gets, and
  one call after the other;
* `bleachState_bleachState`: two bleaches are one;
* `bleach_late`: a late bleach does what the timely ones it replaces do;
* `mergeState_bleachState`: ageing both sides of a merge, or its result;
* `bleach_merge_comm`: the same for the object.
-/
import SharedStateAsync.Store.Merge

namespace SharedStateAsync

variable {D : Type}

/-! ### Bleaches that follow each other -/

/-- What a caller that passes an error pointer gets from `SharedState::bleach`, and the
object afterwards: `-1` with every error. -/
def SharedState.bleachCall (s : SharedState D) (dataTypeName : StdString) (times : ℤ) :
    ℤ × SharedState D :=
  match s.bleach dataTypeName times with
  | .ok called => called
  | .error _ => (-1, s)

/-- One bleach after the other: the sum of what the calls return, and the object
afterwards. -/
def SharedState.bleachEach (s : SharedState D) (dataTypeName : StdString) (durations : List ℤ) :
    ℤ × SharedState D :=
  durations.foldl (fun done times =>
    let called := done.2.bleachCall dataTypeName times
    (done.1 + called.1, called.2)) (0, s)

/-- **Two bleaches** are one that takes their time together. -/
theorem bleachState_bleachState {d : ℤ} (hd : 1 ≤ d) (times : ℤ) (tState : StateMap D) :
    bleachState d (bleachState times tState) = bleachState (times + d) tState := by
  refine Std.ExtTreeMap.ext_getElem? fun k => ?_
  rw [bleachState_getElem?, bleachState_getElem?, bleachState_getElem?]
  cases tState[k]? with
  | none => rfl
  | some e =>
      simp only [Option.bind_some]
      rcases le_or_gt e.mTtl times with hle | hgt
      · -- gone after the first one
        rw [if_pos hle, if_pos (by omega), Option.bind_none]
      · rw [if_neg (by omega), Option.bind_some]
        dsimp only
        rcases le_or_gt e.mTtl (times + d) with hle' | hgt'
        · rw [if_pos (by omega), if_pos hle']
        · rw [if_neg (by omega), if_neg (by omega), sub_sub]

section Calls

variable {s : SharedState D} {t : StdString}

/-- A bleach of a state that is there returns, and leaves it aged. -/
lemma SharedState.bleach_eq_ok {tState : StateMap D} (ht : s.mStates[t]? = some tState)
    {times : ℤ} (htimes : 1 ≤ times) :
    s.bleach t times
      = .ok ((tState.size : ℤ) - (bleachState times tState).size,
          s.setState t (bleachState times tState)) := by
  rw [bleach, if_neg (by omega), ht]

lemma SharedState.bleachCall_eq {tState : StateMap D} (ht : s.mStates[t]? = some tState)
    {times : ℤ} (htimes : 1 ≤ times) :
    s.bleachCall t times
      = ((tState.size : ℤ) - (bleachState times tState).size,
          s.setState t (bleachState times tState)) := by
  rw [bleachCall, bleach_eq_ok ht htimes]

/-- A call that fails. -/
lemma SharedState.bleachCall_of_failed {times : ℤ} (hfail : times < 1 ∨ s.mStates[t]? = none) :
    s.bleachCall t times = (-1, s) := by
  rw [bleachCall, bleach]
  by_cases htimes : times < 1
  · rw [if_pos htimes]
  · rw [if_neg htimes, hfail.resolve_left htimes]

lemma SharedState.bleachEach_concat (s : SharedState D) (t : StdString) (durations : List ℤ)
    (d : ℤ) :
    s.bleachEach t (durations ++ [d])
      = ((s.bleachEach t durations).1 + ((s.bleachEach t durations).2.bleachCall t d).1,
          ((s.bleachEach t durations).2.bleachCall t d).2) := by
  rw [bleachEach, bleachEach, List.foldl_concat]

/-- One bleach after the other, on a state that is there. -/
lemma SharedState.bleachEach_eq {tState : StateMap D} (ht : s.mStates[t]? = some tState)
    {durations : List ℤ} (hne : durations ≠ []) (hdur : ∀ d ∈ durations, 1 ≤ d) :
    s.bleachEach t durations
      = ((tState.size : ℤ) - (bleachState durations.sum tState).size,
          s.setState t (bleachState durations.sum tState)) := by
  induction durations using List.reverseRecOn with
  | nil => exact absurd rfl hne
  | append_singleton durations d ih =>
      have hd : 1 ≤ d := hdur d (by simp)
      rw [bleachEach_concat, List.sum_append, List.sum_singleton]
      cases durations with
      | nil =>
          rw [List.sum_nil, zero_add]
          simp only [bleachEach, List.foldl_nil, zero_add]
          exact bleachCall_eq ht hd
      | cons d' rest =>
          rw [ih (by simp) fun d hd => hdur d (List.mem_append_left _ hd)]
          -- what the earlier calls left and what the last one takes from it
          rw [bleachCall_eq (setState_getElem?_self _ _ _) hd, bleachState_bleachState hd]
          refine Prod.ext ?_ ?_
          · dsimp only
            omega
          · exact setState_setState _ _ _ _

end Calls

/-- **A late bleach** does what the timely ones it replaces do, and returns the sum of what
they return; a call with less than a second or for a type without a state returns `-1` and
leaves the object as it was. -/
theorem bleach_late (s : SharedState D) (t : StdString) :
    (s.mStates[t]?.isSome → ∀ durations : List ℤ, durations ≠ [] → (∀ d ∈ durations, 1 ≤ d) →
      s.bleachEach t durations = s.bleachCall t durations.sum) ∧
      ∀ times : ℤ, times < 1 ∨ s.mStates[t]? = none → s.bleachCall t times = (-1, s) := by
  refine ⟨fun ht durations hne hdur => ?_, fun _ hfail => SharedState.bleachCall_of_failed hfail⟩
  obtain ⟨tState, hstate⟩ := Option.isSome_iff_exists.mp ht
  have hsum : 1 ≤ durations.sum := by
    obtain ⟨d, rest, rfl⟩ := List.exists_cons_of_ne_nil hne
    have hd : 1 ≤ d := hdur d List.mem_cons_self
    have hrest : 0 ≤ rest.sum :=
      List.sum_nonneg fun d hd => (hdur d (List.mem_cons_of_mem _ hd)).trans' zero_le_one
    rw [List.sum_cons]
    omega
  rw [SharedState.bleachEach_eq hstate hne hdur, SharedState.bleachCall_eq hstate hsum]

/-- A type with two entries, one of which expires with the third second. -/
def ageingState : SharedState ℕ :=
  blankState.setState (bytes "A")
    (((∅ : StateMap ℕ).insert [107] ⟨bytes "b", 3, 1⟩).insert [108] ⟨bytes "b", 9, 2⟩)

lemma ageingState_registered : ageingState.Registered (bytes "A") :=
  SharedState.setState_registered _ ⟨by rw [blankState_getElem?]; rfl, by decide +kernel⟩

/-- Three seconds at once, or in two steps. -/
theorem bleach_late_three_seconds :
    ageingState.bleachEach (bytes "A") [1, 2] = ageingState.bleachCall (bytes "A") [1, 2].sum :=
  (bleach_late ageingState (bytes "A")).1 ageingState_registered.1 [1, 2] (by decide) (by decide)

/-! ### Merges between nodes that age -/

section Merge

variable [BEq D]

/-- **Ageing both sides of a merge** leaves what ageing its result does, where the merge
protects no entry of this host. -/
theorem mergeState_bleachState {h : StdString} {r : Bool} {tState : StateMap D}
    (hown : r = true → ∀ (k : StateKey) (e : StateEntry D), tState[k]? = some e → e.mAuthor ≠ h)
    (times : ℤ) (stateSlice : StateMap D) :
    mergeState h r (bleachState times tState) (bleachState times stateSlice)
      = bleachState times (mergeState h r tState stateSlice) := by
  refine Std.ExtTreeMap.ext_getElem? fun k => ?_
  rw [bleachState_getElem?, mergeState_getElem?, mergeState_getElem?, bleachState_getElem?,
    bleachState_getElem?]
  cases hslice : stateSlice[k]? with
  | none => rfl
  | some e =>
      simp only [Option.bind_some, Option.elim_some]
      cases hstate : tState[k]? with
      | none =>
          rw [Option.bind_none, resolve_none]
          rcases le_or_gt e.mTtl times with he | he
          · rw [if_pos he, Option.elim_none]
          · rw [if_neg (not_le.mpr he), Option.elim_some, resolve_none]
      | some a =>
          have hfree : ¬ (r = true ∧ a.mAuthor = h) := fun hc => hown hc.1 k a hstate hc.2
          simp only [Option.bind_some, resolve_of_unprotected hfree]
          rcases le_or_gt a.mTtl times with ha | ha
          · rw [if_pos ha]
            rcases le_or_gt e.mTtl times with he | he
            · -- both copies expire, whichever is kept
              rw [if_pos he, Option.elim_none]
              rcases le_or_gt a.mTtl e.mTtl with hle | hgt
              · rw [if_pos hle, if_pos he]
              · rw [if_neg (not_le.mpr hgt), if_pos ha]
            · -- the known copy expires, and the other one is kept for its TTL
              rw [if_neg (not_le.mpr he), Option.elim_some, resolve_none,
                if_pos (show a.mTtl ≤ e.mTtl by omega), if_neg (not_le.mpr he)]
          · rw [if_neg (not_le.mpr ha)]
            rcases le_or_gt e.mTtl times with he | he
            · -- the other copy expires, which the merge rejects
              rw [if_pos he, Option.elim_none, if_neg (show ¬ a.mTtl ≤ e.mTtl by omega),
                if_neg (not_le.mpr ha)]
            · -- both stay, and compare as before
              have hfree' : ¬ (r = true ∧ ({ a with mTtl := a.mTtl - times } : StateEntry D).mAuthor
                  = h) := hfree
              rw [if_neg (not_le.mpr he), Option.elim_some, resolve_of_unprotected hfree']
              simp only [sub_le_sub_iff_right]
              rcases le_or_gt a.mTtl e.mTtl with hle | hgt
              · rw [if_pos hle, if_pos hle, if_neg (not_le.mpr he)]
              · rw [if_neg (not_le.mpr hgt), if_neg (not_le.mpr hgt), if_neg (not_le.mpr ha)]

/-- **Ageing commutes with synchronising**: a state and a slice bleached before they are
merged, or the merged state bleached afterwards, for merges from a loopback address or into
a state without entries of this host. -/
theorem bleach_merge_comm (host : Host) {s : SharedState D} {t : StdString}
    (ht : s.Registered t) (stateSlice : StateMap D) (peerAddr : SockAddr) {times : ℤ}
    (htimes : 1 ≤ times)
    (hown : host.isLoopbackNet peerAddr = true ∨
      ∀ (k : StateKey) (e : StateEntry D), s.entryAt t k = some e →
        e.mAuthor ≠ host.authorPlaceOlder) :
    ∃ s' : SharedState D,
      (∃ removed changes s₁, s.bleach t times = .ok (removed, s₁) ∧
        s₁.merge host t (bleachState times stateSlice) peerAddr = .ok (changes, s')) ∧
      ∃ changes removed s₁, s.merge host t stateSlice peerAddr = .ok (changes, s₁) ∧
        s₁.bleach t times = .ok (removed, s') := by
  obtain ⟨tState, hstate, hmerge⟩ := SharedState.merge_eq_ok host ht stateSlice peerAddr
  have hown' : (!host.isLoopbackNet peerAddr) = true →
      ∀ (k : StateKey) (e : StateEntry D), tState[k]? = some e →
        e.mAuthor ≠ host.authorPlaceOlder := by
    intro hremote k e he
    rcases hown with hloop | hfree
    · rw [hloop] at hremote
      cases hremote
    · refine hfree k e ?_
      rw [SharedState.entryAt, hstate, Option.bind_some, he]
  have hcomm := mergeState_bleachState hown' times stateSlice
  obtain ⟨aged, haged, hmerge'⟩ := SharedState.merge_eq_ok host
    (SharedState.setState_registered (bleachState times tState) ht) (bleachState times stateSlice)
    peerAddr
  rw [SharedState.setState_getElem?_self] at haged
  obtain rfl := Option.some.inj haged
  rw [SharedState.setState_setState, hcomm] at hmerge'
  have haged' := SharedState.bleach_eq_ok (SharedState.setState_getElem?_self s t
    (mergeState host.authorPlaceOlder (!host.isLoopbackNet peerAddr) tState stateSlice)) htimes
  rw [SharedState.setState_setState] at haged'
  exact ⟨_, ⟨_, _, _, SharedState.bleach_eq_ok hstate htimes, hmerge'⟩, _, _, _, hmerge, haged'⟩

omit [BEq D] in
/-- A host without loopback addresses. -/
def agedHost : Host := ⟨bytes "a", fun _ => false⟩

/-- An entry that expires meets a younger copy of it, from a remote peer. -/
theorem bleach_merge_comm_expired :
    ∃ s' : SharedState ℕ,
      (∃ removed changes s₁, ageingState.bleach (bytes "A") 3 = .ok (removed, s₁) ∧
        s₁.merge agedHost (bytes "A")
          (bleachState 3 ((∅ : StateMap ℕ).insert [107] ⟨bytes "b", 5, 4⟩)) [10]
            = .ok (changes, s')) ∧
      ∃ changes removed s₁,
        ageingState.merge agedHost (bytes "A")
          ((∅ : StateMap ℕ).insert [107] ⟨bytes "b", 5, 4⟩) [10] = .ok (changes, s₁) ∧
        s₁.bleach (bytes "A") 3 = .ok (removed, s') := by
  refine bleach_merge_comm agedHost ageingState_registered _ [10] (by decide) (Or.inr ?_)
  intro k e he
  rw [ageingState, SharedState.entryAt, SharedState.setState_getElem?_self, Option.bind_some,
    OrdMap.getElem?_insert_eq, OrdMap.getElem?_insert_eq] at he
  split_ifs at he
  · obtain rfl := Option.some.inj he
    decide +kernel
  · obtain rfl := Option.some.inj he
    decide +kernel
  · cases he

end Merge

end SharedStateAsync
