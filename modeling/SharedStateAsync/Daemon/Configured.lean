/-
Every stored type has a configuration.

The store keeps the states of the types and their configurations in two maps, and
several functions write to one of them only; `SharedState::merge` looks up in one
what it has found in the other, and throws where they differ.

* `SharedState.Configured`: a type that has a state has a configuration;
* `configured_throughout`: so it is in every state of a process, whatever its
  coroutines and functions do and in whatever order;
* `stored_types_configured`: no merge throws, and what a reload leaves.
-/
import SharedStateAsync.Daemon.Jobs

namespace SharedStateAsync

open Coro Machine

variable {D : Type}

/-- A type that has a state has a configuration. -/
def SharedState.Configured (s : SharedState D) : Prop :=
  ∀ t : StdString, s.mStates[t]?.isSome → s.mTypeConf[t]?.isSome

/-! ### The functions -/

section Functions

variable {s s' : SharedState D}

/-- A reload leaves a state exactly for the types with a configuration. -/
lemma reloaded_isSome_iff (s : SharedState D) (mTypeConf : OrdMap StdString DataTypeConf)
    (t : StdString) :
    (s.reloaded mTypeConf).mStates[t]?.isSome ↔ (s.reloaded mTypeConf).mTypeConf[t]?.isSome := by
  rw [reloaded_getElem?, Option.isSome_map]
  exact Iff.rfl

lemma reloaded_configured (s : SharedState D) (mTypeConf : OrdMap StdString DataTypeConf) :
    (s.reloaded mTypeConf).Configured :=
  fun t => (reloaded_isSome_iff s mTypeConf t).mp

/-- Adding configurations is harmless. -/
lemma SharedState.Configured.addConf (h : s.Configured) {mTypeConf : OrdMap StdString DataTypeConf}
    (hsub : ∀ t : StdString, s.mTypeConf[t]?.isSome → mTypeConf[t]?.isSome) :
    SharedState.Configured { s with mTypeConf := mTypeConf } :=
  fun t ht => hsub t (h t ht)

/-- So is putting a state in place of one that is there. -/
lemma SharedState.Configured.setState (h : s.Configured) {t : StdString} {tState : StateMap D}
    (ht : s.mStates[t]?.isSome) : (s.setState t tState).Configured := by
  intro u hu
  rw [SharedState.setState_getElem?] at hu
  split_ifs at hu with htu
  · subst htu
    exact h t ht
  · exact h u hu

/-- Registering a type, also where it fails. -/
lemma SharedState.Configured.afterRegister (h : s.Configured) (json : ConfJson) (dir : ConfDir)
    (typeName typeScope : StdString) (updateInterval TTL : ℤ) :
    (s.afterRegister json dir typeName typeScope updateInterval TTL).Configured := by
  obtain ⟨s₁, hs₁, hafter⟩ :=
    afterRegister_cases json dir s typeName typeScope updateInterval TTL
  have h₁ : s₁.Configured := by
    rcases hs₁ with rfl | ⟨text, mTypeConf, mOk, -, -, rfl⟩
    · exact h
    · exact reloaded_configured s mTypeConf
  rcases hafter with hafter | ⟨conf, hafter⟩
  · rw [hafter]
    exact h₁
  · rw [hafter]
    refine h₁.addConf fun t ht => ?_
    rw [OrdMap.getElem?_insert_eq]
    split_ifs
    · rfl
    · exact ht

/-- **Every function keeps the configurations in order.** -/
theorem SyncOp.onShared_configured {json : ConfJson} {op : SyncOp} (h : s.Configured)
    (hop : op.onShared json s = some s') : s'.Configured := by
  rcases op.onShared_cases hop with rfl | ⟨-, -, -, mTypeConf, -, -, -, rfl⟩ |
    ⟨dir, typeName, typeScope, updateInterval, TTL, -, -, rfl⟩ | ⟨dataTypeName, tState, hstate, rfl⟩
  · exact h
  · exact reloaded_configured s mTypeConf
  · exact h.afterRegister json dir typeName typeScope updateInterval TTL
  · exact h.setState hstate

end Functions

/-! ### The coroutines -/

section Coroutines

variable [BEq D] {P : Platform D} {s s' : SharedState D}

/-- In a store that is in order no merge throws. -/
lemma SharedState.Configured.merge_ne_exception (h : s.Configured) (host : Host) (t : StdString)
    (stateSlice : StateMap D) (peerAddr : SockAddr) :
    s.merge host t stateSlice peerAddr ≠ .error .exception := by
  intro hmerge
  rcases s.merge_cases host t stateSlice peerAddr with ⟨tState, conf, -, -, hok⟩ | ⟨-, herr⟩ |
    ⟨tState, hstate, hconf, -⟩
  · rw [hok] at hmerge
    cases hmerge
  · rw [herr] at hmerge
    cases hmerge
  · have hsome := h t (by rw [hstate]; rfl)
    rw [hconf] at hsome
    cases hsome

lemma SharedState.Configured.merge (h : s.Configured) {host : Host} {t : StdString}
    {stateSlice : StateMap D} {peerAddr : SockAddr} {changes : ℤ}
    (hmerge : s.merge host t stateSlice peerAddr = .ok (changes, s')) : s'.Configured := by
  obtain ⟨hstate, tState, rfl⟩ := SharedState.merge_ok hmerge
  exact h.setState hstate

omit [BEq D] in
/-- The insert makes a configuration where there is none, so that it keeps the store
in order. -/
lemma SharedState.Configured.insertMembers (h : s.Configured) (authorPlaceOlder : StdString)
    (typeName : StdString) (members : List (StdString × D)) :
    (s.insertMembers authorPlaceOlder typeName members).Configured := by
  induction members using List.reverseRecOn with
  | nil => exact h
  | append_singleton members member ih =>
      rw [SharedState.insertMembers, List.foldl_append]
      rw [SharedState.insertMembers] at ih
      intro t ht
      simp only [List.foldl_cons, List.foldl_nil, SharedState.insertMember] at ht ⊢
      rw [OrdMap.getElem?_insert_eq] at ht
      rw [OrdMap.getElem?_insertIfNew_eq]
      split_ifs at ht ⊢
      · rfl
      · exact ih t ht

lemma jobWrites_configured :
    JobWrites P fun m m' => m.shared.Configured → m'.shared.Configured where
  keepsShared := fun m m' hm h => by
    rw [KeepsShared] at hm
    rwa [hm]
  merge := fun m t stateSlice peerAddr changes s hmerge h => h.merge hmerge
  insert := fun m typeName members _ h => h.insertMembers _ typeName members

/-- **Every stored type has a configuration**, in every state of a process that starts
with a store in order. -/
theorem configured_throughout (P : Platform D) (json : ConfJson) {m : Process D}
    (h : m.shared.Configured) (evs : List (PoolEvent SysCall Ans (Job D) SyncOp)) :
    Throughout (Pool.step (Job.body P) (SyncOp.effect json)) (fun p => p.mem.shared.Configured)
      ({ mem := m } : Pool SysCall Ans (Process D) Mark (Job D)) evs := by
  refine throughout_of_writes (job_writes jobWrites_configured) (fun op m m' hop h => ?_) h evs
  obtain ⟨s', hs', rfl⟩ := Option.map_eq_some_iff.mp hop
  exact SyncOp.onShared_configured h hs'

/-- What a reload that got past the parser leaves: a state for exactly the types with a
configuration, the entries of those that were registered before, and none for the new
ones. -/
structure ReloadLeaves (s s' : SharedState D) : Prop where
  same : ∀ t : StdString, s'.mStates[t]?.isSome ↔ s'.mTypeConf[t]?.isSome
  kept : ∀ t : StdString, s.mTypeConf[t]?.isSome → s'.mTypeConf[t]?.isSome →
    s'.mStates[t]? = some (s.mStates[t]?.getD ∅)
  fresh : ∀ t : StdString, s.mTypeConf[t]? = none → s'.mTypeConf[t]?.isSome →
    s'.mStates[t]? = some ∅

/-- A store as it should be: every type in it has a configuration, no merge throws, and
reloads leave what they should. -/
structure StoreInOrder (host : Host) (json : ConfJson) (s : SharedState D) : Prop where
  configured : s.Configured
  merges : ∀ t stateSlice peerAddr, s.merge host t stateSlice peerAddr ≠ .error .exception
  reloads : ∀ errno file mOk s', s.loadRegisteredTypes json errno file = .ok (mOk, s') →
    ReloadLeaves s s'

omit [BEq D] in
lemma SharedState.Configured.reloadLeaves (h : s.Configured)
    (mTypeConf : OrdMap StdString DataTypeConf) : ReloadLeaves s (s.reloaded mTypeConf) := by
  have hstate : ∀ t : StdString, (s.reloaded mTypeConf).mTypeConf[t]?.isSome →
      (s.reloaded mTypeConf).mStates[t]? = some (s.mStates[t]?.getD ∅) := by
    intro t ht
    obtain ⟨conf, hconf⟩ := Option.isSome_iff_exists.mp ht
    rw [reloaded_getElem?, show mTypeConf[t]? = some conf from hconf, Option.map_some]
  refine ⟨reloaded_isSome_iff s mTypeConf, fun t _ ht => hstate t ht, fun t hnew ht => ?_⟩
  -- a type that was not registered had no state either
  have hnone : s.mStates[t]? = none := by
    cases hs : s.mStates[t]? with
    | none => rfl
    | some tState =>
        have hsome := h t (by rw [hs]; rfl)
        rw [hnew] at hsome
        cases hsome
  rw [hstate t ht, hnone, Option.getD_none]

/-- **The two maps of the store.** In every state of a process that starts with an empty
store, whatever coroutines and functions it runs, with whatever files and answers and
in whatever order: every stored type has a configuration, so that no merge throws, and
whenever a reload gets past the parser the types with a state are those with a
configuration, with the entries they had, and the new ones are empty. -/
theorem stored_types_configured (P : Platform D) (json : ConfJson) (isPeer : Bool)
    (evs : List (PoolEvent SysCall Ans (Job D) SyncOp)) :
    Throughout (Pool.step (Job.body P) (SyncOp.effect json))
      (fun p => StoreInOrder P.host json p.mem.shared)
      ({ mem := { shared := ⟨∅, ∅, isPeer⟩ } } : Pool SysCall Ans (Process D) Mark (Job D))
      evs := by
  intro pre hpre
  have hempty : (⟨∅, ∅, isPeer⟩ : SharedState D).Configured := by
    intro t ht
    simp at ht
  have hconfigured := configured_throughout P json
    (m := { shared := ⟨∅, ∅, isPeer⟩ }) hempty evs pre hpre
  refine ⟨hconfigured, hconfigured.merge_ne_exception P.host, ?_⟩
  intro errno file mOk s' hload
  obtain ⟨text, mTypeConf, -, -, rfl⟩ := loadRegisteredTypes_ok hload
  exact hconfigured.reloadLeaves mTypeConf

end Coroutines

end SharedStateAsync
