/-
The coroutines of a process and the functions it calls, on one `SharedState`.

The sessions, `merge` and the command line's `insert` are coroutines; reading the
configuration, registering a type and bleaching are functions that never give way,
so that from the outside each is a single step.

* `SharedState.insertMembers`, `insert`: `SharedStateCli::insert`;
* `Job`, `Job.body`: the coroutines;
* `SyncOp`, `SyncOp.effect`: the functions;
* `SyncOp.onShared_cases`: what they can do to the store;
* `JobWrites`, `job_writes`: what the coroutines write.
-/
import SharedStateAsync.Config.Reload
import SharedStateAsync.Gossip.Network
import SharedStateAsync.Lib.Pool
import SharedStateAsync.Session.Phases

namespace SharedStateAsync

open Coro

variable {D : Type}

/-! ### The command line's insert -/

/-- `DataTypeConf` as its constructor makes it. -/
def DataTypeConf.initial : DataTypeConf := ⟨[], [], 0, 0⟩

/-- The body of the loop in `SharedStateCli::insert`. The configuration is looked up
with `operator[]`, which makes one where there is none. -/
def SharedState.insertMember (authorPlaceOlder typeName : StdString) (s : SharedState D)
    (member : StdString × D) : SharedState D :=
  let mTypeConf := s.mTypeConf.insertIfNew typeName DataTypeConf.initial
  let conf := mTypeConf[typeName]?.getD DataTypeConf.initial
  let tState := s.mStates[typeName]?.getD ∅
  { s with
    mTypeConf := mTypeConf
    mStates := s.mStates.insert typeName
      (tState.insert (cString member.1) ⟨authorPlaceOlder, conf.insertTtl, member.2⟩) }

/-- The loop of `SharedStateCli::insert` over the members of the JSON object. -/
def SharedState.insertMembers (authorPlaceOlder typeName : StdString) (s : SharedState D)
    (members : List (StdString × D)) : SharedState D :=
  members.foldl (SharedState.insertMember authorPlaceOlder typeName) s

/-- In a fresh process the loop leaves the slice of the insert. -/
lemma insertMembers_getElem? {s : SharedState D} {typeName : StdString} {conf : DataTypeConf}
    (hstate : s.mStates[typeName]? = some ∅) (hconf : s.mTypeConf[typeName]? = some conf)
    (authorPlaceOlder : StdString) (members : List (StdString × D)) :
    (s.insertMembers authorPlaceOlder typeName members).mStates[typeName]?
        = some (insertSlice conf authorPlaceOlder members) ∧
      (s.insertMembers authorPlaceOlder typeName members).mTypeConf[typeName]? = some conf := by
  induction members using List.reverseRecOn with
  | nil => exact ⟨hstate, hconf⟩
  | append_singleton members member ih =>
      rw [SharedState.insertMembers, insertSlice, List.foldl_append, List.foldl_append]
      rw [SharedState.insertMembers] at ih
      simp only [List.foldl_cons, List.foldl_nil, SharedState.insertMember]
      rw [OrdMap.getElem?_insert_eq, if_pos rfl, OrdMap.getElem?_insertIfNew_eq, if_pos rfl, ih.1,
        ih.2, Option.getD_some, Option.getD_some, Option.getD_some]
      exact ⟨rfl, rfl⟩

variable [BEq D]

/-- `SharedStateCli::insert`. What the standard input holds is parsed to the members of
an object; any other text ends the process. -/
def insert (P : Platform D) (typeName : StdString) (jsonInput : Option (List (StdString × D)))
    (localInstanceAddr : SockAddr) : Io D Unit := do
  let m ← memory
  if !m.shared.mStates.contains typeName then
    rs_error_bubble_or_exit .unkownDataType .null
  match jsonInput with
  | none => .exit
  | some members =>
      setMemory { m with
        shared := m.shared.insertMembers P.host.authorPlaceOlder typeName members }
      let _ ← syncWithPeer P typeName localInstanceAddr .null
      .exit

/-! ### Coroutines and functions -/

/-- The coroutines that work on the store. -/
inductive Job (D : Type) where
  | syncWithPeer (dataTypeName : StdString) (peerAddr : SockAddr) (errbub : ErrBub)
  | handleReqSyncConnection (pSocket : ObjId) (errbub : ErrBub)
  | merge (dataTypeName : StdString) (stateSlice : StateMap D) (peerAddr : SockAddr)
      (errbub : ErrBub)
  | insert (typeName : StdString) (jsonInput : Option (List (StdString × D)))
      (localInstanceAddr : SockAddr)

def Job.body (P : Platform D) : Job D → Io D Unit
  | .syncWithPeer dataTypeName peerAddr errbub => do
      let _ ← SharedStateAsync.syncWithPeer P dataTypeName peerAddr errbub
  | .handleReqSyncConnection pSocket errbub => do
      let _ ← SharedStateAsync.handleReqSyncConnection P pSocket errbub
  | .merge dataTypeName stateSlice peerAddr errbub => do
      let _ ← mergeSlice P dataTypeName stateSlice peerAddr errbub
  | .insert typeName jsonInput localInstanceAddr =>
      SharedStateAsync.insert P typeName jsonInput localInstanceAddr

/-- The object after `registerDataType`, also where it fails: what was loaded stays,
and so does the new type once the directory is there. -/
def SharedState.afterRegister (json : ConfJson) (dir : ConfDir) (s : SharedState D)
    (typeName typeScope : StdString) (updateInterval TTL : ℤ) : SharedState D :=
  if typeName.isEmpty then s
  else if DATA_TYPE_NAME_MAX_LENGHT < typeName.length then s
  else
    let loaded := s.tryLoad json dir.errno dir.content
    match if loaded.1 then none else dir.createDirErr with
    | some _ => loaded.2
    | none => { loaded.2 with
        mTypeConf := loaded.2.mTypeConf.insert typeName ⟨typeName, typeScope, updateInterval, TTL⟩ }

omit [BEq D] in
/-- What a registration leaves: what was there or was read, and perhaps one more
configuration. -/
lemma afterRegister_cases (json : ConfJson) (dir : ConfDir) (s : SharedState D)
    (typeName typeScope : StdString) (updateInterval TTL : ℤ) :
    ∃ s₁ : SharedState D, (s₁ = s ∨ ∃ text mTypeConf mOk, dir.content = some text ∧
        json.load text = some (mTypeConf, mOk) ∧ s₁ = s.reloaded mTypeConf) ∧
      (s.afterRegister json dir typeName typeScope updateInterval TTL = s₁ ∨
        ∃ conf, s.afterRegister json dir typeName typeScope updateInterval TTL
          = { s₁ with mTypeConf := s₁.mTypeConf.insert typeName conf }) := by
  rw [SharedState.afterRegister]
  split_ifs
  · exact ⟨s, Or.inl rfl, Or.inl rfl⟩
  · exact ⟨s, Or.inl rfl, Or.inl rfl⟩
  refine ⟨_, tryLoad_cases json dir.errno dir.content s, ?_⟩
  simp only
  cases if (s.tryLoad json dir.errno dir.content).1 then none else dir.createDirErr with
  | some err => exact Or.inl rfl
  | none => exact Or.inr ⟨_, rfl⟩

omit [BEq D] in
/-- A registration that succeeds leaves the same. -/
lemma registerDataType_after {json : ConfJson} {dir : ConfDir} {s s' : SharedState D}
    {typeName typeScope text : StdString} {updateInterval TTL : ℤ} {mOk : Bool}
    (h : s.registerDataType json dir typeName typeScope updateInterval TTL
      = .ok (s', text, mOk)) :
    s' = s.afterRegister json dir typeName typeScope updateInterval TTL := by
  obtain ⟨hempty, hlong, hdir, rfl, -⟩ := registerDataType_ok h
  rw [SharedState.afterRegister, if_neg hempty, if_neg hlong]
  simp only [hdir]

/-- The functions that work on the store. -/
inductive SyncOp where
  /-- The reload of a file with the given content, or of none. -/
  | loadRegisteredTypes (errno : Errno) (file : Option StdString) (errbub : ErrBub)
  | registerDataType (dir : ConfDir) (typeName typeScope : StdString) (updateInterval TTL : ℤ)
      (errbub : ErrBub)
  | bleach (dataTypeName : StdString) (times : ℤ) (errbub : ErrBub)

/-- What is left of the object when a call fails: nothing, if there is nowhere to
store the error. -/
def ErrBub.failed {α : Type} (a : α) : ErrBub → Option α
  | .null => none
  | .storage => some a

/-- The object after a call. -/
def SyncOp.onShared (json : ConfJson) (s : SharedState D) : SyncOp → Option (SharedState D)
  | .loadRegisteredTypes errno file errbub =>
      match s.loadRegisteredTypes json errno file with
      | .ok (_, s') => some s'
      | .error _ => errbub.failed s
  | .registerDataType dir typeName typeScope updateInterval TTL errbub =>
      match s.registerDataType json dir typeName typeScope updateInterval TTL with
      | .ok (s', _, _) => some s'
      | .error _ => errbub.failed (s.afterRegister json dir typeName typeScope updateInterval TTL)
  | .bleach dataTypeName times errbub =>
      match s.bleach dataTypeName times with
      | .ok (_, s') => some s'
      | .error _ => errbub.failed s

omit [BEq D] in
/-- A bleach puts a state in place of one that is there. -/
lemma bleach_ok {s s' : SharedState D} {dataTypeName : StdString} {times removed : ℤ}
    (h : s.bleach dataTypeName times = .ok (removed, s')) :
    s.mStates[dataTypeName]?.isSome ∧ ∃ tState, s' = s.setState dataTypeName tState := by
  rw [SharedState.bleach] at h
  split_ifs at h
  cases hstate : s.mStates[dataTypeName]? with
  | none =>
      rw [hstate] at h
      cases h
  | some tState =>
      rw [hstate] at h
      exact ⟨rfl, _, (Prod.mk.inj (Except.ok.inj h)).2.symm⟩

omit [BEq D] in
/-- How a call ends: as it should, or with an error that was stored. -/
lemma ErrBub.failed_eq_some {α : Type} {errbub : ErrBub} {a b : α}
    (h : errbub.failed a = some b) : b = a := by
  cases errbub with
  | null => cases h
  | storage => exact (Option.some.inj h).symm

omit [BEq D] in
/-- **What a call can do** to the object. -/
theorem SyncOp.onShared_cases {json : ConfJson} {op : SyncOp} {s s' : SharedState D}
    (h : op.onShared json s = some s') :
    s' = s ∨
      (∃ errno text errbub mTypeConf mOk, op = .loadRegisteredTypes errno (some text) errbub ∧
        json.load text = some (mTypeConf, mOk) ∧ s' = s.reloaded mTypeConf) ∨
      (∃ dir typeName typeScope updateInterval TTL errbub,
        op = .registerDataType dir typeName typeScope updateInterval TTL errbub ∧
        s' = s.afterRegister json dir typeName typeScope updateInterval TTL) ∨
      ∃ dataTypeName tState, s.mStates[dataTypeName]?.isSome ∧
        s' = s.setState dataTypeName tState := by
  cases op with
  | loadRegisteredTypes errno file errbub =>
      rw [SyncOp.onShared] at h
      cases hload : s.loadRegisteredTypes json errno file with
      | error e =>
          rw [hload] at h
          exact Or.inl (ErrBub.failed_eq_some h)
      | ok result =>
          rw [hload] at h
          obtain ⟨text, mTypeConf, rfl, htext, hs'⟩ := loadRegisteredTypes_ok hload
          obtain rfl := Option.some.inj h
          exact Or.inr (Or.inl ⟨errno, text, errbub, mTypeConf, result.1, rfl, htext, hs'⟩)
  | registerDataType dir typeName typeScope updateInterval TTL errbub =>
      refine Or.inr (Or.inr (Or.inl
        ⟨dir, typeName, typeScope, updateInterval, TTL, errbub, rfl, ?_⟩))
      rw [SyncOp.onShared] at h
      cases hreg : s.registerDataType json dir typeName typeScope updateInterval TTL with
      | error e =>
          rw [hreg] at h
          exact ErrBub.failed_eq_some h
      | ok result =>
          rw [hreg] at h
          obtain rfl := Option.some.inj h
          exact registerDataType_after hreg
  | bleach dataTypeName times errbub =>
      rw [SyncOp.onShared] at h
      cases hbleach : s.bleach dataTypeName times with
      | error e =>
          rw [hbleach] at h
          exact Or.inl (ErrBub.failed_eq_some h)
      | ok result =>
          rw [hbleach] at h
          obtain rfl := Option.some.inj h
          obtain ⟨hstate, tState, hs'⟩ := bleach_ok hbleach
          exact Or.inr (Or.inr (Or.inr ⟨dataTypeName, tState, hstate, hs'⟩))

/-- The memory after a call. -/
def SyncOp.effect (json : ConfJson) (op : SyncOp) (m : Process D) : Option (Process D) :=
  (op.onShared json m.shared).map fun s => { m with shared := s }

/-! ### What the coroutines write -/

/-- `W` allows all writes of the coroutines: those that leave the store alone, merges,
and inserts into a type that has a state. -/
structure JobWrites (P : Platform D) (W : Process D → Process D → Prop) : Prop where
  keepsShared : ∀ m m', KeepsShared m m' → W m m'
  merge : ∀ m t stateSlice peerAddr changes s,
    m.shared.merge P.host t stateSlice peerAddr = .ok (changes, s) → W m { m with shared := s }
  insert : ∀ m typeName members, m.shared.mStates[typeName]?.isSome →
    W m { m with shared := m.shared.insertMembers P.host.authorPlaceOlder typeName members }

section JobWrites

variable {P : Platform D} {W : Process D → Process D → Prop}

lemma JobWrites.uses {α : Type} {C : SysCall → Prop} {p : Io D α} (h : JobWrites P W)
    (hp : p.Uses C (fun e => e.isMinor) KeepsShared True) :
    p.Uses (fun _ => True) (fun _ => True) W True :=
  hp.mono (fun _ _ => trivial) (fun _ _ => trivial) h.keepsShared id

lemma uses_mergeSlice (h : JobWrites P W) (dataTypeName : StdString) (stateSlice : StateMap D)
    (peerAddr : SockAddr) (errbub : ErrBub) :
    (mergeSlice P dataTypeName stateSlice peerAddr errbub).Uses (fun _ => True) (fun _ => True)
      W True := by
  intro m
  rw [mergeSlice, usesFrom_memory_bind]
  cases hmerge : m.shared.merge P.host dataTypeName stateSlice peerAddr with
  | ok result =>
      obtain ⟨changes, shared⟩ := result
      exact ⟨h.merge m _ _ _ changes shared hmerge, trivial, trivial⟩
  | error e =>
      cases e with
      | bubble c =>
          exact uses_bind (h.uses (manages_minor.uses_bubble c errbub)) (fun _ => uses_pure _) m
      | exception => exact ⟨trivial, fun _ => ⟨trivial, trivial⟩⟩

/-- The common end of both sides' sessions. -/
lemma uses_finish (h : JobWrites P W) (aFD : Option ObjId) (netStats : NetworkStats)
    (typeName : StdString) (changes : ℤ) (errbub : ErrBub) :
    (do
      let _ ← closeAFD aFD
      let collected ← collectStat P netStats errbub
      if !collected then return false
      let m ← memory
      if m.shared.isPeer ∧ changes > 0 then notifyHooks P typeName errbub
      else return true : Io D Bool).Uses (fun _ => True) (fun _ => True) W True := by
  refine uses_bind (h.uses (uses_closeAFD manages_minor aFD .null)) fun _ => ?_
  refine uses_bind (h.uses (uses_collectStat keepsStats_minor P netStats fun _ => trivial))
    fun collected => ?_
  split_ifs
  · exact uses_pure false
  refine uses_bind uses_memory fun m => ?_
  split_ifs
  · obtain ⟨body, hbody, heq⟩ := notifyHooks_eq runsCommands_minor (fun _ => trivial)
      (fun _ => trivial) trivial P typeName errbub
    rw [heq]
    exact uses_bind (uses_event trivial) fun _ => h.uses hbody
  · exact uses_pure true

/-- Giving up: the socket is closed. -/
lemma uses_giveUp (h : JobWrites P W) (aFD : Option ObjId) :
    (do let _ ← closeAFD aFD; return false : Io D Bool).Uses (fun _ => True) (fun _ => True)
      W True :=
  uses_bind (h.uses (uses_closeAFD manages_minor aFD .null)) fun _ => uses_pure false

lemma uses_syncWithPeer (h : JobWrites P W) (dataTypeName : StdString) (peerAddr : SockAddr)
    (errbub : ErrBub) :
    (syncWithPeer P dataTypeName peerAddr errbub).Uses (fun _ => True) (fun _ => True) W True := by
  refine uses_bind uses_memory fun m => ?_
  split_ifs
  · exact uses_bind (h.uses (manages_minor.uses_bubble _ errbub)) fun _ => uses_pure false
  refine uses_bind (h.uses (uses_connect manages_minor (fun _ => trivial) _ _)) fun connected => ?_
  cases connected with
  | none => exact uses_pure false
  | some tSocket =>
      simp only
      refine uses_bind (h.uses (uses_clientHandShake talks_minor _ _ _ fun _ => trivial)) ?_
      rintro ⟨handShaken, netStats₂⟩
      simp only
      split_ifs
      · exact uses_giveUp h _
      refine uses_bind (uses_referencedState trivial) fun tState => ?_
      refine uses_bind (uses_event trivial) fun _ => ?_
      refine uses_bind (h.uses (uses_sendNetworkMessage talks_minor _ _ _ _ fun _ => trivial)) ?_
      rintro ⟨totalSent, netStats₄⟩
      simp only
      split_ifs
      · exact uses_giveUp h _
      refine uses_bind (h.uses (uses_receiveNetworkMessage talks_minor _ _ _ fun _ => trivial)) ?_
      rintro ⟨totalReceived, netMessage, netStats₅⟩
      simp only
      split_ifs
      · exact uses_giveUp h _
      refine uses_bind (uses_event trivial) fun _ => ?_
      refine uses_bind (uses_call trivial) fun _ => ?_
      refine uses_bind (uses_mergeSlice h _ _ _ errbub) fun changes => ?_
      split_ifs
      · exact uses_giveUp h _
      exact uses_bind (uses_call trivial) fun _ => uses_finish h _ _ _ _ errbub

/-- A merge that does not return `-1` was one of a type with a state. -/
lemma mergeSlice_returns (dataTypeName : StdString) (stateSlice : StateMap D)
    (peerAddr : SockAddr) (errbub : ErrBub) (m : Process D) :
    wp (fun _ _ => True) (fun _ _ => True) (mergeSlice P dataTypeName stateSlice peerAddr errbub)
      (fun changes m' _ => changes ≠ -1 → m'.shared.mStates[dataTypeName]?.isSome) m [] := by
  rw [mergeSlice, wp_bind, wp_memory]
  rcases m.shared.merge_cases P.host dataTypeName stateSlice peerAddr with
    ⟨tState, conf, -, -, hmerge⟩ | ⟨-, hmerge⟩ | ⟨tState, hstate, -, hmerge⟩
  · rw [hmerge]
    intro _
    exact Option.isSome_iff_exists.mpr ⟨_, SharedState.setState_getElem?_self _ _ _⟩
  · rw [hmerge]
    cases errbub with
    | null => trivial
    | storage => exact fun hne => absurd rfl hne
  · rw [hmerge]
    intro changes _ _
    exact Option.isSome_iff_exists.mpr ⟨tState, hstate⟩

omit [BEq D] in
lemma uses_getPeerAddr (pSocket : ObjId) :
    (getPeerAddr pSocket : Io D _).Uses (fun _ => True) (fun e => e.isMinor) KeepsShared True := by
  refine uses_bind (uses_bind uses_memory fun _ => uses_pure _) fun fd => ?_
  refine uses_bind (uses_call trivial) fun peer => ?_
  cases peer with
  | error e => exact uses_bind (manages_minor.uses_bubble _ .null) fun _ => uses_pure none
  | ok peerAddr => exact uses_pure _

/-- The server looks its state up with `operator[]`, but only after a merge, so that
none is made. -/
lemma uses_handleReqSyncConnection (h : JobWrites P W) (pSocket : ObjId) (errbub : ErrBub) :
    (handleReqSyncConnection P pSocket errbub).Uses (fun _ => True) (fun _ => True) W True := by
  refine uses_bind (h.uses (uses_getPeerAddr pSocket)) fun mPeer => ?_
  refine uses_bind (h.uses (uses_serverHandShake talks_minor _ _ _ fun _ => trivial)) ?_
  rintro ⟨handShaken, netStats₂⟩
  simp only
  split_ifs
  · exact uses_giveUp h _
  refine uses_bind (h.uses (uses_receiveNetworkMessage talks_minor _ _ _ fun _ => trivial)) ?_
  rintro ⟨totalReceived, networkMessage, netStats₃⟩
  simp only
  split_ifs
  · exact uses_giveUp h _
  refine uses_bind (uses_event trivial) fun _ => uses_bind (uses_call trivial) fun _ m => ?_
  refine usesFrom_bind_of_wp (uses_mergeSlice h _ _ _ errbub m)
    (wp_mono (mergeSlice_returns _ _ _ errbub m) fun changes m₄ _ hstate => ?_)
  split_ifs with hchanges
  · exact uses_giveUp h _ m₄
  obtain ⟨tState, htState⟩ := Option.isSome_iff_exists.mp (hstate hchanges)
  refine ⟨trivial, fun _ => ⟨h.keepsShared _ _ ?_, ?_⟩⟩
  · exact touch_of_some htState
  · refine uses_bind (uses_event trivial) (fun _ => ?_) _
    refine uses_bind (h.uses (uses_sendNetworkMessage talks_minor _ _ _ _ fun _ => trivial)) ?_
    rintro ⟨totalSent, netStats₆⟩
    simp only
    split_ifs
    · exact uses_giveUp h _
    · exact uses_finish h _ _ _ _ errbub

lemma uses_insert (h : JobWrites P W) (typeName : StdString)
    (jsonInput : Option (List (StdString × D))) (localInstanceAddr : SockAddr) :
    (insert P typeName jsonInput localInstanceAddr).Uses (fun _ => True) (fun _ => True)
      W True := by
  intro m
  rw [insert, usesFrom_memory_bind]
  split_ifs with hstate
  · exact trivial
  cases jsonInput with
  | none => exact trivial
  | some members =>
      refine ⟨h.insert m typeName members ?_, ?_⟩
      · rw [Std.ExtTreeMap.contains_eq_isSome_getElem?] at hstate
        simpa using hstate
      · exact uses_bind (uses_syncWithPeer h _ _ .null) (fun _ => uses_exit trivial) _

/-- **What the coroutines write.** -/
theorem job_writes (h : JobWrites P W) (job : Job D) (m : Process D) :
    Writes W (job.body P) m := by
  cases job with
  | syncWithPeer dataTypeName peerAddr errbub =>
      exact uses_bind (uses_syncWithPeer h _ _ errbub) (fun _ => uses_pure ()) m
  | handleReqSyncConnection pSocket errbub =>
      exact uses_bind (uses_handleReqSyncConnection h _ errbub) (fun _ => uses_pure ()) m
  | merge dataTypeName stateSlice peerAddr errbub =>
      exact uses_bind (uses_mergeSlice h _ _ _ errbub) (fun _ => uses_pure ()) m
  | insert typeName jsonInput localInstanceAddr => exact uses_insert h _ _ _ m

end JobWrites

end SharedStateAsync
