/-
What the sessions of the daemon write and send.

The coroutines of the daemon interleave at every call that would block, but what they
do to the store is atomic: a session changes it with one `merge` of the message it has
received, and what it sends is the state of a type as it is at that moment.

* `Job.Peer`, `Received`: the address a session knows its peer by, and the message it
  has received from it;
* `SessionWrites`, `SessionMarks`: the obligations of a session;
* `guarded_syncWithPeer`, `guarded_handleReqSyncConnection`, `guarded_session`: both
  sessions meet them;
* `state_step`: whatever the interleaving, a step of the daemon changes the state of a
  type by one merge of a received message, by one bleach, or not at all.
-/
import SharedStateAsync.Lib.Guard
import SharedStateAsync.Daemon.Reference

namespace SharedStateAsync

open Coro

variable {D α : Type}

/-! ### The obligations -/

/-- A client or a server session. -/
def Job.IsSession : Job D → Prop
  | .syncWithPeer _ _ _ => True
  | .handleReqSyncConnection _ _ => True
  | .merge _ _ _ _ => False
  | .insert _ _ _ => False

/-- The address a session knows its peer by: a client has connected to it, a server has
asked for it. -/
def Job.Peer : Job D → Trace D → SockAddr → Prop
  | .syncWithPeer _ peerAddr _, _, addr => addr = peerAddr
  | .handleReqSyncConnection _ _, t, addr => ∃ m fd, .called m (.getpeername fd) (.ok addr) ∈ t
  | .merge _ _ _ _, _, _ => False
  | .insert _ _ _, _, _ => False

/-- The session has received the message, from a peer it knew by the address. -/
def Received (job : Job D) (t : Trace D) (typeName data : StdString) (addr : SockAddr) : Prop :=
  ∃ t₁ t₂, t = t₁ ++ .marked (.messageIn typeName data) :: t₂ ∧ job.Peer t₁ addr

lemma Received.concat {job : Job D} {t : Trace D} {typeName data : StdString} {addr : SockAddr}
    (h : Received job t typeName data addr) (i : Step D) :
    Received job (t ++ [i]) typeName data addr := by
  obtain ⟨t₁, t₂, rfl, hpeer⟩ := h
  exact ⟨t₁, t₂ ++ [i], by rw [List.append_assoc, List.cons_append], hpeer⟩

variable [BEq D]

/-- A session leaves the store alone, looks a state up, or merges what it has
received. -/
def SessionWrites (P : Platform D) (job : Job D) (t : Trace D) (m m' : Process D) : Prop :=
  m'.shared = m.shared ∨ (∃ typeName, m'.shared = m.shared.touch typeName) ∨
    ∃ typeName data addr changes, Received job t typeName data addr ∧
      m.shared.merge P.host typeName (P.toStateSlice data) addr = .ok (changes, m'.shared)

omit [BEq D] in
/-- A session sends the state as it is. -/
def SessionMarks (P : Platform D) (_ : Job D) (_ : Trace D) (m : Process D) : Mark → Prop
  | .messageOut typeName data => data = P.fromStateSlice (m.shared.mStates[typeName]?.getD ∅)
  | _ => True

/-- The coroutine meets the obligations of a session. -/
abbrev Owes (P : Platform D) (job : Job D) (p : Io D α)
    (Q : α → Process D → Trace D → Prop) (m : Process D) (t : Trace D) : Prop :=
  guarded { write := SessionWrites P job, mark := SessionMarks P job } p Q m t

/-! ### The sessions -/

section Sessions

variable {P : Platform D} {job : Job D} {m : Process D} {t : Trace D} {errbub : ErrBub}

/-- Transport, bookkeeping and commands owe nothing, and what was recorded stays. -/
lemma owes_minor {C : SysCall → Prop} {I : Trace D → Prop} {p : Io D α}
    (hp : p.Uses C (fun e => e.isMinor) KeepsShared True) (hI : ∀ t i, I t → I (t ++ [i]))
    (h : I t) : Owes P job p (fun _ _ => I) m t := by
  refine guarded_of_uses hp ?_ h
  refine ⟨fun _ _ _ _ _ => trivial, fun _ t _ _ _ _ => hI t _, fun _ _ t _ => hI t _, ?_,
    fun _ t _ _ => hI t _, fun _ _ _ hm _ => Or.inl hm, fun _ _ _ _ ht => ht,
    fun _ _ _ _ => trivial⟩
  intro _ _ e he _
  cases e with
  | messageOut typeName data => cases he
  | _ => trivial

lemma owes_nothing {C : SysCall → Prop} {p : Io D α}
    (hp : p.Uses C (fun e => e.isMinor) KeepsShared True) :
    Owes P job p (fun _ _ _ => True) m t :=
  owes_minor (I := fun _ => True) hp (fun _ _ _ => trivial) trivial

lemma owes_giveUp (aFD : Option ObjId) (b : Bool) :
    Owes P job (do let _ ← closeAFD aFD; pure b) (fun _ _ _ => True) m t :=
  owes_nothing (uses_bind (uses_closeAFD manages_minor aFD .null) fun _ => uses_pure b)

/-- The common end of both sides. -/
lemma owes_finish (aFD : Option ObjId) (netStats : NetworkStats) (typeName : StdString)
    (changes : ℤ) :
    Owes P job (do
      let _ ← closeAFD aFD
      let collected ← collectStat P netStats errbub
      if !collected then return false
      let m ← memory
      if m.shared.isPeer ∧ changes > 0 then notifyHooks P typeName errbub
      else return true) (fun _ _ _ => True) m t := by
  rw [Owes, guarded_bind]
  refine guarded_mono (owes_nothing (uses_closeAFD manages_minor aFD .null)) fun _ m₁ t₁ _ => ?_
  rw [guarded_bind]
  refine guarded_mono (owes_nothing (uses_collectStat keepsStats_minor P netStats
    fun _ => trivial)) fun collected m₂ t₂ _ => ?_
  split_ifs
  · exact (guarded_pure _).mpr trivial
  rw [guarded_bind, guarded_memory]
  split_ifs
  · obtain ⟨body, hbody, heq⟩ := notifyHooks_eq runsCommands_minor (fun _ => trivial)
      (fun _ => trivial) trivial P typeName errbub
    rw [heq, guarded_bind, guarded_event]
    exact ⟨trivial, owes_nothing hbody⟩
  · exact (guarded_pure _).mpr trivial

/-- A merge of what was received. -/
lemma owes_mergeSlice {typeName data : StdString} {addr : SockAddr}
    (h : Received job t typeName data addr) :
    Owes P job (mergeSlice P typeName (P.toStateSlice data) addr errbub) (fun _ _ _ => True)
      m t := by
  rw [Owes, mergeSlice, guarded_bind, guarded_memory]
  cases hmerge : m.shared.merge P.host typeName (P.toStateSlice data) addr with
  | ok result =>
      simp only [guarded_bind, guarded_setMemory, guarded_event]
      refine ⟨Or.inr (Or.inr ⟨typeName, data, addr, result.1, h, hmerge⟩), trivial, ?_⟩
      exact (guarded_pure _).mpr trivial
  | error e =>
      cases e with
      | exception => exact ⟨trivial, fun changes _ => ⟨trivial, trivial⟩⟩
      | bubble c =>
          cases errbub with
          | null => trivial
          | storage => exact ⟨trivial, trivial⟩

omit [BEq D] in
/-- Reading the state through the reference. -/
lemma owes_referencedState {G : Trace D → Process D → Process D → Prop} (typeName : StdString)
    {Q : StateMap D → Process D → Trace D → Prop} :
    guarded { write := G, mark := SessionMarks P job } (referencedState typeName) Q m t ↔
      Q (m.shared.mStates[typeName]?.getD ∅) m (afterReference typeName m t) := by
  rw [referencedState, afterReference, guarded_bind, guarded_memory]
  cases m.shared.mStates[typeName]? with
  | none => exact and_iff_right trivial
  | some tState => exact Iff.rfl

/-- **A client** meets its obligations. -/
theorem guarded_syncWithPeer (dataTypeName : StdString) (peerAddr : SockAddr)
    (hjob : ∀ t, job.Peer t peerAddr) :
    Owes P job (syncWithPeer P dataTypeName peerAddr errbub) (fun _ _ _ => True) m t := by
  rw [Owes, syncWithPeer, guarded_bind, guarded_memory]
  split_ifs
  · exact owes_nothing (uses_bind (manages_minor.uses_bubble _ errbub) fun _ => uses_pure _)
  rw [guarded_bind]
  refine guarded_mono (owes_nothing (uses_connect manages_minor (fun _ => trivial) _ _)) ?_
  rintro (_ | tSocket) m₁ t₁ -
  · exact (guarded_pure _).mpr trivial
  simp only
  rw [guarded_bind]
  refine guarded_mono (owes_nothing (uses_clientHandShake talks_minor _ _ _ fun _ => trivial)) ?_
  rintro ⟨handShaken, netStats₂⟩ m₂ t₂ -
  simp only
  split_ifs
  · exact owes_giveUp _ _
  rw [guarded_bind, owes_referencedState, guarded_bind, guarded_event]
  refine ⟨rfl, ?_⟩
  rw [guarded_bind]
  refine guarded_mono (owes_nothing (uses_sendNetworkMessage talks_minor _ _ _ _
    fun _ => trivial)) ?_
  rintro ⟨totalSent, netStats₄⟩ m₄ t₄ -
  simp only
  split_ifs
  · exact owes_giveUp _ _
  rw [guarded_bind]
  refine guarded_mono (owes_nothing (uses_receiveNetworkMessage talks_minor _ _ _
    fun _ => trivial)) ?_
  rintro ⟨totalReceived, netMessage, netStats₅⟩ m₅ t₅ -
  simp only
  split_ifs
  · exact owes_giveUp _ _
  rw [guarded_bind, guarded_event]
  refine ⟨trivial, ?_⟩
  rw [guarded_bind, guarded_call]
  refine ⟨trivial, fun tick _ => ?_⟩
  rw [guarded_bind]
  have hreceived : Received job (t₅ ++ [.marked (.messageIn netMessage.mTypeName
      netMessage.mData)]) netMessage.mTypeName netMessage.mData peerAddr :=
    ⟨t₅, [], rfl, hjob t₅⟩
  refine guarded_mono (owes_mergeSlice (hreceived.concat _)) fun changes m₆ t₆ _ => ?_
  split_ifs
  · exact owes_giveUp _ _
  rw [guarded_bind, guarded_call]
  exact ⟨trivial, fun _ _ => owes_finish _ _ _ _⟩

/-- **A server** meets its obligations. -/
theorem guarded_handleReqSyncConnection (pSocket : ObjId) :
    Owes P (.handleReqSyncConnection pSocket errbub) (handleReqSyncConnection P pSocket errbub)
      (fun _ _ _ => True) m t := by
  rw [Owes, handleReqSyncConnection, guarded_bind]
  refine ⟨trivial, fun peer _ => ?_⟩
  cases peer with
  | error e => trivial
  | ok peerAddr =>
      let Met : Trace D → Prop :=
        fun t => (Job.handleReqSyncConnection pSocket errbub).Peer t peerAddr
      have hconcat : ∀ t i, Met t → Met (t ++ [i]) := by
        rintro t i ⟨m, fd, hmem⟩
        exact ⟨m, fd, List.mem_append_left _ hmem⟩
      have hmet : ∀ m fd t, Met (t ++ [.called m (.getpeername fd) (.ok peerAddr)]) :=
        fun m fd _ => ⟨m, fd, List.mem_append_right _ (List.mem_singleton_self _)⟩
      change guarded _ (serverHandShake _ _ _ _ >>= _) _ m _
      rw [guarded_bind]
      refine guarded_mono (guarded_returns (owes_minor (uses_serverHandShake talks_minor _ _ _
        fun _ => trivial) hconcat (hmet m _ t)) (serverHandShake_mPeer _ _ _ _)) ?_
      rintro ⟨handShaken, netStats₂⟩ m₂ t₂ ⟨h₂, hpeer₂⟩
      simp only
      split_ifs
      · exact owes_giveUp _ _
      rw [guarded_bind]
      refine guarded_mono (guarded_returns (owes_minor (uses_receiveNetworkMessage talks_minor
        _ _ _ fun _ => trivial) hconcat h₂) (receiveNetworkMessage_mPeer _ _ _ _)) ?_
      rintro ⟨totalReceived, networkMessage, netStats₃⟩ m₃ t₃ ⟨h₃, hpeer₃⟩
      have hpeerAddr : netStats₃.mPeer = peerAddr := hpeer₃.trans hpeer₂
      simp only
      split_ifs
      · exact owes_giveUp _ _
      rw [guarded_bind, guarded_event]
      refine ⟨trivial, ?_⟩
      rw [guarded_bind, guarded_call]
      refine ⟨trivial, fun tick _ => ?_⟩
      rw [guarded_bind, hpeerAddr]
      have hreceived : Received (.handleReqSyncConnection pSocket errbub) (t₃ ++ [.marked
          (.messageIn networkMessage.mTypeName networkMessage.mData)]) networkMessage.mTypeName
          networkMessage.mData peerAddr := ⟨t₃, [], rfl, h₃⟩
      refine guarded_mono (owes_mergeSlice (hreceived.concat _)) fun changes m₄ t₄ _ => ?_
      split_ifs
      · exact owes_giveUp _ _
      rw [guarded_bind, guarded_call]
      refine ⟨trivial, fun tick' _ => ?_⟩
      rw [guarded_bind, stateOf, guarded_bind, guarded_memory, guarded_bind, guarded_setMemory]
      refine ⟨Or.inr (Or.inl ⟨_, rfl⟩), ?_⟩
      rw [guarded_pure, guarded_bind, guarded_event]
      refine ⟨rfl, ?_⟩
      rw [guarded_bind]
      refine guarded_mono (owes_nothing (uses_sendNetworkMessage talks_minor _ _ _ _
        fun _ => trivial)) ?_
      rintro ⟨totalSent, netStats₆⟩ m₆ t₆ -
      simp only
      split_ifs
      · exact owes_giveUp _ _
      · exact owes_finish _ _ _ _

/-- **The sessions of the daemon** meet their obligations from the start. -/
theorem guarded_session (hjob : job.IsSession) :
    Owes P job (job.body P) (fun _ _ _ => True) m t := by
  cases job with
  | syncWithPeer dataTypeName peerAddr errbub =>
      rw [Owes, Job.body, guarded_bind]
      exact guarded_mono (guarded_syncWithPeer dataTypeName peerAddr fun _ => rfl)
        fun _ _ _ _ => trivial
  | handleReqSyncConnection pSocket errbub =>
      rw [Owes, Job.body, guarded_bind]
      exact guarded_mono (guarded_handleReqSyncConnection pSocket) fun _ _ _ _ => trivial
  | merge dataTypeName stateSlice peerAddr errbub => exact hjob.elim
  | insert typeName jsonInput localInstanceAddr => exact hjob.elim

end Sessions

/-! ### Interleavings -/

section Interleavings

variable {P : Platform D} {json : ConfJson} {typeName : StdString} {s s' : SharedState D}
  {tState : StateMap D}

omit [BEq D] in
/-- A function that does not read a configuration without the type bleaches its state or
leaves it as it is. -/
lemma SyncOp.onShared_state {op : SyncOp} (hop : ¬ op.Drops json typeName)
    (hs : s.mStates[typeName]? = some tState) (h : op.onShared json s = some s') :
    s'.mStates[typeName]? = some tState ∨ ∃ times errbub, op = .bleach typeName times errbub ∧
      1 ≤ times ∧ s'.mStates[typeName]? = some (bleachState times tState) := by
  have hreloaded : ∀ {text mTypeConf mOk}, json.load text = some (mTypeConf, mOk) →
      ¬ json.Lacks typeName (some text) →
      (s.reloaded mTypeConf).mStates[typeName]? = some tState := by
    intro text mTypeConf mOk htext hfile
    refine reloaded_keeps ?_ hs
    cases hconf : mTypeConf[typeName]? with
    | none => exact absurd ⟨text, mTypeConf, mOk, rfl, htext, hconf⟩ hfile
    | some conf => rfl
  cases op with
  | loadRegisteredTypes errno file errbub =>
      rw [SyncOp.onShared] at h
      cases hload : s.loadRegisteredTypes json errno file with
      | error e =>
          rw [hload] at h
          rw [ErrBub.failed_eq_some h]
          exact Or.inl hs
      | ok result =>
          rw [hload] at h
          obtain ⟨text, mTypeConf, rfl, htext, hs'⟩ := loadRegisteredTypes_ok hload
          obtain rfl := Option.some.inj h
          rw [hs']
          exact Or.inl (hreloaded htext hop)
  | registerDataType dir t typeScope updateInterval TTL errbub =>
      have hafter : s' = s.afterRegister json dir t typeScope updateInterval TTL := by
        rw [SyncOp.onShared] at h
        cases hreg : s.registerDataType json dir t typeScope updateInterval TTL with
        | error e =>
            rw [hreg] at h
            exact ErrBub.failed_eq_some h
        | ok result =>
            rw [hreg] at h
            obtain rfl := Option.some.inj h
            exact registerDataType_after hreg
      obtain ⟨s₁, hs₁, hcases⟩ := afterRegister_cases json dir s t typeScope updateInterval TTL
      have h₁ : s₁.mStates[typeName]? = some tState := by
        rcases hs₁ with rfl | ⟨text, mTypeConf, mOk, hcontent, htext, rfl⟩
        · exact hs
        · have hfile : ¬ json.Lacks typeName dir.content := hop
          rw [hcontent] at hfile
          exact hreloaded htext hfile
      rcases hcases with hcases | ⟨conf, hcases⟩
      · rw [hafter, hcases]
        exact Or.inl h₁
      · rw [hafter, hcases]
        exact Or.inl h₁
  | bleach t times errbub =>
      rw [SyncOp.onShared, SharedState.bleach] at h
      by_cases htimes : times < 1
      · rw [if_pos htimes] at h
        rw [ErrBub.failed_eq_some h]
        exact Or.inl hs
      rw [if_neg htimes] at h
      cases ht : s.mStates[t]? with
      | none =>
          rw [ht] at h
          rw [ErrBub.failed_eq_some h]
          exact Or.inl hs
      | some tState' =>
          rw [ht] at h
          obtain rfl := Option.some.inj h
          rw [SharedState.setState_getElem?]
          split_ifs with heq
          · subst heq
            obtain rfl := Option.some.inj (hs.symm.trans ht)
            exact Or.inr ⟨times, errbub, rfl, not_lt.mp htimes, rfl⟩
          · exact Or.inl hs

/-- **The store is changed by atomic steps only**: a step of the daemon leaves the state of
a type, merges the message that the session that runs has received, or bleaches. -/
theorem state_step {p : DaemonPool D} {ev : DaemonEvent D}
    (h : (guardInvariant (SessionWrites P) (SessionMarks P)).Holds p)
    (hdrops : ∀ op, ev = .sync op → ¬ op.Drops json typeName)
    (hs : p.mem.shared.mStates[typeName]? = some tState) :
    let p' := p.step (Job.body P) (SyncOp.effect json) ev
    p'.mem.shared.mStates[typeName]? = some tState ∨
      (∃ i task data addr, p.Runs i task ∧ Received task.job task.trace typeName data addr ∧
        p'.mem.shared.mStates[typeName]? = some (mergeState P.host.authorPlaceOlder
          (!P.host.isLoopbackNet addr) tState (P.toStateSlice data))) ∨
      ∃ times errbub, ev = .sync (.bleach typeName times errbub) ∧ 1 ≤ times ∧ p.idle ∧
        p'.mem.shared.mStates[typeName]? = some (bleachState times tState) := by
  intro p'
  rcases step_mem_of_guarded (Job.body P) (SyncOp.effect json) ev h with
    hsame | ⟨i, task, hruns, hwrites⟩ | ⟨op, rfl, hidle, hop⟩
  · exact Or.inl (by rw [hsame]; exact hs)
  · rcases hwrites with hshared | ⟨t, hshared⟩ | ⟨t, data, addr, changes, hreceived, hmerge⟩
    · exact Or.inl (by rw [hshared]; exact hs)
    · refine Or.inl ?_
      rw [hshared, SharedState.touch, OrdMap.getElem?_insertIfNew_eq, hs]
      split_ifs with ht
      · rw [ht, hs, Option.getD_some]
      · rfl
    · rcases p.mem.shared.merge_cases P.host t (P.toStateSlice data) addr with
        ⟨tState', conf, ht, -, hok⟩ | ⟨-, herror⟩ | ⟨-, -, -, herror⟩
      · have hs' := (Prod.mk.inj (Except.ok.inj (hmerge.symm.trans hok))).2
        rw [hs', SharedState.setState_getElem?]
        split_ifs with heq
        · subst heq
          obtain rfl := Option.some.inj (hs.symm.trans ht)
          exact Or.inr (Or.inl ⟨i, task, data, addr, hruns, hreceived, rfl⟩)
        · exact Or.inl hs
      · cases hmerge.symm.trans herror
      · cases hmerge.symm.trans herror
  · obtain ⟨s', hs', hmem⟩ := Option.map_eq_some_iff.mp hop
    rw [← hmem]
    rcases op.onShared_state (hdrops op rfl) hs hs' with hleft | ⟨times, errbub, rfl, htimes, hb⟩
    · exact Or.inl hleft
    · exact Or.inr (Or.inr ⟨times, errbub, rfl, htimes, hidle, hb⟩)

/-- **A bleach that is called** between the coroutines, by at least a second, bleaches. -/
lemma step_bleach {p : DaemonPool D} (hidle : p.idle) {times : ℤ} (htimes : 1 ≤ times)
    (hs : p.mem.shared.mStates[typeName]? = some tState) (errbub : ErrBub) :
    (p.step (Job.body P) (SyncOp.effect json)
      (.sync (.bleach typeName times errbub))).mem.shared.mStates[typeName]?
        = some (bleachState times tState) := by
  have hbleach : (SyncOp.bleach typeName times errbub).onShared json p.mem.shared
      = some (p.mem.shared.setState typeName (bleachState times tState)) := by
    rw [SyncOp.onShared, SharedState.bleach, if_neg (not_lt.mpr htimes), hs]
  rw [step_sync_mem hidle (congrArg (Option.map _) hbleach), SharedState.setState_getElem?,
    if_pos rfl]

end Interleavings

end SharedStateAsync
