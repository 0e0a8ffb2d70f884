/-
A session that is run a second time.

After a session the two nodes may still disagree on a key, but then each of them
refuses the other's copy. A second session right after the first therefore brings
nothing new to either side, although it erases and inserts again every entry the
nodes agree on: both merges count no significant change, and no hook is called.

* `exchange_settled`: after two merges neither node has anything new for the
  other;
* `Silent`: a run that merged, but without significant changes;
* `repeated_session_silent`: the second of two sessions.
-/
import SharedStateAsync.Session.Agreement

namespace SharedStateAsync

open Coro

variable {D : Type}

/-! ### After two merges -/

section Settled

variable [BEq D] (a b : StdString) (rA rB : Bool) (stateA stateB : StateMap D)

/-- After a session the nodes agree on a key, or each rejects the other's copy. -/
lemma exchange_cases (k : StateKey) :
    let stateB' := mergeState b rB stateB stateA
    let stateA' := mergeState a rA stateA stateB'
    stateA'[k]? = stateB'[k]? ∨ ∃ e f, stateA'[k]? = some e ∧ stateB'[k]? = some f ∧
      Rejects a rA e f ∧ Rejects b rB f e := by
  intro stateB' stateA'
  cases he : stateA[k]? with
  | none =>
      have hB : stateB'[k]? = stateB[k]? := mergeState_getElem?_of_none he
      refine Or.inl ?_
      cases hf : stateB[k]? with
      | none =>
          have hA : stateA'[k]? = stateA[k]? := mergeState_getElem?_of_none (hB.trans hf)
          rw [hA, he, hB, hf]
      | some f =>
          have hA : stateA'[k]? = some (resolve a rA stateA[k]? f) :=
            mergeState_getElem?_of_some (hB.trans hf)
          rw [hA, he, resolve_none, hB, hf]
  | some e =>
      have hB : stateB'[k]? = some (resolve b rB stateB[k]? e) := mergeState_getElem?_of_some he
      have hA : stateA'[k]? = some (resolve a rA stateA[k]? (resolve b rB stateB[k]? e)) :=
        mergeState_getElem?_of_some hB
      rw [he] at hA
      cases hf : stateB[k]? with
      | none =>
          rw [hf, resolve_none] at hA hB
          exact Or.inl (by rw [hA, hB, resolve_self])
      | some f =>
          rw [hf] at hA hB
          rcases resolve_eq_or_rejects b rB f e with hres | ⟨hres, hrejB⟩
          · rw [hres] at hA hB
            exact Or.inl (by rw [hA, hB, resolve_self])
          · rw [hres] at hA hB
            rcases resolve_eq_or_rejects a rA e f with hres' | ⟨hres', hrejA⟩
            · exact Or.inl (by rw [hA, hB, hres'])
            · rw [hres'] at hA
              exact Or.inr ⟨e, f, hA, hB, hrejA, hrejB⟩

/-- **After a session neither node has anything new for the other.** -/
theorem exchange_settled :
    let stateB' := mergeState b rB stateB stateA
    let stateA' := mergeState a rA stateA stateB'
    NothingNew b rB stateB' stateA' ∧ NothingNew a rA stateA' stateB' := by
  intro stateB' stateA'
  constructor
  · intro k e' he'
    rcases exchange_cases a b rA rB stateA stateB k with heq | ⟨e, f, he, hf, -, hrej⟩
    · exact ⟨e', heq.symm.trans he', Or.inl rfl⟩
    · obtain rfl := Option.some.inj (he.symm.trans he')
      exact ⟨f, hf, Or.inr hrej⟩
  · intro k f' hf'
    rcases exchange_cases a b rA rB stateA stateB k with heq | ⟨e, f, he, hf, hrej, -⟩
    · exact ⟨f', heq.trans hf', Or.inl rfl⟩
    · obtain rfl := Option.some.inj (hf.symm.trans hf')
      exact ⟨e, he, Or.inr hrej⟩

end Settled

/-! ### The second session -/

/-- The run has merged a slice of the type without significant changes, nothing
else, and called no hooks. -/
structure Silent (typeName : StdString) (t : Trace D) : Prop where
  merged_iff : ∀ t' changes, .merged t' changes ∈ marks t ↔ t' = typeName ∧ changes = 0
  noHooks : NoHooks t

lemma silent_of_merged {typeName : StdString} {t : Trace D} (hhooks : HooksFollowMerges t)
    (hmerged : ∀ t' changes, .merged t' changes ∈ marks t ↔ t' = typeName ∧ changes = 0) :
    Silent typeName t := by
  refine ⟨hmerged, fun typeName' hmem => ?_⟩
  obtain ⟨changes, hpos, hmem'⟩ := hhooks typeName' hmem
  have hzero := ((hmerged typeName' changes).mp hmem').2
  omega

/-- A complete session between two nodes that have nothing new for each other. -/
lemma Exchanged.silent [BEq D] [ReflBEq D] {σ σ' : Type} {a b : StdString} {rA rB : Bool}
    {typeName : StdString} {stateA stateB : StateMap D} {sA sB : SharedState D}
    {client : World SysCall Ans (Process D) Mark σ}
    {server : World SysCall Ans (Process D) Mark σ'}
    (h : Exchanged a b rA rB typeName stateA stateB sA sB client server)
    (hnewB : NothingNew b rB stateB stateA) (hnewA : NothingNew a rA stateA stateB)
    (hhooksA : HooksFollowMerges client.trace) (hhooksB : HooksFollowMerges server.trace) :
    (client.mem.shared = sA.setState typeName stateA ∧ Silent typeName client.trace) ∧
      server.mem.shared = sB.setState typeName stateB ∧ Silent typeName server.trace := by
  have hstateB := mergeState_eq_self_iff.mpr hnewB
  have hstateA := mergeState_eq_self_iff.mpr hnewA
  have hzeroB := significantChanges_nothingNew hnewB fun _ _ _ => BEq.rfl
  have hzeroA := significantChanges_nothingNew hnewA fun _ _ _ => BEq.rfl
  have hsharedA := h.client_shared
  have hmergedA := h.client_merged
  have hmergedB := h.server_merged
  rw [hstateB, hstateA] at hsharedA
  rw [hstateB, hzeroA] at hmergedA
  rw [hzeroB] at hmergedB
  refine ⟨⟨hsharedA, silent_of_merged hhooksA hmergedA⟩, ?_, silent_of_merged hhooksB hmergedB⟩
  rw [h.server_shared, hstateB]

/-- **A repeated session is silent.** Whatever two nodes hold of a type and
whatever the system does, a second complete session between them, over addresses
that are as local as those of the first and with nothing changed in between, leaves
both stores as they are, and both its merges return zero, so that no hook is
called. -/
theorem repeated_session_silent [BEq D] [ReflBEq D] {σ₁ σ₂ σ₃ σ₄ : Type}
    (platA platB : Platform D) (envA₁ : Env SysCall Ans (Process D) σ₁)
    (envB₁ : Env SysCall Ans (Process D) σ₂) (envA₂ : Env SysCall Ans (Process D) σ₃)
    (envB₂ : Env SysCall Ans (Process D) σ₄) (stA₁ : σ₁) (stB₁ : σ₂) (stA₂ : σ₃) (stB₂ : σ₄)
    (mA₁ mB₁ mA₂ mB₂ : Process D) (pSocket₁ pSocket₂ : ObjId) (typeName : StdString)
    (peerAddr₁ peerAddr₂ : SockAddr) (localB : Bool) (stateA stateB : StateMap D)
    (hregA : mA₁.shared.Registered typeName) (hA : mA₁.shared.mStates[typeName]? = some stateA)
    (hregB : mB₁.shared.Registered typeName) (hB : mB₁.shared.mStates[typeName]? = some stateB)
    (hlocal : platA.host.isLoopbackNet peerAddr₂ = platA.host.isLoopbackNet peerAddr₁)
    (hjson : let stateB' := mergeState platB.host.authorPlaceOlder (!localB) stateB stateA
      let stateA' := mergeState platA.host.authorPlaceOlder
        (!platA.host.isLoopbackNet peerAddr₁) stateA stateB'
      platB.toStateSlice (platA.fromStateSlice stateA) = stateA ∧
        platA.toStateSlice (platB.fromStateSlice stateB') = stateB' ∧
        platB.toStateSlice (platA.fromStateSlice stateA') = stateA') :
    let client₁ := (syncWithPeer platA typeName peerAddr₁ .storage).exec envA₁ ⟨stA₁, mA₁, []⟩
    let server₁ := (handleReqSyncConnection platB pSocket₁ .storage).exec envB₁ ⟨stB₁, mB₁, []⟩
    let client₂ := (syncWithPeer platA typeName peerAddr₂ .storage).exec envA₂ ⟨stA₂, mA₂, []⟩
    let server₂ := (handleReqSyncConnection platB pSocket₂ .storage).exec envB₂ ⟨stB₂, mB₂, []⟩
    CompleteSession (fun addr => platB.host.isLoopbackNet addr = localB) client₁ server₁ →
    mA₂.shared = client₁.2.mem.shared → mB₂.shared = server₁.2.mem.shared →
    CompleteSession (fun addr => platB.host.isLoopbackNet addr = localB) client₂ server₂ →
      (client₂.2.mem.shared = client₁.2.mem.shared ∧ Silent typeName client₂.2.trace) ∧
        server₂.2.mem.shared = server₁.2.mem.shared ∧ Silent typeName server₂.2.trace := by
  intro client₁ server₁ client₂ server₂ hfirst hsameA hsameB hsecond
  obtain ⟨hrequest₁, hanswer, hrequest₂⟩ := hjson
  have hexchanged₁ := hfirst.exchanged hregA hA hregB hB hrequest₁ hanswer
  obtain ⟨hnewB, hnewA⟩ := exchange_settled platA.host.authorPlaceOlder
    platB.host.authorPlaceOlder (!platA.host.isLoopbackNet peerAddr₁) (!localB) stateA stateB
  -- the second session starts from what the first one left
  have hregA₂ : mA₂.shared.Registered typeName := by
    rw [hsameA, hexchanged₁.client_shared]
    exact SharedState.setState_registered _ hregA
  have hregB₂ : mB₂.shared.Registered typeName := by
    rw [hsameB, hexchanged₁.server_shared]
    exact SharedState.setState_registered _ hregB
  have hA₂ := SharedState.setState_getElem?_self mA₁.shared typeName
    (mergeState platA.host.authorPlaceOlder (!platA.host.isLoopbackNet peerAddr₁) stateA
      (mergeState platB.host.authorPlaceOlder (!localB) stateB stateA))
  rw [← hexchanged₁.client_shared, ← hsameA] at hA₂
  have hB₂ := SharedState.setState_getElem?_self mB₁.shared typeName
    (mergeState platB.host.authorPlaceOlder (!localB) stateB stateA)
  rw [← hexchanged₁.server_shared, ← hsameB] at hB₂
  have hexchanged₂ := hsecond.exchanged hregA₂ hA₂ hregB₂ hB₂ hrequest₂
    (by rw [mergeState_eq_self_iff.mpr hnewB]; exact hanswer)
  rw [hlocal] at hexchanged₂
  -- and brings nothing new
  obtain ⟨-, -, hhooksA⟩ := exec_returns (syncWithPeer_hooks (by rintro U ⟨⟩))
    hsecond.clientAlone hsecond.clientReturns
  obtain ⟨-, -, hhooksB⟩ := exec_returns (handleReqSyncConnection_hooks (by rintro U ⟨⟩))
    hsecond.serverAlone hsecond.serverReturns
  obtain ⟨⟨hsharedA, hsilentA⟩, hsharedB, hsilentB⟩ :=
    hexchanged₂.silent hnewB hnewA hhooksA hhooksB
  refine ⟨⟨?_, hsilentA⟩, ?_, hsilentB⟩
  · rw [hsharedA, SharedState.setState_self hA₂, hsameA]
  · rw [hsharedB, SharedState.setState_self hB₂, hsameB]

/-- The session that brings an entry to a server without it, run again. -/
theorem repeated_session_silent_sample :
    let client₁ := (syncWithPeer (samplePlatform (bytes "a")) (bytes "A") [] .storage).exec
      readySocket ⟨serverStream sampleText, sampleProcess sampleSlice, []⟩
    let server₁ := (handleReqSyncConnection (samplePlatform (bytes "b")) 0 .storage).exec
      readySocket ⟨clientStream (acknowledgement sampleText), sampleProcess ∅, []⟩
    let client₂ := (syncWithPeer (samplePlatform (bytes "a")) (bytes "A") [] .storage).exec
      readySocket ⟨serverStream sampleText,
        { sampleProcess ∅ with shared := client₁.2.mem.shared }, []⟩
    let server₂ := (handleReqSyncConnection (samplePlatform (bytes "b")) 0 .storage).exec
      readySocket ⟨clientStream (acknowledgement sampleText),
        { sampleProcess ∅ with shared := server₁.2.mem.shared }, []⟩
    (client₂.2.mem.shared = client₁.2.mem.shared ∧ Silent (bytes "A") client₂.2.trace) ∧
      server₂.2.mem.shared = server₁.2.mem.shared ∧ Silent (bytes "A") server₂.2.trace := by
  intro client₁ server₁ client₂ server₂
  have hsecond : CompleteSession (fun _ => false = false) client₂ server₂ :=
    completeSession_readySocket (by rfl)
      [.registered 1, .messageOut (bytes "A") sampleText, .messageIn (bytes "A") sampleText,
        .merged (bytes "A") 0, .bubbled .ioError]
      [.messageIn (bytes "A") sampleText, .merged (bytes "A") 0,
        .messageOut (bytes "A") sampleText, .bubbled .ioError]
      (by decide +kernel) (by decide +kernel) (by simp) (by simp) ⟨bytes "A", 0, by simp⟩
  exact repeated_session_silent (samplePlatform (bytes "a")) (samplePlatform (bytes "b"))
    readySocket readySocket readySocket readySocket _ _ _ _ (sampleProcess sampleSlice)
    (sampleProcess ∅) _ _ 0 0 (bytes "A") [] [] false sampleSlice ∅
    ⟨by decide +kernel, by decide +kernel⟩ (by decide +kernel)
    ⟨by decide +kernel, by decide +kernel⟩ (by decide +kernel) rfl
    ⟨by decide +kernel, by decide +kernel, by decide +kernel⟩ sampleSession_complete rfl rfl hsecond

end SharedStateAsync
