/-
The command line's `sync` (`app/shared_state_cli.cc`).

A process that starts without entries runs one session after the other: with the daemon of
its own host, with the peers, and with the daemon again. A session with a peer may fail,
and then leaves the process what it had. What was collected never has a lower TTL than
what the daemon had, so the last session brings all of it home.

* `ttlAt`, `maxTtl`: the TTL of a key in a state, and the highest one in several;
* `ttlAt_exchange`: the TTL after a session, for a key this host is not the author of;
* `mergeState_eq_slice`: a loopback merge of a slice that covers the state;
* `SharedStateCli.sync`: the command;
* `Node`, `SessionSucceeds`, `SessionFails`: one session of the command;
* `SyncRun`: the sessions one after the other;
* `sync_brings_home`: what the daemon has in the end.
-/
import SharedStateAsync.Config.Reload
import SharedStateAsync.Session.Agreement

namespace SharedStateAsync

open Coro ByteOrder

variable {D : Type}

/-! ### TTLs of a key -/

/-- The TTL of a key, if there is one. -/
def ttlAt (tState : StateMap D) (k : StateKey) : WithBot ℤ :=
  tState[k]?.elim ⊥ fun e => (e.mTtl : WithBot ℤ)

/-- The highest TTL of a key in several states. -/
def maxTtl (states : List (StateMap D)) (k : StateKey) : WithBot ℤ :=
  (states.map fun tState => ttlAt tState k).foldr max ⊥

/-- No copy of the key is authored by the host. -/
def Foreign (host : StdString) (tState : StateMap D) (k : StateKey) : Prop :=
  ∀ e, tState[k]? = some e → e.mAuthor ≠ host

section Ttl

variable {h : StdString} {r : Bool} {tState stateSlice : StateMap D} {k : StateKey}

lemma ttlAt_of_none (hk : tState[k]? = none) : ttlAt tState k = ⊥ := by
  rw [ttlAt, hk, Option.elim_none]

lemma ttlAt_of_some {e : StateEntry D} (hk : tState[k]? = some e) : ttlAt tState k = e.mTtl := by
  rw [ttlAt, hk, Option.elim_some]

variable [BEq D]

lemma Foreign.mergeState (hstate : Foreign h tState k) (hslice : Foreign h stateSlice k)
    (host : StdString) (r : Bool) : Foreign h (mergeState host r tState stateSlice) k := by
  intro e he
  rcases mergeState_eq_some he with he | he
  · exact hstate e he
  · exact hslice e he

/-- A merge lowers no TTL, -/
lemma ttlAt_le_mergeState (h : StdString) (r : Bool) (tState stateSlice : StateMap D)
    (k : StateKey) : ttlAt tState k ≤ ttlAt (mergeState h r tState stateSlice) k := by
  cases hslice : stateSlice[k]? with
  | none => rw [ttlAt, ttlAt, mergeState_getElem?_of_none hslice]
  | some e =>
      have hmerged : (mergeState h r tState stateSlice)[k]? = some (resolve h r tState[k]? e) :=
        mergeState_getElem?_of_some hslice
      cases hstate : tState[k]? with
      | none =>
          rw [ttlAt_of_none hstate]
          exact bot_le
      | some a =>
          rw [ttlAt_of_some hstate, ttlAt_of_some hmerged, WithBot.coe_le_coe, hstate]
          exact le_mTtl_resolve h r a e

/-- and raises none over the higher one. -/
lemma ttlAt_mergeState_le (h : StdString) (r : Bool) (tState stateSlice : StateMap D)
    (k : StateKey) :
    ttlAt (mergeState h r tState stateSlice) k ≤ max (ttlAt tState k) (ttlAt stateSlice k) := by
  cases hslice : stateSlice[k]? with
  | none =>
      rw [ttlAt, mergeState_getElem?_of_none hslice]
      exact le_max_left _ _
  | some e =>
      have hmerged : (mergeState h r tState stateSlice)[k]? = some (resolve h r tState[k]? e) :=
        mergeState_getElem?_of_some hslice
      rw [ttlAt_of_some hmerged, ttlAt_of_some hslice]
      cases hstate : tState[k]? with
      | none => exact le_max_right _ _
      | some a =>
          rw [ttlAt_of_some hstate, ← WithBot.coe_max, WithBot.coe_le_coe]
          exact mTtl_resolve_le h r a e

/-- The TTL after a merge, of a key this host is not the author of. -/
lemma ttlAt_mergeState (hfree : Foreign h tState k) (r : Bool) (stateSlice : StateMap D) :
    ttlAt (mergeState h r tState stateSlice) k = max (ttlAt tState k) (ttlAt stateSlice k) := by
  cases hslice : stateSlice[k]? with
  | none =>
      rw [ttlAt, mergeState_getElem?_of_none hslice, ttlAt_of_none hslice]
      exact (max_eq_left bot_le).symm
  | some e =>
      have hmerged : (mergeState h r tState stateSlice)[k]? = some (resolve h r tState[k]? e) :=
        mergeState_getElem?_of_some hslice
      rw [ttlAt_of_some hmerged, ttlAt_of_some hslice]
      cases hstate : tState[k]? with
      | none =>
          rw [ttlAt_of_none hstate]
          exact (max_eq_right bot_le).symm
      | some a =>
          rw [ttlAt_of_some hstate, ← WithBot.coe_max, WithBot.coe_inj]
          exact mTtl_resolve_of_unprotected fun hc => hfree a hstate hc.2

/-- **The TTL after a session**, of a key this host is not the author of: the higher one
of the two sides, also where the other side protects its own copy. -/
theorem ttlAt_exchange (hfree : Foreign h tState k) (b : StdString) (rA rB : Bool)
    (stateB : StateMap D) :
    ttlAt (mergeState h rA tState (mergeState b rB stateB tState)) k
      = max (ttlAt tState k) (ttlAt stateB k) := by
  have hle := ttlAt_mergeState_le b rB stateB tState k
  have hge := ttlAt_le_mergeState b rB stateB tState k
  rw [ttlAt_mergeState hfree]
  refine le_antisymm (max_le (le_max_left _ _) ?_) (max_le_max_left _ hge)
  rw [max_comm]
  exact hle

/-- **A loopback merge** of a slice that covers the state, with no lower TTL anywhere,
leaves the slice. -/
theorem mergeState_eq_slice (h : StdString)
    (hcover : ∀ k, ttlAt tState k ≤ ttlAt stateSlice k) :
    mergeState h false tState stateSlice = stateSlice := by
  refine Std.ExtTreeMap.ext_getElem? fun k => ?_
  have hk := hcover k
  cases hslice : stateSlice[k]? with
  | none =>
      rw [mergeState_getElem?_of_none hslice]
      cases hstate : tState[k]? with
      | none => rfl
      | some a =>
          rw [ttlAt_of_none hslice, ttlAt_of_some hstate, le_bot_iff] at hk
          exact absurd hk (WithBot.coe_ne_bot)
  | some e =>
      rw [mergeState_getElem?_of_some hslice]
      cases hstate : tState[k]? with
      | none => rw [resolve_none]
      | some a =>
          rw [ttlAt_of_some hstate, ttlAt_of_some hslice, WithBot.coe_le_coe] at hk
          rw [resolve_loopback hk]

/-- A merge of nothing. -/
lemma mergeState_empty_slice (h : StdString) (r : Bool) (tState : StateMap D) :
    mergeState h r tState ∅ = tState :=
  mergeState_eq_self_iff.mpr fun k e he => absurd he (by simp)

/-- A merge into nothing. -/
lemma mergeState_empty_state (h : StdString) (r : Bool) (stateSlice : StateMap D) :
    mergeState h r ∅ stateSlice = stateSlice := by
  refine Std.ExtTreeMap.ext_getElem? fun k => ?_
  cases hslice : stateSlice[k]? with
  | none =>
      rw [mergeState_getElem?_of_none hslice]
      exact Std.ExtTreeMap.getElem?_empty
  | some e =>
      rw [mergeState_getElem?_of_some hslice, Std.ExtTreeMap.getElem?_empty, resolve_none]

end Ttl

/-! ### The command -/

section Command

variable [BEq D]

/-- The loop of `SharedStateCli::sync`. Every session has an error variable of its own; the
exit status it is collected in is left out. -/
def syncSessions (P : Platform D) (dataTypeName : StdString) : List SockAddr → Io D Unit
  | [] => pure ()
  | peerAddress :: peerAddresses => do
      let _peerSynced ← syncWithPeer P dataTypeName peerAddress .storage
      syncSessions P dataTypeName peerAddresses

/-- The list of peers in `SharedStateCli::sync`: the local instance, the peers given or else
discovered, and the local instance again; nothing when the discovery fails. -/
def syncAddresses (localInstanceAddr : SockAddr) (discovered : Option (List SockAddr))
    (pPeerAddresses : List SockAddr) : Option (List SockAddr) :=
  let peers := if pPeerAddresses.isEmpty then discovered else some pPeerAddresses
  peers.map fun peerAddresses => localInstanceAddr :: peerAddresses ++ [localInstanceAddr]

/-- `SharedStateCli::sync`. Without peer addresses on the command line it asks
`getCandidatesNeighbours`. -/
def SharedStateCli.sync (P : Platform D) (dataTypeName : StdString)
    (localInstanceAddr : SockAddr) (discovered : Option (List SockAddr))
    (pPeerAddresses : List SockAddr) : Io D Unit :=
  match syncAddresses localInstanceAddr discovered pPeerAddresses with
  | none => .exit
  | some peerAddresses => do
      syncSessions P dataTypeName peerAddresses
      .exit

end Command

/-! ### Its sessions -/

/-- A process that answers a session: its machine, the environment it runs in, what it holds
when the client connects, on which socket, and whether it takes the client for local. -/
structure Node (D : Type) where
  platform : Platform D
  σ : Type
  env : Env SysCall Ans (Process D) σ
  start : σ
  mem : Process D
  pSocket : ObjId
  isLocal : Bool

/-- The entries a process has of a type. -/
def entriesOf (m : Process D) (t : StdString) : StateMap D := m.shared.mStates[t]?.getD ∅

section Sessions

variable [BEq D] {σ : Type}

/-- The run of the session on the side of the node. -/
def Node.server (n : Node D) : Option Bool × World SysCall Ans (Process D) Mark n.σ :=
  (handleReqSyncConnection n.platform n.pSocket .storage).exec n.env ⟨n.start, n.mem, []⟩

/-- What the node sends: its state with the client's state merged into it. -/
def Node.answer (n : Node D) (t : StdString) (clientState : StateMap D) : StateMap D :=
  mergeState n.platform.host.authorPlaceOlder (!n.isLocal) (entriesOf n.mem t) clientState

/-- The run of one session of the command. -/
abbrev clientRun (P : Platform D) (env : Env SysCall Ans (Process D) σ) (t : StdString) (start : σ)
    (m : Process D) (peerAddr : SockAddr) : Option Bool × World SysCall Ans (Process D) Mark σ :=
  (syncWithPeer P t peerAddr .storage).exec env ⟨start, m, []⟩

/-- A session that succeeds: it is complete, between processes that have the type, and what
travels is read as it was written. -/
structure SessionSucceeds (P : Platform D) (env : Env SysCall Ans (Process D) σ) (t : StdString)
    (start : σ) (m : Process D) (peerAddr : SockAddr) (n : Node D) : Prop where
  complete : CompleteSession (fun addr => n.platform.host.isLoopbackNet addr = n.isLocal)
    (clientRun P env t start m peerAddr) n.server
  registered : n.mem.shared.Registered t
  request : n.platform.toStateSlice (P.fromStateSlice (entriesOf m t)) = entriesOf m t
  answer : P.toStateSlice (n.platform.fromStateSlice (n.answer t (entriesOf m t)))
    = n.answer t (entriesOf m t)

/-- A session that fails before the client merges. -/
structure SessionFails (P : Platform D) (env : Env SysCall Ans (Process D) σ) (t : StdString)
    (start : σ)
    (m : Process D) (peerAddr : SockAddr) : Prop where
  returns : (clientRun P env t start m peerAddr).1 ≠ none
  alone : Meets (Alone fun _ => True) [] (clientRun P env t start m peerAddr).2.trace
  unmerged : ∀ typeName changes,
    .merged typeName changes ∉ marks (clientRun P env t start m peerAddr).2.trace

/-- The sessions of the command, each with its address and with the node it succeeds with, if
it does. -/
inductive SyncRun (P : Platform D) (env : Env SysCall Ans (Process D) σ) (t : StdString) :
    σ → Process D → List (SockAddr × Option (Node D)) → σ → Process D → Prop where
  | nil (start : σ) (m : Process D) : SyncRun P env t start m [] start m
  | failed {start start' : σ} {m m' : Process D} {peerAddr : SockAddr}
      {rest : List (SockAddr × Option (Node D))} (h : SessionFails P env t start m peerAddr)
      (hrest : SyncRun P env t (clientRun P env t start m peerAddr).2.env
        (clientRun P env t start m peerAddr).2.mem rest start' m') :
      SyncRun P env t start m ((peerAddr, none) :: rest) start' m'
  | succeeded {start start' : σ} {m m' : Process D} {peerAddr : SockAddr} {n : Node D}
      {rest : List (SockAddr × Option (Node D))} (h : SessionSucceeds P env t start m peerAddr n)
      (hrest : SyncRun P env t (clientRun P env t start m peerAddr).2.env
        (clientRun P env t start m peerAddr).2.mem rest start' m') :
      SyncRun P env t start m ((peerAddr, some n) :: rest) start' m'

variable {P : Platform D} {env : Env SysCall Ans (Process D) σ} {t : StdString} {start start' : σ}
  {m m' : Process D} {peerAddr : SockAddr} {n : Node D}

omit [BEq D] in
lemma entriesOf_of_registered (hreg : m.shared.Registered t) :
    m.shared.mStates[t]? = some (entriesOf m t) := by
  obtain ⟨tState, hstate⟩ := Option.isSome_iff_exists.mp hreg.1
  rw [entriesOf, hstate, Option.getD_some]

omit [BEq D] in
lemma entriesOf_setState {s : SharedState D} {tState : StateMap D}
    (h : m.shared = s.setState t tState) : entriesOf m t = tState := by
  rw [entriesOf, h, SharedState.setState_getElem?_self, Option.getD_some]

/-- What a session that succeeds leaves on both sides. -/
lemma SessionSucceeds.exchanged (hreg : m.shared.Registered t)
    (h : SessionSucceeds P env t start m peerAddr n) :
    n.server.2.mem.shared = n.mem.shared.setState t (n.answer t (entriesOf m t)) ∧
      (clientRun P env t start m peerAddr).2.mem.shared = m.shared.setState t
        (mergeState P.host.authorPlaceOlder (!P.host.isLoopbackNet peerAddr) (entriesOf m t)
          (n.answer t (entriesOf m t))) := by
  have hexchanged := h.complete.exchanged hreg (entriesOf_of_registered hreg) h.registered
    (entriesOf_of_registered h.registered) h.request h.answer
  exact ⟨hexchanged.server_shared, hexchanged.client_shared⟩

/-- The run has merged a slice. -/
def HasMerged (t : Trace D) : Prop := ∃ typeName changes, .merged typeName changes ∈ marks t

omit [BEq D] in
lemma HasMerged.append {u : Trace D} (h : HasMerged u) (v : Trace D) : HasMerged (u ++ v) := by
  obtain ⟨typeName, changes, hmem⟩ := h
  refine ⟨typeName, changes, ?_⟩
  rw [marks_append]
  exact List.mem_append_left _ hmem

omit [BEq D] in
lemma hasMerged_concat (u : Trace D) (typeName : StdString) (changes : ℤ) :
    HasMerged (u ++ [.marked (.merged typeName changes)]) := by
  refine ⟨typeName, changes, ?_⟩
  rw [marks_append]
  exact List.mem_append_right _ (List.mem_singleton_self _)

omit [BEq D] in
lemma framed_shared_eq (far : SockAddr → Prop) (s : SharedState D) :
    Framed (Alone far) AnyExit fun m _ => m.shared = s where
  called := fun _ _ _ _ h _ => h
  resumed := fun _ _ _ h hm => hm.trans h
  marked := fun _ _ _ _ h => h
  written := fun _ _ _ hm h => hm.trans h
  exited := fun _ _ _ => trivial

omit [BEq D] in
lemma framed_hasMerged (far : SockAddr → Prop) :
    Framed (D := D) (Alone far) AnyExit fun _ t => HasMerged t :=
  framed_of_trace (fun _ i _ h => h.append [i]) fun _ _ => trivial

/-- A client that is alone changes its store by a merge only. -/
lemma syncWithPeer_shared (far : SockAddr → Prop) {s : SharedState D} {u : Trace D}
    (hm : m.shared = s) :
    wp (Alone far) AnyExit (syncWithPeer P t peerAddr .storage)
      (fun _ m' u' => m'.shared = s ∨ HasMerged u') m u := by
  let phases : ClientPhases P t peerAddr .storage (Alone far) AnyExit
      (fun m' u' => m'.shared = s ∨ HasMerged u') := {
    idle := fun m _ => m.shared = s
    asked := fun m _ => m.shared = s
    refused := fun m _ => m.shared = s
    merged := fun _ _ _ u => HasMerged u
    notified := fun _ _ u => HasMerged u
    framed_idle := framed_shared_eq far s
    framed_asked := framed_shared_eq far s
    framed_refused := framed_shared_eq far s
    framed_merged := fun _ _ => framed_hasMerged far
    framed_notified := fun _ => framed_hasMerged far
    request := fun _ _ h => h
    merge := by
      intro typeName data m u tick h _
      refine wp_mergeSlice (fun changes shared _ => ?_) nofun (fun c _ => ?_) fun _ changes => ?_
      · exact Or.inr (hasMerged_concat _ _ _)
      · exact Or.inl ⟨rfl, h⟩
      · exact Or.inr (hasMerged_concat _ _ _)
    notify := fun _ _ _ _ h _ _ => h.append _
    done_idle := fun _ _ h => Or.inl h
    done_asked := fun _ _ h => Or.inl h
    done_refused := fun _ _ h => Or.inl h
    done_merged := fun _ _ _ _ h => Or.inr h
    done_notified := fun _ _ _ h => Or.inr h }
  exact phases.wp_syncWithPeer hm

/-- A session that fails leaves the client what it had. -/
lemma SessionFails.shared_eq (h : SessionFails P env t start m peerAddr) :
    (clientRun P env t start m peerAddr).2.mem.shared = m.shared := by
  obtain ⟨-, -, hshared | ⟨typeName, changes, hmem⟩⟩ :=
    exec_returns (syncWithPeer_shared _ rfl) h.alone h.returns
  · exact hshared
  · exact absurd hmem (h.unmerged typeName changes)

/-! ### What is collected -/

/-- The nodes whose sessions succeed. -/
def reached (sessions : List (SockAddr × Option (Node D))) : List (Node D) :=
  sessions.filterMap Prod.snd

/-- What a run of sessions keeps and collects, from what the process had to what it has:
no TTL is lower, and for the keys no copy of which is authored by the host, the TTL is the
highest there was. -/
structure Collected (host t : StdString) (before after : StateMap D) (nodes : List (Node D)) :
    Prop where
  covers : ∀ k, ttlAt before k ≤ ttlAt after k
  foreign : ∀ k, Foreign host before k → (∀ n ∈ nodes, Foreign host (entriesOf n.mem t) k) →
    Foreign host after k
  ttl_eq : ∀ k, Foreign host before k → (∀ n ∈ nodes, Foreign host (entriesOf n.mem t) k) →
    ttlAt after k = max (ttlAt before k) (maxTtl (nodes.map fun n => entriesOf n.mem t) k)

omit [BEq D] in
lemma collected_nil (host t : StdString) (tState : StateMap D) :
    Collected host t tState tState [] where
  covers := fun _ => le_rfl
  foreign := fun _ h _ => h
  ttl_eq := fun _ _ _ => (max_eq_left bot_le).symm

/-- One session that succeeds, before those that follow. -/
lemma Collected.cons {host : StdString} {before after : StateMap D} {nodes : List (Node D)}
    (r : Bool)
    (h : Collected host t (mergeState host r before (n.answer t before)) after nodes) :
    Collected host t before after (n :: nodes) := by
  have hmerged : ∀ k, Foreign host before k → Foreign host (entriesOf n.mem t) k →
      Foreign host (mergeState host r before (n.answer t before)) k :=
    fun k hbefore hn => hbefore.mergeState (hn.mergeState hbefore _ _) _ _
  refine ⟨fun k => ?_, fun k hbefore hnodes => ?_, fun k hbefore hnodes => ?_⟩
  · exact (ttlAt_le_mergeState host r before _ k).trans (h.covers k)
  · rw [List.forall_mem_cons] at hnodes
    exact h.foreign k (hmerged k hbefore hnodes.1) hnodes.2
  · rw [List.forall_mem_cons] at hnodes
    rw [h.ttl_eq k (hmerged k hbefore hnodes.1) hnodes.2, Node.answer, ttlAt_exchange hbefore,
      max_assoc]
    rfl

/-- **The sessions of the command**, by induction on their list: what the process holds
comes from one session after the other. -/
theorem SyncRun.collected {sessions : List (SockAddr × Option (Node D))}
    (hreg : m.shared.Registered t) (h : SyncRun P env t start m sessions start' m') :
    m'.shared.Registered t ∧
      Collected P.host.authorPlaceOlder t (entriesOf m t) (entriesOf m' t) (reached sessions) := by
  induction h with
  | nil start m => exact ⟨hreg, collected_nil _ _ _⟩
  | failed hfails hrest ih =>
      have hshared := hfails.shared_eq
      obtain ⟨hreg', hcollected⟩ := ih (hshared ▸ hreg)
      refine ⟨hreg', ?_⟩
      rw [entriesOf, hshared] at hcollected
      exact hcollected
  | succeeded hsucceeds hrest ih =>
      obtain ⟨-, hshared⟩ := hsucceeds.exchanged hreg
      obtain ⟨hreg', hcollected⟩ := ih (hshared ▸ SharedState.setState_registered _ hreg)
      rw [entriesOf_setState hshared] at hcollected
      exact ⟨hreg', hcollected.cons _⟩

/-- The run of the loop goes through these sessions. -/
lemma SyncRun.exec_syncSessions {sessions : List (SockAddr × Option (Node D))}
    (h : SyncRun P env t start m sessions start' m') (u : Trace D) :
    ∃ v, (syncSessions P t (sessions.map Prod.fst)).exec env ⟨start, m, u⟩
      = (some (), ⟨start', m', v⟩) := by
  induction h generalizing u with
  | nil start m => exact ⟨u, rfl⟩
  | failed hfails hrest ih =>
      obtain ⟨_, hreturns⟩ := Option.ne_none_iff_exists'.mp hfails.returns
      rw [List.map_cons, syncSessions, exec_bind, ← List.append_nil u, exec_append, hreturns]
      exact ih _
  | succeeded hsucceeds hrest ih =>
      obtain ⟨_, hreturns⟩ := Option.ne_none_iff_exists'.mp hsucceeds.complete.clientReturns
      rw [List.map_cons, syncSessions, exec_bind, ← List.append_nil u, exec_append, hreturns]
      exact ih _

/-- One more session. -/
lemma SyncRun.concat {sessions : List (SockAddr × Option (Node D))}
    (h : SyncRun P env t start m sessions start' m')
    (hlast : SessionSucceeds P env t start' m' peerAddr n) :
    SyncRun P env t start m (sessions ++ [(peerAddr, some n)])
      (clientRun P env t start' m' peerAddr).2.env
      (clientRun P env t start' m' peerAddr).2.mem := by
  induction h with
  | nil start m => exact .succeeded hlast (.nil _ _)
  | failed hfails hrest ih => exact .failed hfails (ih hlast)
  | succeeded hsucceeds hrest ih => exact .succeeded hsucceeds (ih hlast)

/-- The command goes through the sessions, and then through the last one. -/
lemma SyncRun.exec_sync {localInstanceAddr : SockAddr} {discovered : Option (List SockAddr)}
    {pPeerAddresses : List SockAddr} {daemon : Node D}
    {peers : List (SockAddr × Option (Node D))}
    (hpeers : (if pPeerAddresses.isEmpty then discovered else some pPeerAddresses)
      = some (peers.map Prod.fst))
    (h : SyncRun P env t start m ((localInstanceAddr, some daemon) :: peers) start' m')
    (hlast : SessionSucceeds P env t start' m' localInstanceAddr n) :
    ((SharedStateCli.sync P t localInstanceAddr discovered pPeerAddresses).exec env
      ⟨start, m, []⟩).2.mem = (clientRun P env t start' m' localInstanceAddr).2.mem := by
  obtain ⟨v, hexec⟩ := (h.concat hlast).exec_syncSessions []
  have haddrs : syncAddresses localInstanceAddr discovered pPeerAddresses
      = some (((localInstanceAddr, some daemon) :: peers ++
          [(localInstanceAddr, some n)]).map Prod.fst) := by
    rw [syncAddresses, hpeers]
    simp
  rw [SharedStateCli.sync, haddrs]
  simp only
  rw [exec_bind, hexec]
  rfl

/-- The first session of an empty process brings what the node has, and leaves the node as it
was. -/
lemma SyncRun.covers_first {sessions : List (SockAddr × Option (Node D))}
    (hreg : m.shared.Registered t) (hempty : entriesOf m t = ∅)
    (h : SyncRun P env t start m ((peerAddr, some n) :: sessions) start' m') :
    entriesOf n.server.2.mem t = entriesOf n.mem t ∧
      ∀ k, ttlAt (entriesOf n.mem t) k ≤ ttlAt (entriesOf m' t) k := by
  cases h with
  | succeeded hfirst hrest =>
      obtain ⟨hserver, hshared⟩ := hfirst.exchanged hreg
      obtain ⟨-, hrest'⟩ := hrest.collected (hshared ▸ SharedState.setState_registered _ hreg)
      refine ⟨?_, fun k => ?_⟩
      · rw [entriesOf_setState hserver, hempty, Node.answer, mergeState_empty_slice]
      · have hk := hrest'.covers k
        rwa [entriesOf_setState hshared, hempty, mergeState_empty_state, Node.answer,
          mergeState_empty_slice] at hk

/-- **The command brings home what it collected.** From the start of its process on, with
any environment: if the first and the last session succeed, both with the daemon, whose
entries of the type do not change in between, then those sessions are the run of the
command, the daemon ends with what the process had collected before the last session, and
there every key no copy of which is authored by this host has the highest TTL that the
daemon or a peer it reached had. -/
theorem sync_brings_home (P : Platform D) (env : Env SysCall Ans (Process D) σ) (t : StdString)
    (start start' : σ) (m m' : Process D) (mTypeConf : OrdMap StdString DataTypeConf)
    (localInstanceAddr : SockAddr) (discovered : Option (List SockAddr))
    (pPeerAddresses : List SockAddr) (daemon daemon' : Node D)
    (peers : List (SockAddr × Option (Node D))) (ht : mTypeConf[t]?.isSome)
    (hstart : m.shared = (⟨∅, ∅, false⟩ : SharedState D).reloaded mTypeConf)
    (hpeers : (if pPeerAddresses.isEmpty then discovered else some pPeerAddresses)
      = some (peers.map Prod.fst))
    (hrun : SyncRun P env t start m ((localInstanceAddr, some daemon) :: peers) start' m')
    (hlast : SessionSucceeds P env t start' m' localInstanceAddr daemon')
    (hlocal : daemon'.isLocal = true)
    (hsame : entriesOf daemon'.mem t = entriesOf daemon.server.2.mem t) :
    ((SharedStateCli.sync P t localInstanceAddr discovered pPeerAddresses).exec env
        ⟨start, m, []⟩).2.mem = (clientRun P env t start' m' localInstanceAddr).2.mem ∧
      daemon'.server.2.mem.shared.mStates[t]? = some (entriesOf m' t) ∧
      ∀ k, (∀ n ∈ daemon :: reached peers,
          Foreign P.host.authorPlaceOlder (entriesOf n.mem t) k) →
        ttlAt (entriesOf daemon'.server.2.mem t) k
          = maxTtl ((daemon :: reached peers).map fun n => entriesOf n.mem t) k := by
  have hempty : entriesOf m t = ∅ := by
    obtain ⟨conf, hconf⟩ := Option.isSome_iff_exists.mp ht
    rw [entriesOf, hstart, reloaded_getElem?, hconf, Option.map_some, Option.getD_some]
    rfl
  have hreg : m.shared.Registered t := by
    rw [hstart]
    refine ⟨?_, ht⟩
    rw [reloaded_getElem?, Option.isSome_map]
    exact ht
  obtain ⟨hreg', hcollected⟩ := hrun.collected hreg
  rw [hempty] at hcollected
  -- the daemon has nothing to merge in the first session
  obtain ⟨hkept, hcovers⟩ := hrun.covers_first hreg hempty
  have hcover : ∀ k, ttlAt (entriesOf daemon'.mem t) k ≤ ttlAt (entriesOf m' t) k := by
    rw [hsame, hkept]
    exact hcovers
  have hhome : daemon'.server.2.mem.shared = daemon'.mem.shared.setState t (entriesOf m' t) := by
    rw [(hlast.exchanged hreg').1, Node.answer, hlocal, Bool.not_true, mergeState_eq_slice _ hcover]
  refine ⟨hrun.exec_sync hpeers hlast, ?_, fun k hforeign => ?_⟩
  · rw [hhome, SharedState.setState_getElem?_self]
  · rw [entriesOf_setState hhome, hcollected.ttl_eq k (fun e he => absurd he (by simp)) hforeign,
      ttlAt_of_none (Std.ExtTreeMap.getElem?_empty)]
    exact max_eq_right bot_le

end Sessions

/-! ### A sample -/

/-- The configuration of the one type. -/
def collectConf : OrdMap StdString DataTypeConf :=
  (∅ : OrdMap StdString DataTypeConf).insert (bytes "A")
    ⟨bytes "A", bytes "community", 30, 300⟩

/-- The process of the command, when it starts. -/
def collectProcess : Process ℕ :=
  { shared := (⟨∅, ∅, false⟩ : SharedState ℕ).reloaded collectConf }

/-- A host that takes the empty address for its own. -/
def collectPlatform : Platform ℕ :=
  { samplePlatform (bytes "c") with host := ⟨bytes "c", fun addr => addr.isEmpty⟩ }

/-- What the daemon sends: the whole of both sessions, and between them the handshake of a
peer of another version. -/
def collectStream : StdString :=
  serverStream emptyText ++ [0, 0, 0, 2] ++ serverStream sampleText

/-- The daemon in the first session, which has the entry that is collected. -/
def firstDaemon : Node ℕ where
  platform := collectPlatform
  σ := StdString
  env := readySocket
  start := toBytes WIRE_PROTO_VERSION ++ [1, 0, 0, 0] ++
    (NetworkMessage.mk (bytes "A") emptyText).frame ++ acknowledgement sampleText
  mem := sampleProcess sampleSlice
  pSocket := 0
  isLocal := true

/-- The daemon in the last session. -/
def lastDaemon : Node ℕ where
  platform := collectPlatform
  σ := StdString
  env := readySocket
  start := clientStream (acknowledgement sampleText)
  mem := sampleProcess sampleSlice
  pSocket := 0
  isLocal := true

/-- The first session of the sample. -/
abbrev collectFirst : Option Bool × World SysCall Ans (Process ℕ) Mark StdString :=
  clientRun collectPlatform readySocket (bytes "A") collectStream collectProcess []

/-- The session with the peer. -/
abbrev collectSecond : Option Bool × World SysCall Ans (Process ℕ) Mark StdString :=
  clientRun collectPlatform readySocket (bytes "A") collectFirst.2.env collectFirst.2.mem [10]

lemma collectFirst_succeeds : SessionSucceeds collectPlatform readySocket (bytes "A") collectStream
    collectProcess [] firstDaemon where
  complete := completeSession_readySocket (by rfl)
    [.registered 0, .messageOut (bytes "A") emptyText, .messageIn (bytes "A") sampleText,
      .merged (bytes "A") 1, .bubbled .ioError]
    [.messageIn (bytes "A") emptyText, .merged (bytes "A") 0,
      .messageOut (bytes "A") sampleText, .bubbled .ioError]
    (by decide +kernel) (by decide +kernel) (by simp) (by simp) ⟨bytes "A", 1, by simp⟩
  registered := ⟨by decide +kernel, by decide +kernel⟩
  request := by decide +kernel
  answer := by decide +kernel

lemma collectSecond_fails : SessionFails collectPlatform readySocket (bytes "A")
    collectFirst.2.env collectFirst.2.mem [10] where
  returns := by decide +kernel
  alone := readySocket_alone trivial _ _ _
  unmerged := by
    have hmarks : marks collectSecond.2.trace = [.registered 1, .bubbled .protocolError] := by
      decide +kernel
    intro typeName changes
    rw [hmarks]
    simp

lemma collectLast_succeeds : SessionSucceeds collectPlatform readySocket (bytes "A")
    collectSecond.2.env collectSecond.2.mem [] lastDaemon where
  complete := completeSession_readySocket (by rfl)
    [.registered 2, .messageOut (bytes "A") sampleText, .messageIn (bytes "A") sampleText,
      .merged (bytes "A") 0, .bubbled .ioError]
    [.messageIn (bytes "A") sampleText, .merged (bytes "A") 0,
      .messageOut (bytes "A") sampleText, .bubbled .ioError]
    (by decide +kernel) (by decide +kernel) (by simp) (by simp) ⟨bytes "A", 0, by simp⟩
  registered := ⟨by decide +kernel, by decide +kernel⟩
  request := by decide +kernel
  answer := by decide +kernel

/-- The daemon's entry is collected, a peer of another version refuses, and the daemon gets
its entry back. -/
theorem sync_brings_home_sample :
    lastDaemon.server.2.mem.shared.mStates[bytes "A"]?
        = some (entriesOf collectSecond.2.mem (bytes "A")) ∧
      ttlAt (entriesOf lastDaemon.server.2.mem (bytes "A")) (bytes "k")
        = maxTtl [entriesOf firstDaemon.mem (bytes "A")] (bytes "k") := by
  have hsync := sync_brings_home collectPlatform readySocket (bytes "A") collectStream
    collectSecond.2.env collectProcess collectSecond.2.mem collectConf [] none [[10]] firstDaemon
    lastDaemon [([10], none)] (by decide +kernel) rfl rfl
    (.succeeded collectFirst_succeeds (.failed collectSecond_fails (.nil _ _)))
    collectLast_succeeds rfl (by decide +kernel)
  refine ⟨hsync.2.1, hsync.2.2 (bytes "k") fun n hn e he => ?_⟩
  obtain rfl : n = firstDaemon := List.mem_singleton.mp hn
  have hentry : (entriesOf firstDaemon.mem (bytes "A"))[bytes "k"]? = some ⟨bytes "a", 9, 1⟩ := by
    decide +kernel
  obtain rfl := Option.some.inj (hentry.symm.trans he)
  decide +kernel

end SharedStateAsync
