/-
A command line insert is never lost at the daemon of its own host.

`SharedState::merge` may reject an entry of the slice, also of a slice that
comes over loopback, when the TTL it knows is higher. That no daemon knows a
higher TTL than an insert assigns is a matter of the whole network: it holds
because every node has the same configuration and nothing ever raises a TTL.

* `TtlBounded`: no entry that is stored or in flight has a TTL above the one an
  insert assigns, and the slices of inserts have exactly that one;
* `ttlBounded_run`: the invariant of every run from empty states;
* `insert_held_after_deliver`: the result.
-/
import SharedStateAsync.Gossip.Network

namespace SharedStateAsync

open Machine

variable {ι D : Type} [DecidableEq ι] [BEq D]

/-- No entry of the state has a TTL above `bound`. -/
def BoundedBy (bound : ℤ) (state : StateMap D) : Prop :=
  ∀ (k : StateKey) (e : StateEntry D), state[k]? = some e → e.mTtl ≤ bound

/-- No entry that is stored or in flight has a TTL above the one an insert
assigns. -/
structure TtlBounded (conf : DataTypeConf) (net : Network ι D) : Prop where
  store : ∀ n, BoundedBy conf.insertTtl (net.store n)
  sent : ∀ msg ∈ net.sent, BoundedBy conf.insertTtl msg.slice

variable {conf : DataTypeConf} {hostname : ι → StdString}

omit [DecidableEq ι] [BEq D] in
lemma ttlBounded_of_allEntries {net : Network ι D}
    (h : net.AllEntries fun _ e => e.mTtl ≤ conf.insertTtl) : TtlBounded conf net :=
  ⟨h.store, h.sent⟩

omit [BEq D] in
/-- Every entry the command line makes has the TTL an insert assigns. -/
lemma insertSlice_mTtl {h : StdString} {members : List (StdString × D)} {k : StateKey}
    {e : StateEntry D} (he : (insertSlice conf h members)[k]? = some e) :
    e.mTtl = conf.insertTtl := by
  rw [insertSlice_getElem?] at he
  obtain ⟨d, -, rfl⟩ := Option.map_eq_some_iff.mp he
  rfl

/-- The bound holds along every run from empty states: merges invent nothing,
bleaches only lower, and an insert assigns exactly the bound. -/
lemma ttlBounded_run (evs : List (Event ι D)) :
    TtlBounded conf (run (Network.step conf hostname) (Network.empty ι D) evs) := by
  refine ttlBounded_of_allEntries ?_
  induction evs using List.reverseRecOn with
  | nil => exact Network.allEntries_empty _
  | append_singleton evs ev ih =>
      rw [run_concat]
      refine ih.step ev (fun k e he => he) (fun k e times htimes _ he => ?_)
        fun n members _ k e he => (insertSlice_mTtl he).le
      simp only
      omega

/-- The message an insert sends is still there, as it was, whenever it is
delivered. -/
lemma sent_insert (conf : DataTypeConf) (hostname : ι → StdString) (pre later : List (Event ι D))
    (n : ι) (members : List (StdString × D)) :
    (run (Network.step conf hostname) (Network.empty ι D)
        (pre ++ [.insert n members] ++ later)).sent[
          (run (Network.step conf hostname) (Network.empty ι D) pre).sent.length]?
      = some (.cli n (insertSlice conf (hostname n) members)) := by
  have hsplit : run (Network.step conf hostname) (Network.empty ι D)
        (pre ++ [.insert n members] ++ later)
      = run (Network.step conf hostname)
          (run (Network.step conf hostname) (Network.empty ι D) (pre ++ [.insert n members]))
          later := by
    simp [run]
  rw [hsplit]
  obtain ⟨more, hmore⟩ := Network.sent_run conf hostname
    (run (Network.step conf hostname) (Network.empty ι D) (pre ++ [.insert n members])) later
  rw [← hmore, run_concat, Network.step, List.getElem?_append_left (by simp)]
  exact List.getElem?_concat_length

/-- **An insert is never lost at the local daemon.** In every run from empty
states of inserts, sessions whose legs are delayed, reordered, repeated or
lost, and bleaches, whenever the daemon of a host merges the slice of an insert
made there, it holds right afterwards, for every inserted key, the inserting
host as author, the inserted data and the TTL of an insert. -/
theorem insert_held_after_deliver (conf : DataTypeConf) (hostname : ι → StdString)
    (pre later : List (Event ι D)) (n : ι) (members : List (StdString × D))
    (k : StateKey) (d : D) (hk : insertedValue members k = some d) :
    let i := (run (Network.step conf hostname) (Network.empty ι D) pre).sent.length
    ((run (Network.step conf hostname) (Network.empty ι D)
        (pre ++ [.insert n members] ++ later ++ [.deliver n i])).store n)[k]?
      = some ⟨hostname n, conf.mBleachTTL + conf.mUpdateInterval + 1, d⟩ := by
  intro i
  have hmsg := sent_insert conf hostname pre later n members
  have hslice : (insertSlice conf (hostname n) members)[k]?
      = some ⟨hostname n, conf.insertTtl, d⟩ := by
    rw [insertSlice_getElem?, hk]
    rfl
  rw [run_concat, Network.step_deliver hmsg, Network.setStore_store_self, Network.receive,
    if_pos rfl, mergeState_getElem?_of_some hslice]
  cases hknown : ((run (Network.step conf hostname) (Network.empty ι D)
      (pre ++ [.insert n members] ++ later)).store n)[k]? with
  | none => rfl
  | some known =>
      -- over loopback the slice loses to a higher TTL only, and there is none
      have hle : known.mTtl ≤ conf.insertTtl := (ttlBounded_run _).store n k known hknown
      rw [resolve_loopback hle]
      rfl

/-- Two inserts on the same host whose slices arrive in the opposite order: the
one that is merged last is held. -/
theorem insert_held_after_deliver_late :
    insertedValue [([107], 7)] [107] = some 7 ∧
    ((run (Network.step ⟨[116], [], 30, 300⟩ fun _ : Unit => [97]) (Network.empty Unit ℕ)
        ([] ++ [.insert () [([107], 7)]] ++ [.insert () [([107], 8)], .deliver () 1]
          ++ [.deliver () 0])).store ())[([107] : StateKey)]?
      = some ⟨[97], 331, 7⟩ :=
  ⟨by decide, insert_held_after_deliver ⟨[116], [], 30, 300⟩ (fun _ : Unit => [97]) []
    [.insert () [([107], 8)], .deliver () 1] () [([107], 7)] [107] 7 (by decide)⟩

end SharedStateAsync
