/-
A network of nodes that gossip one data type.

A node is a daemon with its hostname and its entries of the type. What travels
is whole states: a sync session is a request leg, the client's snapshot, and a
response leg, the server's, and `SharedStateCli::insert` sends the entries it
made to the daemon of its own host over loopback. Sent messages stay in a list
for ever, so that a message may be delivered late, out of order, more than once
or never.

* `insertSlice`: the entries the command line makes of a JSON object;
* `Message`, `Network`, `Event`, `Network.step`: the network and its steps;
* `Network.sent_run`: what was sent stays available, as it was sent;
* `Network.step_store_cases`: what one step can do to the entries of a node;
* `Network.AllEntries`: a property of every entry that is stored or in flight,
  and what a step has to do to keep it.
-/
import SharedStateAsync.Lib.Machine
import SharedStateAsync.Store.Merge

namespace SharedStateAsync

open Machine

/-! ### The command line's slice -/

/-- `member.name.GetString()` as a `std::string`: up to the first zero byte. -/
def cString (name : StdString) : StdString := name.takeWhile (· ≠ 0)

/-- The TTL `SharedStateCli::insert` gives to the entries it makes. -/
def DataTypeConf.insertTtl (conf : DataTypeConf) : ℤ :=
  conf.mBleachTTL + conf.mUpdateInterval + 1

/-- The loop of `SharedStateCli::insert` over the members of the JSON object it
reads, on the empty state a fresh process has. -/
def insertSlice {D : Type} (conf : DataTypeConf) (authorPlaceOlder : StdString)
    (members : List (StdString × D)) : StateMap D :=
  members.foldl (fun tState member =>
      tState.insert (cString member.1) ⟨authorPlaceOlder, conf.insertTtl, member.2⟩)
    Std.ExtTreeMap.empty

/-- The value the members give to the key `k`: the last one of that name. -/
def insertedValue {D : Type} (members : List (StdString × D)) (k : StateKey) : Option D :=
  (members.reverse.find? fun member => cString member.1 == k).map Prod.snd

lemma insertSlice_getElem? {D : Type} (conf : DataTypeConf) (h : StdString)
    (members : List (StdString × D)) (k : StateKey) :
    (insertSlice conf h members)[k]?
      = (insertedValue members k).map fun d => ⟨h, conf.insertTtl, d⟩ := by
  induction members using List.reverseRecOn with
  | nil => simp [insertSlice, insertedValue]
  | append_singleton members member ih =>
      have hlast : insertSlice conf h (members ++ [member])
          = (insertSlice conf h members).insert (cString member.1)
              ⟨h, conf.insertTtl, member.2⟩ := by
        simp [insertSlice]
      rw [hlast, OrdMap.getElem?_insert_eq, ih]
      by_cases hk : cString member.1 = k
      · simp [insertedValue, hk]
      · simp [insertedValue, hk]

/-! ### Nodes and messages -/

/-- What travels: a snapshot of a node's state, or the slice of an insert on
the host of a node, which its daemon receives over loopback. -/
inductive Message (ι D : Type) where
  | snapshot (state : StateMap D)
  | cli (n : ι) (stateSlice : StateMap D)

/-- The slice a message carries. -/
def Message.slice {ι D : Type} : Message ι D → StateMap D
  | .snapshot state => state
  | .cli _ stateSlice => stateSlice

structure Network (ι D : Type) where
  store : ι → StateMap D
  sent : List (Message ι D)

inductive Event (ι D : Type) where
  /-- The command line on the host of `n` reads a JSON object and sends it. -/
  | insert (n : ι) (members : List (StdString × D))
  /-- `n` sends its state, as the request or the response of a session. -/
  | send (n : ι)
  /-- `n` merges the `i`-th message that was sent. -/
  | deliver (n : ι) (i : ℕ)
  | bleach (n : ι) (times : ℤ)

variable {ι D : Type} [DecidableEq ι] [BEq D]

namespace Network

/-- The network before anything is inserted. -/
def empty (ι D : Type) : Network ι D := ⟨fun _ => Std.ExtTreeMap.empty, []⟩

/-- The entries of `n` after it has merged a message: as remote data when it is
a snapshot of a node, as local data when it is the slice of an insert on its
own host. The slice of another host never reaches `n`. -/
def receive (hostname : ι → StdString) (n : ι) (state : StateMap D) :
    Message ι D → StateMap D
  | .snapshot slice => mergeState (hostname n) true state slice
  | .cli n' slice => if n' = n then mergeState (hostname n) false state slice else state

/-- Put `state` in place of the entries of `n`. -/
def setStore (net : Network ι D) (n : ι) (state : StateMap D) : Network ι D :=
  { net with store := Function.update net.store n state }

/-- One step of the network. -/
def step (conf : DataTypeConf) (hostname : ι → StdString) (net : Network ι D) :
    Event ι D → Network ι D
  | .insert n members =>
      { net with sent := net.sent ++ [.cli n (insertSlice conf (hostname n) members)] }
  | .send n => { net with sent := net.sent ++ [.snapshot (net.store n)] }
  | .deliver n i =>
      match net.sent[i]? with
      | none => net
      | some msg => net.setStore n (receive hostname n (net.store n) msg)
  | .bleach n times =>
      if times < 1 then net
      else net.setStore n (bleachState times (net.store n))

variable {conf : DataTypeConf} {hostname : ι → StdString} {net : Network ι D}

omit [BEq D] in
@[simp] lemma setStore_sent (n : ι) (state : StateMap D) :
    (net.setStore n state).sent = net.sent := rfl

omit [BEq D] in
@[simp] lemma setStore_store_self (n : ι) (state : StateMap D) :
    (net.setStore n state).store n = state := Function.update_self _ _ _

omit [BEq D] in
lemma setStore_store_of_ne {m n : ι} (h : m ≠ n) (state : StateMap D) :
    (net.setStore n state).store m = net.store m := Function.update_of_ne h _ _

/-- A step only appends to what was sent. -/
lemma sent_step (ev : Event ι D) : net.sent <+: (step conf hostname net ev).sent := by
  cases ev with
  | insert n members => exact List.prefix_append _ _
  | send n => exact List.prefix_append _ _
  | deliver n i =>
      rw [step]
      cases net.sent[i]? with
      | none => exact List.prefix_rfl
      | some msg => exact List.prefix_rfl
  | bleach n times =>
      rw [step]
      split_ifs <;> exact List.prefix_rfl

/-- What was sent stays available, as it was sent. -/
lemma sent_run (conf : DataTypeConf) (hostname : ι → StdString) (net : Network ι D)
    (evs : List (Event ι D)) :
    net.sent <+: (run (step conf hostname) net evs).sent := by
  induction evs using List.reverseRecOn with
  | nil => exact List.prefix_rfl
  | append_singleton evs ev ih =>
      rw [run_concat]
      exact ih.trans (sent_step ev)

/-- Delivery of a message that was sent. -/
lemma step_deliver {n : ι} {i : ℕ} {msg : Message ι D} (hmsg : net.sent[i]? = some msg) :
    step conf hostname net (.deliver n i)
      = net.setStore n (receive hostname n (net.store n) msg) := by
  rw [step, hmsg]

/-- Delivery sends nothing. -/
@[simp] lemma step_deliver_sent (n : ι) (i : ℕ) :
    (step conf hostname net (.deliver n i)).sent = net.sent := by
  cases hmsg : net.sent[i]? with
  | none => rw [step, hmsg]
  | some msg => rw [step_deliver hmsg, setStore_sent]

/-- What one step can do to the entries of a node: nothing, a merge of a
message that was sent, or a bleach. -/
lemma step_store_cases (conf : DataTypeConf) (hostname : ι → StdString) (net : Network ι D)
    (ev : Event ι D) (m : ι) :
    (step conf hostname net ev).store m = net.store m ∨
      (∃ msg ∈ net.sent, (step conf hostname net ev).store m
        = receive hostname m (net.store m) msg) ∨
      ∃ times, 1 ≤ times ∧
        (step conf hostname net ev).store m = bleachState times (net.store m) := by
  cases ev with
  | insert n members => exact Or.inl rfl
  | send n => exact Or.inl rfl
  | deliver n i =>
      cases hmsg : net.sent[i]? with
      | none => exact Or.inl (by rw [step, hmsg])
      | some msg =>
          rw [step_deliver hmsg]
          by_cases hmn : m = n
          · subst hmn
            exact Or.inr (Or.inl ⟨msg, List.mem_of_getElem? hmsg, setStore_store_self _ _⟩)
          · exact Or.inl (setStore_store_of_ne hmn _)
  | bleach n times =>
      rw [step]
      split_ifs with htimes
      · exact Or.inl rfl
      · by_cases hmn : m = n
        · subst hmn
          exact Or.inr (Or.inr ⟨times, by omega, setStore_store_self _ _⟩)
        · exact Or.inl (setStore_store_of_ne hmn _)

/-- What one step can send: a snapshot of a node or the slice of an insert. -/
lemma step_sent_cases (ev : Event ι D) {msg : Message ι D}
    (hmsg : msg ∈ (step conf hostname net ev).sent) :
    msg ∈ net.sent ∨ (∃ n, msg = .snapshot (net.store n)) ∨
      ∃ n members, ev = .insert n members ∧
        msg = .cli n (insertSlice conf (hostname n) members) := by
  cases ev with
  | insert n members =>
      rcases List.mem_append.mp hmsg with hold | hnew
      · exact Or.inl hold
      · exact Or.inr (Or.inr ⟨n, members, rfl, List.mem_singleton.mp hnew⟩)
  | send n =>
      rcases List.mem_append.mp hmsg with hold | hnew
      · exact Or.inl hold
      · exact Or.inr (Or.inl ⟨n, List.mem_singleton.mp hnew⟩)
  | deliver n i =>
      rw [step] at hmsg
      cases hi : net.sent[i]? with
      | none => exact Or.inl (by simpa [hi] using hmsg)
      | some msg' => exact Or.inl (by simpa [hi] using hmsg)
  | bleach n times =>
      rw [step] at hmsg
      split_ifs at hmsg <;> exact Or.inl hmsg

/-! ### Properties of all entries -/

/-- Every entry that is stored or in flight is, with its key, as `P` says. -/
structure AllEntries (P : StateKey → StateEntry D → Prop) (net : Network ι D) : Prop where
  store : ∀ n k e, (net.store n)[k]? = some e → P k e
  sent : ∀ msg ∈ net.sent, ∀ k e, msg.slice[k]? = some e → P k e

omit [DecidableEq ι] [BEq D] in
lemma allEntries_empty (P : StateKey → StateEntry D → Prop) :
    AllEntries P (Network.empty ι D) where
  store := fun _ _ _ he => absurd he (by simp [Network.empty])
  sent := fun _ hmsg => absurd hmsg List.not_mem_nil

/-- A node that receives a message holds afterwards what it held or what the
message carries. -/
lemma receive_eq_some {n : ι} {state : StateMap D} {msg : Message ι D} {k : StateKey}
    {e : StateEntry D} (he : (receive hostname n state msg)[k]? = some e) :
    state[k]? = some e ∨ msg.slice[k]? = some e := by
  cases msg with
  | snapshot slice => exact mergeState_eq_some he
  | cli n' slice =>
      rw [receive] at he
      split_ifs at he
      · exact mergeState_eq_some he
      · exact Or.inl he

/-- A step keeps what holds of all entries, if it still holds of an entry that
was bleached and it holds of the entries of an insert. -/
lemma AllEntries.step {P Q : StateKey → StateEntry D → Prop} (h : AllEntries P net)
    (ev : Event ι D) (hPQ : ∀ k e, P k e → Q k e)
    (hbleach : ∀ k e times, 1 ≤ times → times < e.mTtl → P k e →
      Q k { e with mTtl := e.mTtl - times })
    (hinsert : ∀ n members, ev = .insert n members → ∀ k e,
      (insertSlice conf (hostname n) members)[k]? = some e → Q k e) :
    AllEntries Q (net.step conf hostname ev) where
  store := fun n k e he => by
    rcases step_store_cases conf hostname net ev n with
      hsame | ⟨msg, hmsg, hrecv⟩ | ⟨times, htimes, haged⟩
    · rw [hsame] at he
      exact hPQ k e (h.store n k e he)
    · rw [hrecv] at he
      rcases receive_eq_some he with hown | hgot
      · exact hPQ k e (h.store n k e hown)
      · exact hPQ k e (h.sent msg hmsg k e hgot)
    · rw [haged] at he
      obtain ⟨e₀, he₀, hlt, rfl⟩ := bleachState_eq_some.mp he
      exact hbleach k e₀ times htimes hlt (h.store n k e₀ he₀)
  sent := fun msg hmsg k e he => by
    rcases step_sent_cases ev hmsg with hold | ⟨n, rfl⟩ | ⟨n, members, hev, rfl⟩
    · exact hPQ k e (h.sent msg hold k e he)
    · exact hPQ k e (h.store n k e he)
    · exact hinsert n members hev k e he

end Network

end SharedStateAsync
