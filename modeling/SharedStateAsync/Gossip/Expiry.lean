/-
When an entry is gone from a network that ages in step.

Time advances in ticks, and at every tick every node bleaches by one. Entries age
where they are stored and nowhere else: a TTL is copied into a message as it is,
and merged as it is however long the message took. So a copy outlives the TTL it
was made with by the time its messages were under way.

* `Mesh`, `MeshEvent`, `Mesh.step`: the network with a clock and, for one key, the
  time the chains of messages that lead to a node have taken together;
* `Mesh.OnTime`: what the TTL of every copy says about the time it has left;
* `gone_after_flight`: from the tick on at which the TTL and that time are over,
  no copy is left; if messages are merged in the tick they are sent in, when the
  TTL is over.
-/
import Mathlib.Data.List.GetD
import SharedStateAsync.Gossip.Network

namespace SharedStateAsync

open Machine

/-! ### Ticks -/

/-- A network with a clock. For the key `k` the last two fields follow the chains
of messages that carry it, each sent by the node that merged the one before. -/
structure Mesh (ι D : Type) where
  net : Network ι D
  clock : ℕ := 0
  /-- The tick in which each message was sent. -/
  sentAt : List ℕ := []
  /-- The longest time a chain that leads to the node was under way. -/
  flight : ι → ℕ := fun _ => 0
  /-- The same for the sender of each message, when it was sent. -/
  sentFlight : List ℕ := []

inductive MeshEvent (ι D : Type) where
  /-- A tick: every node bleaches by one. -/
  | tick
  | insert (n : ι) (members : List (StdString × D))
  | send (n : ι)
  | deliver (n : ι) (i : ℕ)

variable {ι D : Type} [DecidableEq ι] [BEq D]

namespace Mesh

/-- The mesh before anything is inserted. -/
def empty (ι D : Type) : Mesh ι D := { net := Network.empty ι D }

/-- A message was sent, by a node to which chains of the given length lead. -/
def sending (mesh : Mesh ι D) (net : Network ι D) (flight : ℕ) : Mesh ι D :=
  { mesh with
    net := net
    sentAt := mesh.sentAt ++ [mesh.clock]
    sentFlight := mesh.sentFlight ++ [flight] }

/-- The time a message is part of a chain, when it is delivered now: its own time
under way, and that of the chain that leads to its sender. -/
def flightOf (mesh : Mesh ι D) (i : ℕ) : ℕ :=
  mesh.sentFlight.getD i 0 + (mesh.clock - mesh.sentAt.getD i 0)

/-- The `i`-th message carries the key. -/
def carries (mesh : Mesh ι D) (k : StateKey) (i : ℕ) : Bool :=
  (mesh.net.sent[i]?.bind fun msg => msg.slice[k]?).isSome

/-- One step of the mesh; the time under way is followed for the key `k`. -/
def step (conf : DataTypeConf) (hostname : ι → StdString) (k : StateKey) (mesh : Mesh ι D) :
    MeshEvent ι D → Mesh ι D
  | .tick =>
      { mesh with
        net := { mesh.net with store := fun n => bleachState 1 (mesh.net.store n) }
        clock := mesh.clock + 1 }
  | .insert n members => mesh.sending (mesh.net.step conf hostname (.insert n members)) 0
  | .send n => mesh.sending (mesh.net.step conf hostname (.send n)) (mesh.flight n)
  | .deliver n i =>
      { mesh with
        net := mesh.net.step conf hostname (.deliver n i)
        flight :=
          if mesh.carries k i then
            Function.update mesh.flight n (max (mesh.flight n) (mesh.flightOf i))
          else mesh.flight }

/-- The inserts of `k` in `evs` happen at tick `u` or before. -/
def InsertsUntil (conf : DataTypeConf) (hostname : ι → StdString) (k : StateKey) (u : ℕ)
    (evs : List (MeshEvent ι D)) : Prop :=
  ∀ pre n members, pre ++ [.insert n members] <+: evs → (insertedValue members k).isSome →
    (run (step conf hostname k) (empty ι D) pre).clock ≤ u

/-- Every message that carries `k` is merged in the tick it was sent in. -/
def Prompt (conf : DataTypeConf) (hostname : ι → StdString) (k : StateKey)
    (evs : List (MeshEvent ι D)) : Prop :=
  ∀ pre n i, pre ++ [.deliver n i] <+: evs →
    let mesh := run (step conf hostname k) (empty ι D) pre
    mesh.carries k i → mesh.sentAt.getD i 0 = mesh.clock

/-! ### What a TTL says -/

/-- A copy of TTL `ttl`, now or when its message was sent, is not too young: its
TTL is over `u + T` ticks after the start, counting only the time it was not under
way. -/
def NotYounger (conf : DataTypeConf) (u : ℕ) (e : StateEntry D) (now flight : ℕ) : Prop :=
  1 ≤ e.mTtl ∧ e.mTtl + now ≤ u + conf.insertTtl + flight

/-- The invariant: the copies of `k`, stored and in flight, are not too young, and
every message has its stamps. -/
structure OnTime (conf : DataTypeConf) (k : StateKey) (u : ℕ) (mesh : Mesh ι D) : Prop where
  length_sentAt : mesh.sentAt.length = mesh.net.sent.length
  length_sentFlight : mesh.sentFlight.length = mesh.net.sent.length
  sentAt_le : ∀ i, mesh.sentAt.getD i 0 ≤ mesh.clock
  store : ∀ n e, (mesh.net.store n)[k]? = some e →
    NotYounger conf u e mesh.clock (mesh.flight n)
  sent : ∀ i msg e, mesh.net.sent[i]? = some msg → msg.slice[k]? = some e →
    NotYounger conf u e (mesh.sentAt.getD i 0) (mesh.sentFlight.getD i 0)

variable {conf : DataTypeConf} {hostname : ι → StdString} {k : StateKey} {u : ℕ} {mesh : Mesh ι D}

omit [DecidableEq ι] [BEq D] in
lemma onTime_empty (conf : DataTypeConf) (k : StateKey) (u : ℕ) : OnTime conf k u (empty ι D) where
  length_sentAt := rfl
  length_sentFlight := rfl
  sentAt_le := fun i => by simp [empty]
  store := fun n e he => absurd he (by simp [empty, Network.empty])
  sent := fun i msg e hmsg => absurd hmsg (by simp [empty, Network.empty])

omit [DecidableEq ι] [BEq D] in
/-- A message whose entries are not too young is sent. -/
lemma OnTime.sending (h : OnTime conf k u mesh) {net : Network ι D} {msg : Message ι D}
    {flight : ℕ} (hstore : net.store = mesh.net.store) (hsent : net.sent = mesh.net.sent ++ [msg])
    (hmsg : ∀ e, msg.slice[k]? = some e → NotYounger conf u e mesh.clock flight) :
    OnTime conf k u (mesh.sending net flight) where
  length_sentAt := by
    simp [Mesh.sending, hsent, h.length_sentAt]
  length_sentFlight := by
    simp [Mesh.sending, hsent, h.length_sentFlight]
  sentAt_le := fun i => by
    simp only [Mesh.sending]
    rcases Nat.lt_or_ge i mesh.sentAt.length with hlt | hge
    · rw [List.getD_append _ _ _ _ hlt]
      exact h.sentAt_le i
    · rw [List.getD_append_right _ _ _ _ hge]
      cases i - mesh.sentAt.length with
      | zero => exact le_rfl
      | succ j => exact Nat.zero_le _
  store := fun n e he => by
    rw [show (mesh.sending net flight).net.store = mesh.net.store from hstore] at he
    exact h.store n e he
  sent := fun i msg' e hi he => by
    simp only [Mesh.sending, hsent] at hi ⊢
    rcases Nat.lt_or_ge i mesh.net.sent.length with hlt | hge
    · rw [List.getElem?_append_left hlt] at hi
      rw [List.getD_append _ _ _ _ (by rw [h.length_sentAt]; exact hlt),
        List.getD_append _ _ _ _ (by rw [h.length_sentFlight]; exact hlt)]
      exact h.sent i msg' e hi he
    · -- the message that was just sent
      rw [List.getElem?_append_right hge] at hi
      obtain ⟨hlast, rfl⟩ : i - mesh.net.sent.length = 0 ∧ msg = msg' := by
        simpa using List.getElem?_singleton.symm.trans hi
      rw [List.getD_append_right _ _ _ _ (by rw [h.length_sentAt]; exact hge),
        List.getD_append_right _ _ _ _ (by rw [h.length_sentFlight]; exact hge),
        h.length_sentAt, h.length_sentFlight, hlast]
      exact hmsg e he

omit [DecidableEq ι] [BEq D] in
lemma NotYounger.mono {e : StateEntry D} {now flight flight' : ℕ}
    (h : NotYounger conf u e now flight) (hle : flight ≤ flight') :
    NotYounger conf u e now flight' := by
  obtain ⟨hpos, hold⟩ := h
  exact ⟨hpos, by omega⟩

/-- Chains only get longer. -/
lemma flight_le_deliver (m n : ι) (i : ℕ) :
    mesh.flight m ≤ (mesh.step conf hostname k (.deliver n i)).flight m := by
  simp only [step]
  split_ifs with hcarries
  · by_cases hmn : m = n
    · subst hmn
      rw [Function.update_self]
      exact le_max_left _ _
    · rw [Function.update_of_ne hmn]
  · exact le_rfl

variable (conf hostname) in
/-- The chain a delivered message ends leads to the node it is delivered to. -/
lemma flightOf_le_deliver (n : ι) {i : ℕ} (hcarries : mesh.carries k i) :
    mesh.flightOf i ≤ (mesh.step conf hostname k (.deliver n i)).flight n := by
  simp only [step, if_pos hcarries, Function.update_self]
  exact le_max_right _ _

/-- Every step keeps the invariant, as long as inserts of the key happen at tick
`u` or before. -/
lemma OnTime.step (h : OnTime conf k u mesh) (hpos : 1 ≤ conf.insertTtl) (ev : MeshEvent ι D)
    (hinsert : ∀ n members, ev = .insert n members → (insertedValue members k).isSome →
      mesh.clock ≤ u) :
    OnTime conf k u (mesh.step conf hostname k ev) := by
  cases ev with
  | tick =>
      refine ⟨h.length_sentAt, h.length_sentFlight, fun i => ?_, fun n e he => ?_, h.sent⟩
      · exact (h.sentAt_le i).trans (Nat.le_succ _)
      · obtain ⟨e₀, he₀, hlt, rfl⟩ := bleachState_eq_some.mp he
        obtain ⟨-, hle⟩ := h.store n e₀ he₀
        refine ⟨?_, ?_⟩
        · simp only
          omega
        · simp only [Mesh.step]
          push_cast
          omega
  | insert n members =>
      refine h.sending rfl rfl fun e he => ?_
      rw [Message.slice, insertSlice_getElem?] at he
      obtain ⟨d, hd, rfl⟩ := Option.map_eq_some_iff.mp he
      have hu := hinsert n members rfl (by rw [hd]; rfl)
      refine ⟨hpos, ?_⟩
      simp only
      omega
  | send n => exact h.sending rfl rfl fun e he => h.store n e he
  | deliver n i =>
      have hsent : (mesh.step conf hostname k (.deliver n i)).net.sent = mesh.net.sent := by
        simp only [Mesh.step, Network.step_deliver_sent]
      refine ⟨?_, ?_, h.sentAt_le, fun m e he => ?_, fun j msg e hj he => ?_⟩
      · rw [hsent]
        exact h.length_sentAt
      · rw [hsent]
        exact h.length_sentFlight
      · have hkept : (mesh.net.store m)[k]? = some e → NotYounger conf u e mesh.clock
            ((mesh.step conf hostname k (.deliver n i)).flight m) :=
          fun hold => (h.store m e hold).mono (flight_le_deliver m n i)
        replace he : ((mesh.net.step conf hostname (.deliver n i)).store m)[k]? = some e := he
        cases hmsg : mesh.net.sent[i]? with
        | none =>
            rw [Network.step, hmsg] at he
            exact hkept he
        | some msg =>
            rw [Network.step_deliver hmsg] at he
            by_cases hmn : m = n
            · subst hmn
              rw [Network.setStore_store_self] at he
              rcases Network.receive_eq_some he with hold | hnew
              · exact hkept hold
              · -- the copy came with the message, and was not aged on the way
                have hcarries : mesh.carries k i := by
                  rw [carries, hmsg, Option.bind_some, hnew]
                  rfl
                obtain ⟨hone, hle⟩ := h.sent i msg e hmsg hnew
                have hchain : mesh.flightOf i ≤ _ :=
                  flightOf_le_deliver conf hostname m hcarries
                have hat := h.sentAt_le i
                rw [flightOf] at hchain
                refine ⟨hone, ?_⟩
                show e.mTtl + mesh.clock ≤ _
                omega
            · rw [Network.setStore_store_of_ne hmn] at he
              exact hkept he
      · rw [hsent] at hj
        exact h.sent j msg e hj he

/-- The invariant holds along every run whose inserts of the key happen at tick
`u` or before. -/
lemma onTime_run (hpos : 1 ≤ conf.insertTtl) (evs : List (MeshEvent ι D))
    (hinserts : InsertsUntil conf hostname k u evs) :
    OnTime conf k u (run (step conf hostname k) (empty ι D) evs) := by
  refine run_induction (Q := fun pre => OnTime conf k u (run (step conf hostname k)
    (empty ι D) pre)) (onTime_empty conf k u) (fun pre ev hpre ih => ?_) evs List.prefix_rfl
  rw [run_concat]
  refine ih.step hpos ev fun n members hev hk => ?_
  subst hev
  exact hinserts pre n members hpre hk

/-- When messages are merged in the tick they are sent in, no time is spent under
way. -/
lemma flight_eq_zero {evs : List (MeshEvent ι D)} (hprompt : Prompt conf hostname k evs) :
    (∀ n, (run (step conf hostname k) (empty ι D) evs).flight n = 0) ∧
      ∀ i, (run (step conf hostname k) (empty ι D) evs).sentFlight.getD i 0 = 0 := by
  have happend : ∀ (l : List ℕ), (∀ i, l.getD i 0 = 0) → ∀ i, (l ++ [0]).getD i 0 = 0 := by
    intro l hl i
    rcases Nat.lt_or_ge i l.length with hlt | hge
    · rw [List.getD_append _ _ _ _ hlt]
      exact hl i
    · rw [List.getD_append_right _ _ _ _ hge]
      cases i - l.length with
      | zero => rfl
      | succ j => rfl
  refine run_induction (Q := fun pre =>
    (∀ n, (run (step conf hostname k) (empty ι D) pre).flight n = 0) ∧
      ∀ i, (run (step conf hostname k) (empty ι D) pre).sentFlight.getD i 0 = 0)
    ⟨fun _ => rfl, fun _ => rfl⟩ (fun pre ev hpre ih => ?_) evs List.prefix_rfl
  obtain ⟨hflight, hsent⟩ := ih
  rw [run_concat]
  cases ev with
  | tick => exact ⟨hflight, hsent⟩
  | insert n members => exact ⟨hflight, happend _ hsent⟩
  | send n =>
      refine ⟨hflight, ?_⟩
      simp only [step, sending, hflight n]
      exact happend _ hsent
  | deliver n i =>
      refine ⟨fun m => ?_, hsent⟩
      simp only [step]
      split_ifs with hcarries
      · have hnow := hprompt pre n i hpre hcarries
        have hzero : (run (step conf hostname k) (empty ι D) pre).flightOf i = 0 := by
          rw [flightOf, hsent i]
          omega
        rw [hzero, hflight n, max_self, Function.update_apply]
        split_ifs
        · rfl
        · exact hflight m
      · exact hflight m

/-- **Expiry in a network.** In every run, from empty states, of a network that
ages by one at every tick, if the inserts of a key happen at tick `u` or before,
the key is gone from a node once the TTL of an insert has passed since `u`, and
with it the longest time the messages of a chain that leads to the node have been
under way. If messages are merged in the tick they are sent in, it is gone once the
TTL has passed. -/
theorem gone_after_flight (conf : DataTypeConf) (hostname : ι → StdString) (k : StateKey)
    (hpos : 1 ≤ conf.insertTtl) (u : ℕ) (evs : List (MeshEvent ι D))
    (hinserts : InsertsUntil conf hostname k u evs) (n : ι) :
    let mesh := run (step conf hostname k) (empty ι D) evs
    (u + conf.insertTtl + mesh.flight n ≤ mesh.clock → (mesh.net.store n)[k]? = none) ∧
      (Prompt conf hostname k evs → u + conf.insertTtl ≤ mesh.clock →
        (mesh.net.store n)[k]? = none) := by
  intro mesh
  have hontime : OnTime conf k u mesh := onTime_run hpos evs hinserts
  have hgone : u + conf.insertTtl + mesh.flight n ≤ mesh.clock →
      (mesh.net.store n)[k]? = none := by
    intro hlate
    cases he : (mesh.net.store n)[k]? with
    | none => rfl
    | some e =>
        obtain ⟨hone, hle⟩ := hontime.store n e he
        omega
  refine ⟨hgone, fun hprompt hlate => hgone ?_⟩
  rw [(flight_eq_zero hprompt).1 n]
  push_cast
  omega

/-! ### A message that takes its time -/

/-- A type whose inserts have a TTL of three seconds. -/
def shortLived : DataTypeConf := ⟨[116], [], 1, 1⟩

/-- An insert on one of two hosts and its snapshot, three ticks, and the delivery
of the snapshot to the other host. -/
def lateDelivery : List (MeshEvent Bool ℕ) :=
  [.insert true [([107], 7)], .deliver true 0, .send true, .tick, .tick, .tick, .deliver false 1]

/-- The only insert is the first event. -/
lemma lateDelivery_inserts (hostname : Bool → StdString) (rest : List (MeshEvent Bool ℕ))
    (hrest : ∀ n members, .insert n members ∉ rest) :
    InsertsUntil shortLived hostname [107] 0 (.insert true [([107], 7)] :: rest) := by
  rintro pre n members hpre -
  cases pre with
  | nil => exact le_rfl
  | cons ev pre =>
      obtain ⟨-, htail⟩ := List.cons_prefix_cons.mp hpre
      exact absurd (htail.subset (List.mem_append_right _ List.mem_cons_self)) (hrest n members)

/-- Three seconds after the only insert of an entry that lives for three seconds,
a node stores it. -/
theorem stored_after_lateDelivery :
    let mesh := run (step shortLived (fun n => if n then [97] else [98]) [107]) (empty Bool ℕ)
      lateDelivery
    InsertsUntil shortLived (fun n => if n then [97] else [98]) [107] 0 lateDelivery ∧
      0 + shortLived.insertTtl ≤ mesh.clock ∧
      (mesh.net.store false)[([107] : StateKey)]? ≠ none := by
  refine ⟨lateDelivery_inserts _ _ (by simp), by decide +kernel, by decide +kernel⟩

/-- The snapshot was under way for three ticks, and three ticks after its delivery the entry
is gone there too. -/
theorem gone_after_lateDelivery :
    let mesh := run (step shortLived (fun n => if n then [97] else [98]) [107]) (empty Bool ℕ)
      (lateDelivery ++ List.replicate 3 .tick)
    mesh.flight false = 3 ∧ (mesh.net.store false)[([107] : StateKey)]? = none :=
  ⟨by decide +kernel, (gone_after_flight shortLived _ [107] (by decide) 0
    (lateDelivery ++ List.replicate 3 .tick) (lateDelivery_inserts _ _ (by simp)) false).1
      (by decide +kernel)⟩

end Mesh

end SharedStateAsync
