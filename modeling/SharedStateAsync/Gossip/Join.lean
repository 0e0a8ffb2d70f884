/-
Gossip computes the join of the causal past.

Take any initial states in which two copies of a key with equal TTL are equal
and in which a node that is the author of some copy of a key holds a copy of
greatest TTL of that key itself. Then, as long as nothing is inserted and
nothing ages, every node holds for every key the copy of greatest TTL among the
nodes it has heard of, whatever messages were delayed, reordered, repeated or
lost.

* `Heard`, `causalPast`: the nodes a node has heard of, directly or through
  others, computed beside the network from the same events;
* `JoinInv`: the invariant, which ties every store and every message in flight
  to what it has heard of;
* `mergeState_isJoin`: a merge joins; the authorship guard never fires, because
  what a node knows of its own entries is already at the top;
* `gossip_isTop_causalPast`: the result.
-/
import SharedStateAsync.Lib.TopCopy
import SharedStateAsync.Gossip.Network

namespace SharedStateAsync

open Machine TopCopy

variable {ι D : Type} [DecidableEq ι] [BEq D]

/-- Nothing but snapshots that are sent and merged. -/
def Event.IsGossip : Event ι D → Prop
  | .send _ => True
  | .deliver _ _ => True
  | .insert _ _ => False
  | .bleach _ _ => False

/-! ### Causal past -/

/-- Which nodes each node, and each message in flight, has heard of. -/
structure Heard (ι : Type) where
  past : ι → Set ι
  carried : List (Set ι)

namespace Heard

/-- At the start a node has heard of itself. -/
def init (ι : Type) : Heard ι := ⟨fun n => {n}, []⟩

/-- A message carries what its sender has heard of, and delivery adds it to
what the receiver has heard of. -/
def step (h : Heard ι) : Event ι D → Heard ι
  | .insert _ _ => { h with carried := h.carried ++ [∅] }
  | .send n => { h with carried := h.carried ++ [h.past n] }
  | .deliver n i =>
      match h.carried[i]? with
      | none => h
      | some P => { h with past := Function.update h.past n (h.past n ∪ P) }
  | .bleach _ _ => h

end Heard

/-- The nodes whose initial state can have reached `n` through the events. -/
def causalPast (evs : List (Event ι D)) (n : ι) : Set ι :=
  (run Heard.step (Heard.init ι) evs).past n

/-! ### The invariant -/

/-- The copies of the key `k` in the initial states. -/
def copies (init : ι → StateMap D) (k : StateKey) (m : ι) : Option (StateEntry D) :=
  (init m)[k]?

/-- `state` holds, for every key, the top copy of the nodes in `P`. -/
def IsJoin (init : ι → StateMap D) (P : Set ι) (state : StateMap D) : Prop :=
  ∀ k, IsTop StateEntry.mTtl (copies init k) P state[k]?

/-- Every store and every message in flight is the join of what it has heard
of. -/
structure JoinInv (init : ι → StateMap D) (net : Network ι D) (h : Heard ι) : Prop where
  self_mem : ∀ n, n ∈ h.past n
  store : ∀ n, IsJoin init (h.past n) (net.store n)
  length : net.sent.length = h.carried.length
  sent : ∀ (i : ℕ) (msg : Message ι D) (P : Set ι), net.sent[i]? = some msg →
    h.carried[i]? = some P → ∃ state, msg = .snapshot state ∧ IsJoin init P state

/-- Coherent initial states: equal TTL means equal entry, and the author of a
copy holds a copy of greatest TTL itself. -/
structure Coherent (hostname : ι → StdString) (init : ι → StateMap D) : Prop where
  ties : ∀ (m n : ι) (k : StateKey) (e e' : StateEntry D), (init m)[k]? = some e →
    (init n)[k]? = some e' → e.mTtl = e'.mTtl → e = e'
  owners : ∀ (m n : ι) (k : StateKey) (e : StateEntry D), (init m)[k]? = some e →
    e.mAuthor = hostname n → ∃ own : StateEntry D, (init n)[k]? = some own ∧
      ∀ (m' : ι) (e' : StateEntry D), (init m')[k]? = some e' → e'.mTtl ≤ own.mTtl

section Steps

variable {conf : DataTypeConf} {hostname : ι → StdString} {init : ι → StateMap D}

omit [DecidableEq ι] [BEq D] in
/-- A node whose copy of a key is its own knows the greatest TTL of that
key. -/
lemma mTtl_le_of_own (hco : Coherent hostname init) {n : ι} {P : Set ι} (hn : n ∈ P)
    {k : StateKey} {a : StateEntry D}
    (ha : IsTop StateEntry.mTtl (copies init k) P (some a)) (hown : a.mAuthor = hostname n)
    {m : ι} {e : StateEntry D} (he : copies init k m = some e) : e.mTtl ≤ a.mTtl := by
  obtain ⟨m', hm'⟩ := ha.exists_copy
  obtain ⟨own, hinit, hmax⟩ := hco.owners m' n k a hm' hown
  exact (hmax m e he).trans (ha.2 n hn own hinit)

omit [DecidableEq ι] in
/-- A merge of what others have heard of joins it to what the node knows. -/
lemma mergeState_isJoin (hco : Coherent hostname init) {n : ι} {P Q : Set ι} (hn : n ∈ P)
    {state slice : StateMap D} (hstate : IsJoin init P state) (hslice : IsJoin init Q slice) :
    IsJoin init (P ∪ Q) (mergeState (hostname n) true state slice) := by
  intro k
  have hP := hstate k
  have hQ := hslice k
  rw [mergeState_getElem?]
  cases hs : slice[k]? with
  | none =>
      rw [hs] at hQ
      rw [Option.elim_none, Set.union_comm]
      exact hQ.union_none hP
  | some e =>
      rw [hs] at hQ
      rw [Option.elim_some]
      cases ha : state[k]? with
      | none =>
          rw [ha] at hP
          exact hP.union_none hQ
      | some a =>
          rw [ha] at hP
          refine hP.union hQ ?_
          rcases lt_trichotomy e.mTtl a.mTtl with hlt | heq | hgt
          · exact Or.inl ⟨resolve_of_lt hlt, hlt.le⟩
          · exact Or.inr ⟨resolve_of_eq heq.symm, heq.ge⟩
          · -- the guard would need an own copy below the slice's one
            obtain ⟨m, hm⟩ := hQ.exists_copy
            have hforeign : a.mAuthor ≠ hostname n := fun hown =>
              absurd (mTtl_le_of_own hco hn hP hown hm) (by omega)
            exact Or.inr ⟨resolve_of_gt_foreign hforeign hgt, hgt.le⟩

omit [DecidableEq ι] [BEq D] in
/-- The network starts out as the join of what it has heard of. -/
lemma joinInv_init (init : ι → StateMap D) : JoinInv init ⟨init, []⟩ (Heard.init ι) where
  self_mem := fun n => rfl
  store := fun n k => isTop_singleton (copies init k) n
  length := rfl
  sent := fun i msg P hmsg => by simp at hmsg

omit [DecidableEq ι] [BEq D] in
/-- A message that is appended with what it carries. -/
lemma JoinInv.send_store {net : Network ι D} {h : Heard ι} (hinv : JoinInv init net h) (n : ι) :
    JoinInv init { net with sent := net.sent ++ [.snapshot (net.store n)] }
      { h with carried := h.carried ++ [h.past n] } where
  self_mem := hinv.self_mem
  store := hinv.store
  length := by simp [hinv.length]
  sent := fun i msg P hmsg hP => by
    by_cases hi : i < net.sent.length
    · have hi' : i < h.carried.length := by rw [← hinv.length]; exact hi
      rw [List.getElem?_append_left hi] at hmsg
      rw [List.getElem?_append_left hi'] at hP
      exact hinv.sent i msg P hmsg hP
    · have hlast : i = net.sent.length := by
        have := (List.getElem?_eq_some_iff.mp hmsg).1
        simp only [List.length_append, List.length_cons, List.length_nil] at this
        omega
      rw [hlast, List.getElem?_concat_length] at hmsg
      rw [hlast, hinv.length, List.getElem?_concat_length] at hP
      obtain rfl := Option.some.inj hmsg
      obtain rfl := Option.some.inj hP
      exact ⟨net.store n, rfl, hinv.store n⟩

/-- A delivery keeps the invariant. -/
lemma JoinInv.deliver (hco : Coherent hostname init) {net : Network ι D} {h : Heard ι}
    (hinv : JoinInv init net h) (n : ι) (i : ℕ) :
    JoinInv init (Network.step conf hostname net (.deliver n i))
      (h.step (D := D) (.deliver n i)) := by
  cases hmsg : net.sent[i]? with
  | none =>
      have hcarried : h.carried[i]? = none := by
        rw [List.getElem?_eq_none_iff] at hmsg ⊢
        rw [← hinv.length]
        exact hmsg
      rw [Network.step, hmsg, Heard.step, hcarried]
      exact hinv
  | some msg =>
      have hi : i < h.carried.length := by
        rw [← hinv.length]
        exact (List.getElem?_eq_some_iff.mp hmsg).1
      have hcarried : h.carried[i]? = some h.carried[i] := List.getElem?_eq_getElem hi
      obtain ⟨state, rfl, hjoin⟩ := hinv.sent i msg _ hmsg hcarried
      rw [Network.step_deliver hmsg, Heard.step, hcarried]
      refine ⟨fun m => ?_, fun m => ?_, hinv.length, hinv.sent⟩
      · by_cases hmn : m = n
        · subst hmn
          simp only [Function.update_self]
          exact Or.inl (hinv.self_mem m)
        · simp only [Function.update_of_ne hmn]
          exact hinv.self_mem m
      · by_cases hmn : m = n
        · subst hmn
          simp only [Function.update_self, Network.setStore_store_self]
          exact mergeState_isJoin hco (hinv.self_mem m) (hinv.store m) hjoin
        · simp only [Function.update_of_ne hmn, Network.setStore_store_of_ne hmn]
          exact hinv.store m

/-- The invariant holds along every run of gossip. -/
lemma joinInv_run (conf : DataTypeConf) (hco : Coherent hostname init) (evs : List (Event ι D))
    (hgossip : ∀ ev ∈ evs, ev.IsGossip) :
    JoinInv init (run (Network.step conf hostname) ⟨init, []⟩ evs)
      (run Heard.step (Heard.init ι) evs) := by
  induction evs using List.reverseRecOn with
  | nil => exact joinInv_init init
  | append_singleton evs ev ih =>
      have hinv := ih fun e he => hgossip e (List.mem_append_left _ he)
      have hev := hgossip ev (List.mem_append_right _ List.mem_cons_self)
      rw [run_concat, run_concat]
      cases ev with
      | insert n members => exact hev.elim
      | send n => exact hinv.send_store n
      | deliver n i => exact hinv.deliver hco n i
      | bleach n times => exact hev.elim

end Steps

/-- **Gossip computes the join of the causal past.** At every moment of every
run of gossip, each node holds for each key the copy of greatest TTL among the
initial states of the nodes in its causal past; so the nodes that have heard of
every node hold identical states, whatever the order of the deliveries. -/
theorem gossip_isTop_causalPast (conf : DataTypeConf) {hostname : ι → StdString}
    {init : ι → StateMap D} (hco : Coherent hostname init) (evs : List (Event ι D))
    (hgossip : ∀ ev ∈ evs, ev.IsGossip) :
    (∀ n k, IsTop StateEntry.mTtl (copies init k) (causalPast evs n)
      ((run (Network.step conf hostname) ⟨init, []⟩ evs).store n)[k]?) ∧
    ∀ n n', causalPast evs n = Set.univ → causalPast evs n' = Set.univ →
      (run (Network.step conf hostname) ⟨init, []⟩ evs).store n
        = (run (Network.step conf hostname) ⟨init, []⟩ evs).store n' := by
  have hinv := joinInv_run conf hco evs hgossip
  refine ⟨fun n k => hinv.store n k, fun n n' hn hn' => ?_⟩
  apply Std.ExtTreeMap.ext_getElem?
  intro k
  have htop := hinv.store n k
  have htop' := hinv.store n' k
  rw [show (run Heard.step (Heard.init ι) evs).past n = Set.univ from hn] at htop
  rw [show (run Heard.step (Heard.init ι) evs).past n' = Set.univ from hn'] at htop'
  exact htop.unique (fun m m' e e' => hco.ties m m' k e e') htop'

/-- Two nodes, the author `a` of a key and `b` with an older copy of it: one
session makes them agree. -/
theorem gossip_isTop_two_nodes :
    let hostname : Bool → StdString := fun n => if n then [98] else [97]
    let copy : Bool → StateEntry ℕ := fun n => if n then ⟨[97], 3, 1⟩ else ⟨[97], 5, 2⟩
    let init : Bool → StateMap ℕ := fun n => (∅ : StateMap ℕ).insert [107] (copy n)
    let evs : List (Event Bool ℕ) := [.send true, .deliver false 0, .send false, .deliver true 1]
    (run (Network.step ⟨[116], [], 30, 300⟩ hostname) ⟨init, []⟩ evs).store true
      = (run (Network.step ⟨[116], [], 30, 300⟩ hostname) ⟨init, []⟩ evs).store false := by
  intro hostname copy init evs
  have hinit : ∀ (m : Bool) (k : StateKey) (e : StateEntry ℕ), (init m)[k]? = some e →
      k = [107] ∧ e = copy m := by
    intro m k e he
    rw [OrdMap.getElem?_insert_eq] at he
    by_cases hk : ([107] : StateKey) = k
    · rw [if_pos hk] at he
      exact ⟨hk.symm, (Option.some.inj he).symm⟩
    · simp [if_neg hk] at he
  have hties : ∀ m n, (copy m).mTtl = (copy n).mTtl → copy m = copy n := by decide
  have hco : Coherent hostname init := by
    refine ⟨fun m n k e e' he he' httl => ?_, fun m n k e he hown => ?_⟩
    · obtain ⟨-, rfl⟩ := hinit m k e he
      obtain ⟨-, rfl⟩ := hinit n k e' he'
      exact hties m n httl
    · obtain ⟨rfl, rfl⟩ := hinit m k e he
      cases n with
      | true => exact absurd hown (by cases m <;> decide)
      | false =>
          refine ⟨⟨[97], 5, 2⟩, by decide +kernel, fun m' e' he' => ?_⟩
          obtain ⟨-, rfl⟩ := hinit m' _ e' he'
          cases m' <;> decide
  have hpast : ∀ n, causalPast evs n = Set.univ := by
    intro n
    refine Set.eq_univ_of_forall fun m => ?_
    cases n with
    | true =>
        -- it has heard of itself, and of what the other had heard of
        change m ∈ ({true} ∪ ({false} ∪ {true}) : Set Bool)
        cases m with
        | true => exact Or.inl rfl
        | false => exact Or.inr (Or.inl rfl)
    | false =>
        change m ∈ ({false} ∪ {true} : Set Bool)
        cases m with
        | true => exact Or.inr rfl
        | false => exact Or.inl rfl
  exact (gossip_isTop_causalPast ⟨[116], [], 30, 300⟩ hco evs
    (by simp [evs, Event.IsGossip])).2 true false (hpast true) (hpast false)

end SharedStateAsync
