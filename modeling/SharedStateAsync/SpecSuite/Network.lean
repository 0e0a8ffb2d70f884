/-
A network of nodes of the spec suite (`tests/spec-suite/simulator.py`).

The nodes are known by their names. Each publishes payloads that carry the number of the
publication, its generation, which the merge does not look at; the count survives a reboot
of the node, its state does not. Snapshots in flight are delivered at any time, in any
order, more than once or never.

* `Simulation`, `SimEvent`, `Simulation.step`: the network and its steps;
* `Simulation.Copy`: a copy of a key, at a node or in flight;
* `held_step`, `flight_step`: what a step can do to the copies of a key;
* `published_prefix_step`: what was published stays;
* `OnlyAt`: a key is inserted at one node only.
-/
import SharedStateAsync.Lib.Machine
import SharedStateAsync.SpecSuite.Model

namespace SharedStateAsync

namespace SpecSuite

open Machine

/-- What a node publishes: a generation and a text. -/
abbrev Payload (B : Type) : Type := ℕ × B

/-- The nodes, the snapshots in flight, and what was published under each key. -/
structure Simulation (B : Type) where
  state : StdString → State (Payload B)
  flight : List (State (Payload B))
  published : StdString → List B

inductive SimEvent (B : Type) where
  /-- The node publishes the text under the key. -/
  | insert (node key : StdString) (blob : B) (bleachTtl updateInterval : ℤ)
  /-- The node sends a snapshot of its state. -/
  | send (node : StdString)
  /-- The node merges the `i`-th snapshot. -/
  | deliver (node : StdString) (i : ℕ)
  | bleach (node : StdString) (elapsed : ℤ)
  | reboot (node : StdString)

namespace Simulation

variable {B : Type}

/-- The network before anything is published. -/
def empty (B : Type) : Simulation B := ⟨fun _ => ∅, [], fun _ => []⟩

/-- Put `state` in place of the state of a node. -/
def setState (net : Simulation B) (node : StdString) (state : State (Payload B)) : Simulation B :=
  { net with state := Function.update net.state node state }

/-- The number of publications under a key. -/
def generation (net : Simulation B) (key : StdString) : ℕ := (net.published key).length

variable [BEq B]

/-- One step of the network. -/
def step (strategy : Strategy) (net : Simulation B) : SimEvent B → Simulation B
  | .insert node key blob bleachTtl updateInterval =>
      { net.setState node (authorInsert (net.state node) node key (net.generation key + 1, blob)
          strategy bleachTtl updateInterval) with
        published := Function.update net.published key (net.published key ++ [blob]) }
  | .send node => { net with flight := net.flight ++ [net.state node] }
  | .deliver node i =>
      match net.flight[i]? with
      | none => net
      | some slice => net.setState node (merge (net.state node) slice true node strategy).1
  | .bleach node elapsed =>
      match bleach (net.state node) elapsed with
      | none => net
      | some (_, state) => net.setState node state
  | .reboot node => net.setState node ∅

omit [BEq B]

/-- What a node has under a key. -/
def held (net : Simulation B) (node key : StdString) : Option (Entry (Payload B)) :=
  (net.state node).get? key

/-- A copy of a key, at a node or in flight. -/
def Copy (net : Simulation B) (key : StdString) (c : Entry (Payload B)) : Prop :=
  (∃ node, net.held node key = some c) ∨ ∃ slice ∈ net.flight, slice.get? key = some c

lemma Copy.of_held {net : Simulation B} {node key : StdString} {c : Entry (Payload B)}
    (h : net.held node key = some c) : net.Copy key c := Or.inl ⟨node, h⟩

lemma Copy.of_flight {net : Simulation B} {i : ℕ} {slice : State (Payload B)} {key : StdString}
    {c : Entry (Payload B)} (hi : net.flight[i]? = some slice) (h : slice.get? key = some c) :
    net.Copy key c := Or.inr ⟨slice, List.mem_of_getElem? hi, h⟩

lemma held_setState (net : Simulation B) (node other key : StdString) (state : State (Payload B)) :
    (net.setState node state).held other key
      = if other = node then state.get? key else net.held other key := by
  change (Function.update net.state node state other).get? key = _
  rw [Function.update_apply]
  split_ifs <;> rfl

/-- The event inserts the key at the node. -/
def Inserts (node key : StdString) : SimEvent B → Prop
  | .insert node' key' _ _ _ => node' = node ∧ key' = key
  | _ => False

/-- The key is inserted at the node `a` only. -/
def OnlyAt (a key : StdString) (evs : List (SimEvent B)) : Prop :=
  ∀ ev ∈ evs, ∀ node, Inserts node key ev → node = a

section Step

variable [BEq B] {strategy : Strategy} {net : Simulation B} {node key : StdString}
  {c : Entry (Payload B)}

lemma published_step_of_not {ev : SimEvent B} (h : ∀ node, ¬ Inserts node key ev) :
    (step strategy net ev).published key = net.published key := by
  cases ev with
  | insert node' key' blob bleachTtl updateInterval =>
      have hne : key ≠ key' := fun hc => h node' ⟨rfl, hc.symm⟩
      exact Function.update_of_ne hne _ _
  | send node' => rfl
  | deliver node' i =>
      rw [step]
      cases net.flight[i]? with
      | none => rfl
      | some slice => rfl
  | bleach node' elapsed =>
      rw [step]
      cases bleach (net.state node') elapsed with
      | none => rfl
      | some result => rfl
  | reboot node' => rfl

lemma published_step_insert (blob : B) (bleachTtl updateInterval : ℤ) :
    (step strategy net (.insert node key blob bleachTtl updateInterval)).published key
      = net.published key ++ [blob] := Function.update_self _ _ _

lemma generation_step_of_not {ev : SimEvent B} (h : ∀ node, ¬ Inserts node key ev) :
    (step strategy net ev).generation key = net.generation key :=
  congrArg List.length (published_step_of_not h)

lemma generation_step_insert (blob : B) (bleachTtl updateInterval : ℤ) :
    (step strategy net (.insert node key blob bleachTtl updateInterval)).generation key
      = net.generation key + 1 := by
  rw [generation, published_step_insert, List.length_append]
  rfl

/-- What was published stays. -/
lemma published_prefix_step (strategy : Strategy) (net : Simulation B) (key : StdString)
    (ev : SimEvent B) :
    net.published key <+: (step strategy net ev).published key := by
  by_cases hins : ∃ node, Inserts node key ev
  · obtain ⟨node, hins⟩ := hins
    cases ev with
    | insert node' key' blob bleachTtl updateInterval =>
        obtain ⟨rfl, rfl⟩ := hins
        rw [published_step_insert]
        exact List.prefix_append _ _
    | _ => cases hins
  · rw [published_step_of_not fun node hnode => hins ⟨node, hnode⟩]

/-- **What a step can leave under a key of a node**: what was there, perhaps with another TTL,
what was inserted, or what a merge keeps. -/
lemma held_step {ev : SimEvent B} (h : (step strategy net ev).held node key = some c) :
    (¬ Inserts node key ev ∧ ∃ c₀ ttl, net.held node key = some c₀ ∧ c = { c₀ with ttl := ttl }) ∨
      (∃ blob bleachTtl updateInterval, ev = .insert node key blob bleachTtl updateInterval ∧
        (authorInsert (net.state node) node key (net.generation key + 1, blob) strategy bleachTtl
          updateInterval).get? key = some c) ∨
      ∃ i slice e, ev = .deliver node i ∧ net.flight[i]? = some slice ∧ slice.get? key = some e ∧
        c = kept true node strategy (net.held node key) e := by
  have hsame : net.held node key = some c →
      ∃ c₀ ttl, net.held node key = some c₀ ∧ c = { c₀ with ttl := ttl } :=
    fun hc => ⟨c, c.ttl, hc, rfl⟩
  cases ev with
  | insert node' key' blob bleachTtl updateInterval =>
      change (net.setState node' _).held node key = some c at h
      rw [held_setState] at h
      split_ifs at h with hnode
      · subst hnode
        by_cases hkey : key' = key
        · subst hkey
          exact Or.inr (Or.inl ⟨blob, bleachTtl, updateInterval, rfl, h⟩)
        · rw [authorInsert, Dict.get?_set, if_neg hkey] at h
          exact Or.inl ⟨fun hins => hkey hins.2, hsame h⟩
      · exact Or.inl ⟨fun hins => hnode hins.1.symm, hsame h⟩
  | send node' => exact Or.inl ⟨not_false, hsame h⟩
  | deliver node' i =>
      rw [step] at h
      cases hi : net.flight[i]? with
      | none =>
          simp only [hi] at h
          exact Or.inl ⟨not_false, hsame h⟩
      | some slice =>
          simp only [hi] at h
          rw [held_setState] at h
          split_ifs at h with hnode
          · subst hnode
            rw [merge_get?] at h
            cases he : slice.get? key with
            | none =>
                rw [he, Option.elim_none] at h
                exact Or.inl ⟨not_false, hsame h⟩
            | some e =>
                rw [he, Option.elim_some] at h
                exact Or.inr (Or.inr ⟨i, slice, e, rfl, hi, he, (Option.some.inj h).symm⟩)
          · exact Or.inl ⟨not_false, hsame h⟩
  | bleach node' elapsed =>
      rw [step] at h
      cases hbleach : bleach (net.state node') elapsed with
      | none =>
          simp only [hbleach] at h
          exact Or.inl ⟨not_false, hsame h⟩
      | some result =>
          simp only [hbleach] at h
          rw [held_setState] at h
          split_ifs at h with hnode
          · subst hnode
            rw [bleach_get? hbleach] at h
            obtain ⟨c₀, hc₀, hkept⟩ := Option.bind_eq_some_iff.mp h
            split_ifs at hkept
            exact Or.inl ⟨not_false, c₀, _, hc₀, (Option.some.inj hkept).symm⟩
          · exact Or.inl ⟨not_false, hsame h⟩
  | reboot node' =>
      change (net.setState node' ∅).held node key = some c at h
      rw [held_setState] at h
      split_ifs at h
      · cases h
      · exact Or.inl ⟨not_false, hsame h⟩

/-- What a step can add to the snapshots in flight. -/
lemma flight_step {ev : SimEvent B} {slice : State (Payload B)}
    (h : slice ∈ (step strategy net ev).flight) :
    slice ∈ net.flight ∨ ∃ node, slice = net.state node := by
  cases ev with
  | insert node key blob bleachTtl updateInterval => exact Or.inl h
  | send node =>
      rcases List.mem_append.mp h with h | h
      · exact Or.inl h
      · exact Or.inr ⟨node, List.mem_singleton.mp h⟩
  | deliver node i =>
      rw [step] at h
      cases hi : net.flight[i]? with
      | none =>
          simp only [hi] at h
          exact Or.inl h
      | some slice' =>
          simp only [hi] at h
          exact Or.inl h
  | bleach node elapsed =>
      rw [step] at h
      cases hbleach : bleach (net.state node) elapsed with
      | none =>
          simp only [hbleach] at h
          exact Or.inl h
      | some result =>
          simp only [hbleach] at h
          exact Or.inl h
  | reboot node => exact Or.inl h

end Step

end Simulation

end SpecSuite

end SharedStateAsync
