/-
Recovery after a reboot, in two rounds (`tests/spec-suite`, strategies `v2` and `v2r`).

A merge never leaves a version below that of either copy. So once the author has merged a
snapshot of each of its peers, its version is at least that of every copy the peers can come to
hold from each other, and its next publication goes past all of them.

* `le_version_kept`: versions do not decrease;
* `Carries`: an event of a round;
* `held_deliver_self`, `held_deliver_of_ne`, `held_insert`, `merged_version`: the versions at a
  node, and where one has merged another's snapshot;
* `CopiesAre`, `copiesAre_step`: what holds of all copies, and stays so while they travel;
* `recovery_completes`: two rounds.
-/
import SharedStateAsync.SpecSuite.Versions

namespace SharedStateAsync

namespace SpecSuite

open Machine

/-- A merge leaves a version that is not below those of the two copies. -/
lemma le_version_kept {D : Type} {strategy : Strategy} (hv : strategy.Versioned) (remote : Bool)
    (hostname : StdString) (known e : Entry D) :
    known.version ≤ (kept remote hostname strategy (some known) e).version ∧
      e.version ≤ (kept remote hostname strategy (some known) e).version := by
  rcases kept_cases hv remote hostname known e with ⟨hrec, hkept⟩ | ⟨htake, -, hkept⟩ | ⟨hle, hkept⟩
  · obtain ⟨-, -, hlt, -⟩ := recoveryApplies_iff.mp hrec
    rw [hkept]
    dsimp only
    omega
  · rw [hkept, Entry.adopted]
    dsimp only
    omega
  · rw [hkept]
    exact ⟨le_rfl, hle⟩

namespace Simulation

variable {B : Type}

/-- The event of a round in which some nodes send snapshots, and some merge them. -/
def Carries (sends merges : Finset StdString) : SimEvent B → Prop
  | .send node => node ∈ sends
  | .deliver node _ => node ∈ merges
  | _ => False

instance (sends merges : Finset StdString) :
    DecidablePred (Carries sends merges : SimEvent B → Prop)
  | .send node => inferInstanceAs (Decidable (node ∈ sends))
  | .deliver node _ => inferInstanceAs (Decidable (node ∈ merges))
  | .insert _ _ _ _ _ | .bleach _ _ | .reboot _ => isFalse not_false

section Step

variable [BEq B] {strategy : Strategy} {net : Simulation B} {a k node : StdString}
  {sends merges nodes : Finset StdString}

/-- What a delivery leaves at the node that merges. -/
lemma held_deliver_self {i : ℕ} {slice : State (Payload B)} (hi : net.flight[i]? = some slice) :
    (step strategy net (.deliver node i)).held node k
      = (slice.get? k).elim (net.held node k) fun e =>
          some (kept true node strategy (net.held node k) e) := by
  rw [step]
  simp only [hi]
  rw [held_setState, if_pos rfl, merge_get?]
  rfl

/-- At the other nodes, a delivery changes nothing. -/
lemma held_deliver_of_ne {i : ℕ} {other : StdString} (hne : node ≠ other) :
    (step strategy net (.deliver other i)).held node k = net.held node k := by
  rw [step]
  cases hi : net.flight[i]? with
  | none => rfl
  | some slice =>
      simp only
      rw [held_setState, if_neg hne]

/-- What an insert leaves at the nodes. -/
lemma held_insert (strategy : Strategy) (net : Simulation B) (a node k : StdString)
    (blob : B) (bleachTtl updateInterval : ℤ) :
    (step strategy net (.insert a k blob bleachTtl updateInterval)).held node k
      = if node = a then (authorInsert (net.state a) a k (net.generation k + 1, blob) strategy
          bleachTtl updateInterval).get? k else net.held node k :=
  held_setState net a node k _

/-- An event of a round leaves no version below the one that was there. -/
lemma le_version_step (hv : strategy.Versioned) {ev : SimEvent B} (hev : Carries sends merges ev)
    {c : Entry (Payload B)} (hc : net.held node k = some c) :
    ∃ c', (step strategy net ev).held node k = some c' ∧ c.version ≤ c'.version := by
  cases ev with
  | send other => exact ⟨c, hc, le_rfl⟩
  | deliver other i =>
      by_cases hne : node = other
      · subst hne
        cases hi : net.flight[i]? with
        | none =>
            refine ⟨c, ?_, le_rfl⟩
            rw [step]
            simp only [hi]
            exact hc
        | some slice =>
            rw [held_deliver_self hi, hc]
            cases slice.get? k with
            | none => exact ⟨c, rfl, le_rfl⟩
            | some e => exact ⟨_, rfl, (le_version_kept hv true node c e).1⟩
      · exact ⟨c, (held_deliver_of_ne hne).trans hc, le_rfl⟩
  | _ => cases hev

/-- A delivery leaves no version below the one in the snapshot. -/
lemma le_version_deliver (hv : strategy.Versioned) {i : ℕ} {slice : State (Payload B)}
    (hi : net.flight[i]? = some slice) {e : Entry (Payload B)} (he : slice.get? k = some e) :
    ∃ c', (step strategy net (.deliver node i)).held node k = some c' ∧ e.version ≤ c'.version := by
  rw [held_deliver_self hi, he, Option.elim_some]
  refine ⟨_, rfl, ?_⟩
  cases hknown : net.held node k with
  | none => exact le_rfl
  | some known => exact (le_version_kept hv true node known e).2

/-- Snapshots stay in flight. -/
lemma flight_prefix_step (ev : SimEvent B) : net.flight <+: (step strategy net ev).flight := by
  cases ev with
  | insert node key blob bleachTtl updateInterval => exact List.prefix_rfl
  | send node => exact List.prefix_append _ _
  | deliver node i =>
      rw [step]
      cases net.flight[i]? with
      | none => exact List.prefix_rfl
      | some slice => exact List.prefix_rfl
  | bleach node elapsed =>
      rw [step]
      cases bleach (net.state node) elapsed with
      | none => exact List.prefix_rfl
      | some result => exact List.prefix_rfl
  | reboot node => exact List.prefix_rfl

/-- The copies of the key at the given nodes and in flight are all as `P` says. -/
structure CopiesAre (P : Entry (Payload B) → Prop) (nodes : Finset StdString) (k : StdString)
    (net : Simulation B) : Prop where
  held : ∀ node ∈ nodes, ∀ c, net.held node k = some c → P c
  flight : ∀ slice ∈ net.flight, ∀ c, slice.get? k = some c → P c

omit [BEq B] in
/-- What is kept of two such copies is one again, where their author does not merge. -/
lemma copy_kept (hv : strategy.Versioned) {P : Entry (Payload B) → Prop}
    (hauthor : ∀ c, P c → c.author = a) (hadopted : ∀ c, P c → P c.adopted) (hne : node ≠ a)
    {known e : Entry (Payload B)} (hPknown : P known) (hPe : P e) :
    P (kept true node strategy (some known) e) := by
  rcases kept_cases hv true node known e with ⟨hrec, -⟩ | ⟨-, -, hkept⟩ | ⟨-, hkept⟩
  · obtain ⟨-, hown, -⟩ := recoveryApplies_iff.mp hrec
    exact absurd (hown.symm.trans (hauthor known hPknown)) hne
  · rw [hkept]
    exact hadopted e hPe
  · rw [hkept]
    exact hPknown

/-- **Copies that travel**: among nodes that are not their author, copies stay as they are. -/
lemma copiesAre_step (hv : strategy.Versioned) {P : Entry (Payload B) → Prop}
    (hauthor : ∀ c, P c → c.author = a) (hadopted : ∀ c, P c → P c.adopted)
    (hother : a ∉ merges ∩ nodes) (h : CopiesAre P nodes k net) {ev : SimEvent B}
    (hev : Carries nodes merges ev) : CopiesAre P nodes k (step strategy net ev) := by
  cases ev with
  | send sender =>
      refine ⟨h.held, fun slice hslice c hc => ?_⟩
      rcases List.mem_append.mp hslice with hslice | hslice
      · exact h.flight slice hslice c hc
      · rw [List.mem_singleton.mp hslice] at hc
        exact h.held sender hev c hc
  | deliver other i =>
      cases hi : net.flight[i]? with
      | none =>
          rw [step]
          simp only [hi]
          exact h
      | some slice =>
          refine ⟨fun node hnode c hc => ?_, ?_⟩
          · by_cases hne : node = other
            · subst hne
              rw [held_deliver_self hi] at hc
              cases he : slice.get? k with
              | none =>
                  rw [he] at hc
                  exact h.held node hnode c hc
              | some e =>
                  rw [he] at hc
                  obtain rfl := Option.some.inj hc
                  have hPe := h.flight slice (List.mem_of_getElem? hi) e he
                  cases hknown : net.held node k with
                  | none => exact hadopted e hPe
                  | some known =>
                      -- the author of the copies does not merge here
                      have hne : node ≠ a := by
                        rintro rfl
                        exact hother (Finset.mem_inter.mpr ⟨hev, hnode⟩)
                      exact copy_kept hv hauthor hadopted hne (h.held node hnode known hknown) hPe
            · rw [held_deliver_of_ne hne] at hc
              exact h.held node hnode c hc
          · rw [step]
            simp only [hi]
            exact h.flight
  | _ => cases hev

end Step

/-! ### A round -/

section Round

variable [BEq B] {strategy : Strategy} {net : Simulation B} {a k node sender : StdString}
  {sends merges nodes : Finset StdString} {evs : List (SimEvent B)}

/-- The node merges a snapshot that the sender has taken in this run. -/
def MergesFrom (strategy : Strategy) (net : Simulation B) (evs : List (SimEvent B))
    (sender node : StdString) : Prop :=
  ∃ pre mid, pre ++ .send sender :: mid ++
    [.deliver node (run (step strategy) net pre).flight.length] <+: evs

lemma flight_prefix_run (evs : List (SimEvent B)) :
    net.flight <+: (run (step strategy) net evs).flight := by
  induction evs using List.reverseRecOn with
  | nil => exact List.prefix_rfl
  | append_singleton evs ev ih =>
      rw [run_concat]
      exact ih.trans (flight_prefix_step ev)

/-- A round leaves no version below the one that was there. -/
lemma le_version_run (hv : strategy.Versioned) (hevs : ∀ ev ∈ evs, Carries sends merges ev)
    {c : Entry (Payload B)} (hc : net.held node k = some c) :
    ∃ c', (run (step strategy) net evs).held node k = some c' ∧ c.version ≤ c'.version := by
  induction evs using List.reverseRecOn with
  | nil => exact ⟨c, hc, le_rfl⟩
  | append_singleton evs ev ih =>
      rw [List.forall_mem_append, List.forall_mem_singleton] at hevs
      obtain ⟨c₁, hc₁, hle⟩ := ih hevs.1
      obtain ⟨c₂, hc₂, hle'⟩ := le_version_step hv hevs.2 hc₁
      rw [run_concat]
      exact ⟨c₂, hc₂, hle.trans hle'⟩

/-- Copies stay as they are in a round among nodes that are not their author. -/
lemma copiesAre_run (hv : strategy.Versioned) {P : Entry (Payload B) → Prop}
    (hauthor : ∀ c, P c → c.author = a) (hadopted : ∀ c, P c → P c.adopted)
    (hother : a ∉ merges ∩ nodes) (h : CopiesAre P nodes k net)
    (hevs : ∀ ev ∈ evs, Carries nodes merges ev) :
    CopiesAre P nodes k (run (step strategy) net evs) := by
  induction evs using List.reverseRecOn with
  | nil => exact h
  | append_singleton evs ev ih =>
      rw [List.forall_mem_append, List.forall_mem_singleton] at hevs
      rw [run_concat]
      exact copiesAre_step hv hauthor hadopted hother (ih hevs.1) hevs.2

/-- **Who merges a snapshot** has at least the version its sender had to begin with. -/
theorem merged_version (hv : strategy.Versioned) (hevs : ∀ ev ∈ evs, Carries sends merges ev)
    (hmerges : MergesFrom strategy net evs sender node) {c : Entry (Payload B)}
    (hc : net.held sender k = some c) :
    ∃ c', (run (step strategy) net evs).held node k = some c' ∧ c.version ≤ c'.version := by
  obtain ⟨pre, mid, rest, rfl⟩ := hmerges
  simp only [List.forall_mem_append, List.forall_mem_cons] at hevs
  obtain ⟨⟨⟨hpre, hsend, hmid⟩, hdeliver, -⟩, hrest⟩ := hevs
  obtain ⟨e, he, hle⟩ := le_version_run hv hpre hc
  -- the snapshot is in flight when it is merged
  have hflight : (run (step strategy) net (pre ++ .send sender :: mid)).flight[
      (run (step strategy) net pre).flight.length]?
        = some ((run (step strategy) net pre).state sender) := by
    rw [run_append]
    obtain ⟨more, hmore⟩ : (step strategy (run (step strategy) net pre) (.send sender)).flight <+:
      (run (step strategy) (run (step strategy) net pre) (.send sender :: mid)).flight :=
        flight_prefix_run mid
    rw [← hmore, step, List.append_assoc, List.getElem?_append_right le_rfl, Nat.sub_self]
    rfl
  obtain ⟨c₁, hc₁, hle₁⟩ : ∃ c₁, (step strategy _ (.deliver node _)).held node k = some c₁ ∧
      e.version ≤ c₁.version := le_version_deliver hv hflight he
  obtain ⟨c₂, hc₂, hle₂⟩ := le_version_run hv hrest hc₁
  refine ⟨c₂, ?_, hle.trans (hle₁.trans hle₂)⟩
  rw [run_append, run_concat]
  exact hc₂

end Round

/-! ### Two rounds -/

section Rounds

variable [BEq B] {strategy : Strategy} {net : Simulation B} {a k : StdString}
  {peers : Finset StdString} {gather : List (SimEvent B)}

/-- After the first round the peers' copies are no newer than what some peer had. -/
lemma copies_gathered (hv : strategy.Versioned) (ha : a ∉ peers) (hflight : net.flight = [])
    (hauthor : ∀ p ∈ peers, ∀ c, net.held p k = some c → c.author = a)
    (hgather : ∀ ev ∈ gather, Carries peers (insert a peers) ev) :
    CopiesAre (fun c => c.author = a ∧ ∃ q ∈ peers, ∃ c₀, net.held q k = some c₀ ∧
      c.version ≤ c₀.version) peers k (run (step strategy) net gather) := by
  refine copiesAre_run hv (fun c hc => hc.1) (fun c hc => hc) ?_ ⟨?_, ?_⟩ hgather
  · exact fun hc => ha (Finset.mem_inter.mp hc).2
  · exact fun q hq c hc => ⟨hauthor q hq c hc, q, hq, c, hc, le_rfl⟩
  · rw [hflight]
    exact fun slice hslice => by cases hslice

/-- The author's publication goes past what the peers had. -/
lemma publication_above (hv : strategy.Versioned) (blob : B) (bleachTtl updateInterval : ℤ)
    (hgather : ∀ ev ∈ gather, Carries peers (insert a peers) ev)
    (hmerged : ∀ p ∈ peers, MergesFrom strategy net gather p a) :
    let gathered := run (step strategy) net gather
    ∃ d, (step strategy gathered (.insert a k blob bleachTtl updateInterval)).held a k = some d ∧
      d.author = a ∧ d.data = (gathered.generation k + 1, blob) ∧
      ∀ q ∈ peers, ∀ c₀, net.held q k = some c₀ → c₀.version < d.version := by
  intro gathered
  obtain ⟨d, hinsert⟩ : ∃ d, (authorInsert (gathered.state a) a k
      (gathered.generation k + 1, blob) strategy bleachTtl updateInterval).get? k = some d :=
    ⟨_, (Dict.get?_set _ _ _ _).trans (if_pos rfl)⟩
  obtain ⟨hdauthor, hddata, -, hdversion⟩ := authorInsert_get?_self hv hinsert
  refine ⟨d, ?_, hdauthor, hddata, fun q hq c₀ hc₀ => ?_⟩
  · rw [held_insert, if_pos rfl, hinsert]
  · obtain ⟨c, hc, hle⟩ := merged_version hv hgather (hmerged q hq) hc₀
    have hprev : (gathered.state a).get? k = some c := hc
    rw [hdversion, hprev, Option.elim_some]
    omega

end Rounds

/-- **Recovery in two rounds.** The peers hold copies of the author's key, and nothing is in
flight. First the peers send snapshots, which they and the author merge, the author at least one
of each peer; then the author publishes; then the peers and the author send snapshots, which the
peers merge, each of them at least one of the author's. In the end every peer has what the author
has published. -/
theorem recovery_completes [BEq B] {strategy : Strategy} (hv : strategy.Versioned)
    (a k : StdString) (blob : B) (bleachTtl updateInterval : ℤ) (peers : Finset StdString)
    (ha : a ∉ peers) (net : Simulation B) (hflight : net.flight = [])
    (hauthor : ∀ p ∈ peers, ∀ c, net.held p k = some c → c.author = a)
    (gather spread : List (SimEvent B))
    (hgather : ∀ ev ∈ gather, Carries peers (insert a peers) ev)
    (hspread : ∀ ev ∈ spread, Carries (insert a peers) peers ev) :
    let gathered := run (step strategy) net gather
    let published := step strategy gathered (.insert a k blob bleachTtl updateInterval)
    (∀ p ∈ peers, MergesFrom strategy net gather p a) →
      (∀ p ∈ peers, MergesFrom strategy published spread a p) →
        ∀ p ∈ peers, ∃ c, (run (step strategy) published spread).held p k = some c ∧
          c.data = (gathered.generation k + 1, blob) := by
  intro gathered published hmerged hspreads p hp
  have hcopies := copies_gathered hv ha hflight hauthor hgather
  obtain ⟨d, hd, hdauthor, hddata, hdversion⟩ :=
    publication_above (k := k) hv blob bleachTtl updateInterval hgather hmerged
  -- what is spread is the publication, or older
  have hfresh : CopiesAre (fun c => c.author = a ∧
      (c.version < d.version ∨ c.version = d.version ∧ c.data = d.data)) (insert a peers) k
      (run (step strategy) published spread) := by
    have hold : ∀ c : Entry (Payload B), (∃ q ∈ peers, ∃ c₀, net.held q k = some c₀ ∧
        c.version ≤ c₀.version) → c.version < d.version := by
      rintro c ⟨q, hq, c₀, hc₀, hle⟩
      exact hle.trans_lt (hdversion q hq c₀ hc₀)
    refine copiesAre_run hv (fun c hc => hc.1) (fun c hc => hc) ?_ ⟨?_, ?_⟩ hspread
    · exact fun hc => ha (Finset.mem_inter.mp hc).1
    · intro node hnode c hc
      by_cases hne : node = a
      · subst hne
        obtain rfl := Option.some.inj (hd.symm.trans hc)
        exact ⟨hdauthor, Or.inr ⟨rfl, rfl⟩⟩
      · have hpeer := (Finset.mem_insert.mp hnode).resolve_left hne
        rw [held_insert, if_neg hne] at hc
        obtain ⟨hcauthor, hbefore⟩ := hcopies.held node hpeer c hc
        exact ⟨hcauthor, Or.inl (hold c hbefore)⟩
    · intro slice hslice c hc
      obtain ⟨hcauthor, hbefore⟩ := hcopies.flight slice hslice c hc
      exact ⟨hcauthor, Or.inl (hold c hbefore)⟩
  obtain ⟨c, hc, hle⟩ := merged_version hv hspread (hspreads p hp) hd
  obtain ⟨-, hlt | ⟨-, hdata⟩⟩ := hfresh.held p (Finset.mem_insert_of_mem hp) c hc
  · omega
  · exact ⟨c, hc, hdata.trans hddata⟩

/-- The node `a` has rebooted; `b` and `c` hold what it published before. -/
def rebootedAuthor : Simulation ℕ where
  state := fun node =>
    if node = bytes "b" then (∅ : State _).set (bytes "k") ⟨bytes "a", 200, (5, 5), 5, false⟩
    else if node = bytes "c" then (∅ : State _).set (bytes "k") ⟨bytes "a", 190, (4, 4), 4, false⟩
    else ∅
  flight := []
  published := fun _ => [1, 2, 3, 4, 5]

/-- Both send what they have, and `a` merges the older copy first. -/
def gatherRound : List (SimEvent ℕ) :=
  [.send (bytes "b"), .send (bytes "c"), .deliver (bytes "a") 1, .deliver (bytes "a") 0]

/-- The node `a` sends what it has published, and both merge it. -/
def spreadRound : List (SimEvent ℕ) :=
  [.send (bytes "a"), .deliver (bytes "b") 2, .deliver (bytes "c") 2]

/-- The network in the end. -/
def recoveredNetwork : Simulation ℕ :=
  run (step .v2r) (step .v2r (run (step .v2r) rebootedAuthor gatherRound)
    (.insert (bytes "a") (bytes "k") 6 300 30)) spreadRound

/-- Both have the new publication. -/
theorem recovery_completes_twoPeers :
    (∃ c, recoveredNetwork.held (bytes "b") (bytes "k") = some c ∧ c.data = (6, 6)) ∧
      ∃ c, recoveredNetwork.held (bytes "c") (bytes "k") = some c ∧ c.data = (6, 6) := by
  have hgeneration : (run (step .v2r) rebootedAuthor gatherRound).generation (bytes "k") = 5 := by
    decide +kernel
  have hlength : (run (step .v2r) (step .v2r (run (step .v2r) rebootedAuthor gatherRound)
      (.insert (bytes "a") (bytes "k") 6 300 30)) []).flight.length = 2 := by decide +kernel
  have hv : Strategy.v2r.Versioned := Or.inr rfl
  have hrecovers := recovery_completes hv (bytes "a") (bytes "k") 6 300 30
    {bytes "b", bytes "c"} (by decide +kernel) rebootedAuthor rfl ?_ gatherRound spreadRound
    ?_ ?_ ?_ ?_
  · rw [hgeneration] at hrecovers
    exact ⟨hrecovers _ (Finset.mem_insert_self _ _), hrecovers _ (by decide +kernel)⟩
  · have hauthors : ∀ p ∈ ({bytes "b", bytes "c"} : Finset StdString),
        (rebootedAuthor.held p (bytes "k")).map Entry.author = some (bytes "a") := by
      decide +kernel
    intro p hp c hc
    have hauthor := hauthors p hp
    rw [hc] at hauthor
    exact Option.some.inj hauthor
  · decide +kernel
  · decide +kernel
  · intro p hp
    simp only [Finset.mem_insert, Finset.mem_singleton] at hp
    rcases hp with rfl | rfl
    · exact ⟨[], [.send (bytes "c"), .deliver (bytes "a") 1], List.prefix_rfl⟩
    · exact ⟨[.send (bytes "b")], [], [.deliver (bytes "a") 0], rfl⟩
  · intro p hp
    simp only [Finset.mem_insert, Finset.mem_singleton] at hp
    rcases hp with rfl | rfl
    · refine ⟨[], [], [.deliver (bytes "c") 2], ?_⟩
      rw [hlength]
      rfl
    · refine ⟨[], [.deliver (bytes "b") 2], [], ?_⟩
      rw [hlength]
      rfl

end Simulation

end SpecSuite

end SharedStateAsync
