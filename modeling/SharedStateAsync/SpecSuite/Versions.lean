/-
Versions and generations (`tests/spec-suite`, strategies `v2` and `v2r`).

Where a key is inserted at one node only and that node does not lose its entry, the version
of every copy of the key is the number of the insert it comes from. So the order of versions
is the order of publication, and no merge brings back older data.

* `kept_cases`: what a versioned merge keeps of two copies;
* `CarriesInsert`: a copy carries the data and the number of an insert;
* `Tracking`, `tracking_step`, `tracking_run`: the invariant of the network;
* `held_monotone_step`, `deliver_adopts`: what follows for one step;
* `TracksInserts`, `tracksInserts`: runs.
-/
import SharedStateAsync.SpecSuite.Network

namespace SharedStateAsync

namespace SpecSuite

open Machine

/-- The strategies with a version counter. -/
def Strategy.Versioned (strategy : Strategy) : Prop := strategy = .v2 ∨ strategy = .v2r

lemma kept_of_versioned {D : Type} {strategy : Strategy} (hv : strategy.Versioned) (remote : Bool)
    (hostname : StdString) (known e : Entry D) :
    kept remote hostname strategy (some known) e
      = if recoveryApplies strategy remote (known.author == hostname) known e
        then { known with version := e.version + 1 }
        else if known.version < e.version ∨ e.version = known.version ∧ known.ttl < e.ttl
          then e.adopted else known := if_pos hv

/-- **What a versioned merge keeps**: it recovers the counter of its own entry, takes the copy of
the slice, or keeps the one it has. -/
lemma kept_cases {D : Type} {strategy : Strategy} (hv : strategy.Versioned) (remote : Bool)
    (hostname : StdString) (known e : Entry D) :
    (recoveryApplies strategy remote (known.author == hostname) known e = true ∧
        kept remote hostname strategy (some known) e = { known with version := e.version + 1 }) ∨
      ((known.version < e.version ∨ e.version = known.version ∧ known.ttl < e.ttl) ∧
        recoveryApplies strategy remote (known.author == hostname) known e = false ∧
        kept remote hostname strategy (some known) e = e.adopted) ∨
      (e.version ≤ known.version ∧ kept remote hostname strategy (some known) e = known) := by
  rw [kept_of_versioned hv]
  cases hrec : recoveryApplies strategy remote (known.author == hostname) known e with
  | true => exact Or.inl ⟨rfl, if_pos rfl⟩
  | false =>
      rw [if_neg Bool.false_ne_true]
      by_cases htake : known.version < e.version ∨ e.version = known.version ∧ known.ttl < e.ttl
      · exact Or.inr (Or.inl ⟨htake, rfl, if_pos htake⟩)
      · exact Or.inr (Or.inr ⟨not_lt.mp fun hlt => htake (Or.inl hlt), if_neg htake⟩)

/-- The recovery is for the entries of the host that lag behind the echo. -/
lemma recoveryApplies_iff {D : Type} {strategy : Strategy} {remote : Bool} {hostname : StdString}
    {known e : Entry D} :
    recoveryApplies strategy remote (known.author == hostname) known e = true ↔
      remote = true ∧ known.author = hostname ∧ known.version < e.version ∧
        (strategy = .v2r → known.isLocal = true) := by
  rw [recoveryApplies]
  by_cases hv : strategy = .v2r
  · simp [hv, and_assoc]
  · simp [hv, and_assoc]

namespace Simulation

variable {B : Type}

/-- The copy carries the data of an insert, and its number as the version. -/
def CarriesInsert (net : Simulation B) (k : StdString) (c : Entry (Payload B)) : Prop :=
  ∃ (n : ℕ) (blob : B), (net.published k)[n]? = some blob ∧ c.data = (n + 1, blob) ∧
    c.version = n + 1

lemma CarriesInsert.version_eq {net : Simulation B} {k : StdString} {c : Entry (Payload B)}
    (h : net.CarriesInsert k c) : c.version = c.data.1 := by
  obtain ⟨n, blob, -, hdata, hversion⟩ := h
  rw [hversion, hdata]
  push_cast
  rfl

lemma CarriesInsert.le_generation {net : Simulation B} {k : StdString} {c : Entry (Payload B)}
    (h : net.CarriesInsert k c) : c.data.1 ≤ net.generation k := by
  obtain ⟨n, blob, hblob, hdata, -⟩ := h
  rw [hdata]
  exact (List.getElem?_eq_some_iff.mp hblob).1

/-- Every copy of the key is of the author, and carries an insert; the author has the last. -/
structure Tracking (a k : StdString) (net : Simulation B) : Prop where
  author : ∀ c, net.Copy k c → c.author = a
  carries : ∀ c, net.Copy k c → net.CarriesInsert k c
  latest : ∀ c, net.held a k = some c → c.data.1 = net.generation k

lemma tracking_empty (a k : StdString) : Tracking a k (empty B) where
  author := by
    rintro c (⟨node, hc⟩ | ⟨slice, hslice, -⟩)
    · cases hc
    · cases hslice
  carries := by
    rintro c (⟨node, hc⟩ | ⟨slice, hslice, -⟩)
    · cases hc
    · cases hslice
  latest := fun c hc => by cases hc

section Step

variable [BEq B] {strategy : Strategy} {net : Simulation B} {a k : StdString}

lemma CarriesInsert.step {c : Entry (Payload B)} (h : net.CarriesInsert k c) (ev : SimEvent B) :
    (step strategy net ev).CarriesInsert k c := by
  obtain ⟨n, blob, hblob, hdata⟩ := h
  obtain ⟨more, hmore⟩ := published_prefix_step strategy net k ev
  refine ⟨n, blob, ?_, hdata⟩
  rw [← hmore, List.getElem?_append_left (List.getElem?_eq_some_iff.mp hblob).1, hblob]

omit [BEq B] in
/-- The counter of the author is never behind. -/
lemma Tracking.not_recovery (h : Tracking a k net) {node : StdString} {known e : Entry (Payload B)}
    (hknown : net.held node k = some known) (he : net.Copy k e) :
    recoveryApplies strategy true (known.author == node) known e = false := by
  by_contra hrec
  rw [Bool.not_eq_false, recoveryApplies_iff] at hrec
  obtain ⟨-, hown, hlt, -⟩ := hrec
  have hcopy := Copy.of_held hknown
  rw [h.author known hcopy] at hown
  subst hown
  have hlatest := h.latest known hknown
  have hle := (h.carries e he).le_generation
  rw [(h.carries known hcopy).version_eq, (h.carries e he).version_eq] at hlt
  omega

omit [BEq B] in
/-- What the author inserts has the next version. -/
lemma authorInsert_get?_self {state : State (Payload B)} {data : Payload B}
    {bleachTtl updateInterval : ℤ} {c : Entry (Payload B)} (hv : strategy.Versioned)
    (h : (authorInsert state a k data strategy bleachTtl updateInterval).get? k = some c) :
    c.author = a ∧ c.data = data ∧ c.isLocal = true ∧
      c.version = (state.get? k).elim 1 fun prev => prev.version + 1 := by
  rw [authorInsert, Dict.get?_set, if_pos rfl] at h
  obtain rfl := Option.some.inj h
  exact ⟨rfl, rfl, rfl, if_pos hv⟩

omit [BEq B] in
/-- What a delivery leaves, when the author has not lost its entry: the copy of the slice if its
generation is not older, or what was there. -/
lemma Tracking.kept_cases (h : Tracking a k net) (hv : strategy.Versioned) {node : StdString}
    {known e : Entry (Payload B)} (hknown : net.held node k = some known) (he : net.Copy k e) :
    (known.data.1 ≤ e.data.1 ∧ kept true node strategy (some known) e = e.adopted) ∨
      (e.data.1 ≤ known.data.1 ∧ kept true node strategy (some known) e = known) := by
  have hversion := (h.carries known (Copy.of_held hknown)).version_eq
  have hversion' := (h.carries e he).version_eq
  rcases SpecSuite.kept_cases hv true node known e with ⟨hrec, -⟩ | ⟨htake, -, hkept⟩ | ⟨hle, hkept⟩
  · rw [h.not_recovery hknown he] at hrec
    cases hrec
  · exact Or.inl ⟨by omega, hkept⟩
  · exact Or.inr ⟨by omega, hkept⟩

/-- What a step leaves at a node is of the author and carries an insert. -/
lemma Tracking.held_step (h : Tracking a k net) (hv : strategy.Versioned) {ev : SimEvent B}
    (honly : ∀ node, Inserts node k ev → node = a)
    (hheld : 0 < net.generation k → (net.held a k).isSome) {node : StdString}
    {c : Entry (Payload B)} (hc : (step strategy net ev).held node k = some c) :
    c.author = a ∧ (step strategy net ev).CarriesInsert k c := by
  rcases Simulation.held_step hc with ⟨-, c₀, ttl, hc₀, rfl⟩ |
    ⟨blob, bleachTtl, updateInterval, rfl, hins⟩ | ⟨i, slice, e, rfl, hi, he, rfl⟩
  · have hcopy := Copy.of_held hc₀
    exact ⟨h.author c₀ hcopy, (h.carries c₀ hcopy).step _⟩
  · obtain rfl := honly node ⟨rfl, rfl⟩
    obtain ⟨hauthor, hdata, -, hversion⟩ := authorInsert_get?_self hv hins
    refine ⟨hauthor, net.generation k, blob, ?_, hdata, ?_⟩
    · rw [published_step_insert, generation, List.getElem?_concat_length]
    · rw [hversion]
      cases hprev : (net.state node).get? k with
      | none =>
          -- nothing was inserted before, or it would be there
          have hzero : ¬ 0 < net.generation k := fun hpos => by
            have hsome := hheld hpos
            rw [held, hprev] at hsome
            cases hsome
          rw [Option.elim_none]
          omega
      | some prev =>
          have hlatest := h.latest prev hprev
          rw [Option.elim_some, (h.carries prev (Copy.of_held hprev)).version_eq, hlatest]
  · have hcopy := Copy.of_flight hi he
    have he' : e.author = a ∧ (step strategy net (.deliver node i)).CarriesInsert k e :=
      ⟨h.author e hcopy, (h.carries e hcopy).step _⟩
    cases hknown : net.held node k with
    | none => exact he'
    | some known =>
        rcases h.kept_cases hv hknown hcopy with ⟨-, hkept⟩ | ⟨-, hkept⟩
        · rw [hkept]
          exact he'
        · rw [hkept]
          have hcopy' := Copy.of_held hknown
          exact ⟨h.author known hcopy', (h.carries known hcopy').step _⟩

/-- **A step keeps track**, as long as the author has not lost its entry. -/
lemma tracking_step (h : Tracking a k net) (hv : strategy.Versioned) {ev : SimEvent B}
    (honly : ∀ node, Inserts node k ev → node = a)
    (hheld : 0 < net.generation k → (net.held a k).isSome) :
    Tracking a k (step strategy net ev) := by
  have hcopy : ∀ c, (step strategy net ev).Copy k c →
      c.author = a ∧ (step strategy net ev).CarriesInsert k c := by
    rintro c (⟨node, hc⟩ | ⟨slice, hslice, hc⟩)
    · exact h.held_step hv honly hheld hc
    · have hold : net.Copy k c := by
        rcases flight_step hslice with hslice | ⟨node, rfl⟩
        · exact Or.inr ⟨slice, hslice, hc⟩
        · exact Copy.of_held hc
      exact ⟨h.author c hold, (h.carries c hold).step _⟩
  refine ⟨fun c hc => (hcopy c hc).1, fun c hc => (hcopy c hc).2, fun c hc => ?_⟩
  rcases held_step hc with ⟨hnot, c₀, ttl, hc₀, rfl⟩ |
    ⟨blob, bleachTtl, updateInterval, rfl, hins⟩ | ⟨i, slice, e, rfl, hi, he, rfl⟩
  · have hnone : ∀ node, ¬ Inserts node k ev := fun node hins => hnot (honly node hins ▸ hins)
    rw [generation_step_of_not hnone]
    exact h.latest c₀ hc₀
  · obtain ⟨-, hdata, -⟩ := authorInsert_get?_self hv hins
    rw [hdata, generation_step_insert]
  · have hgen : (step strategy net (.deliver a i)).generation k = net.generation k :=
      generation_step_of_not fun _ => not_false
    have hle := (h.carries e (Copy.of_flight hi he)).le_generation
    rw [hgen]
    cases hknown : net.held a k with
    | none =>
        obtain ⟨n, blob, hblob, hdata, -⟩ := h.carries e (Copy.of_flight hi he)
        have hsome := hheld (by rw [hdata] at hle; omega)
        rw [hknown] at hsome
        cases hsome
    | some known =>
        have hlatest := h.latest known hknown
        rcases h.kept_cases hv hknown (Copy.of_flight hi he) with ⟨hge, hkept⟩ | ⟨-, hkept⟩
        · rw [hkept, Entry.adopted]
          dsimp only
          omega
        · rw [hkept]
          exact hlatest

/-- The generation at a node does not decrease in a step. -/
lemma Tracking.held_monotone_step (h : Tracking a k net) (hv : strategy.Versioned) {ev : SimEvent B}
    {node : StdString} {c c' : Entry (Payload B)} (hc : net.held node k = some c)
    (hc' : (step strategy net ev).held node k = some c') : c.data.1 ≤ c'.data.1 := by
  rcases Simulation.held_step hc' with ⟨-, c₀, ttl, hc₀, rfl⟩ |
    ⟨blob, bleachTtl, updateInterval, rfl, hins⟩ | ⟨i, slice, e, rfl, hi, he, rfl⟩
  · exact (congrArg (fun c : Entry (Payload B) => c.data.1)
      (Option.some.inj (hc.symm.trans hc₀))).le
  · obtain ⟨-, hdata, -⟩ := authorInsert_get?_self hv hins
    have hle := (h.carries c (Copy.of_held hc)).le_generation
    rw [hdata]
    exact Nat.le_succ_of_le hle
  · rw [hc]
    rcases h.kept_cases hv hc (Copy.of_flight hi he) with ⟨hle, hkept⟩ | ⟨-, hkept⟩
    · rw [hkept]
      exact hle
    · rw [hkept]

/-- A node takes the data of a newer generation. -/
lemma Tracking.deliver_adopts (h : Tracking a k net) (hv : strategy.Versioned) {node : StdString}
    {i : ℕ} {slice : State (Payload B)} {e : Entry (Payload B)} (hi : net.flight[i]? = some slice)
    (he : slice.get? k = some e) (hnewer : ∀ c, net.held node k = some c → c.data.1 < e.data.1) :
    ∃ c', (step strategy net (.deliver node i)).held node k = some c' ∧ c'.data = e.data := by
  have hstep : (step strategy net (.deliver node i)).held node k
      = some (kept true node strategy (net.held node k) e) := by
    rw [step]
    simp only [hi]
    rw [held_setState, if_pos rfl, merge_get?, he, Option.elim_some]
    rfl
  refine ⟨_, hstep, ?_⟩
  cases hknown : net.held node k with
  | none => rfl
  | some known =>
      rcases h.kept_cases hv hknown (Copy.of_flight hi he) with ⟨-, hkept⟩ | ⟨hle, -⟩
      · rw [hkept]
        rfl
      · exact absurd (hnewer known hknown) (not_lt.mpr hle)

end Step

/-! ### Runs -/

section Run

variable [BEq B]

/-- Along the run, every copy of the key has as its version the number of the insert whose data
it carries; while a node has the key its generation does not decrease; and a node that merges a
snapshot with a newer generation takes its data. -/
structure TracksInserts (strategy : Strategy) (k : StdString) (evs : List (SimEvent B)) : Prop where
  versions : ∀ pre, pre <+: evs → ∀ c, (run (step strategy) (empty B) pre).Copy k c →
    (run (step strategy) (empty B) pre).CarriesInsert k c
  monotone : ∀ pre ev, pre ++ [ev] <+: evs → ∀ node c c',
    (run (step strategy) (empty B) pre).held node k = some c →
    (run (step strategy) (empty B) (pre ++ [ev])).held node k = some c' → c.data.1 ≤ c'.data.1
  adopts : ∀ pre node i, pre ++ [.deliver node i] <+: evs → ∀ slice e,
    (run (step strategy) (empty B) pre).flight[i]? = some slice → slice.get? k = some e →
    (∀ c, (run (step strategy) (empty B) pre).held node k = some c → c.data.1 < e.data.1) →
    ∃ c', (run (step strategy) (empty B) (pre ++ [.deliver node i])).held node k = some c' ∧
      c'.data = e.data

/-- The author has the key in every state after its first insert. -/
def NeverLost (strategy : Strategy) (a k : StdString) (evs : List (SimEvent B)) : Prop :=
  Throughout (step strategy) (fun net => 0 < net.generation k → (net.held a k).isSome) (empty B) evs

/-- **The network keeps track** along a run. -/
lemma tracking_run {strategy : Strategy} (hv : strategy.Versioned) {a k : StdString}
    {evs : List (SimEvent B)} (honly : OnlyAt a k evs) (hheld : NeverLost strategy a k evs) :
    ∀ pre, pre <+: evs → Tracking a k (run (step strategy) (empty B) pre) := by
  refine run_induction (Q := fun pre => Tracking a k (run (step strategy) (empty B) pre))
    (tracking_empty a k) fun pre ev hpre h => ?_
  rw [run_concat]
  exact tracking_step h hv (honly ev (hpre.subset (by simp)))
    (hheld pre ((List.prefix_append _ _).trans hpre))

/-- **Versions are generations**: where the key is inserted at one node only, and that node does
not lose it. -/
theorem tracksInserts {strategy : Strategy} (hv : strategy.Versioned) {a k : StdString}
    {evs : List (SimEvent B)} (honly : OnlyAt a k evs) (hheld : NeverLost strategy a k evs) :
    TracksInserts strategy k evs := by
  have htrack := tracking_run hv honly hheld
  refine ⟨fun pre hpre c hc => (htrack pre hpre).carries c hc, ?_, ?_⟩
  · intro pre ev hpre node c c' hc hc'
    rw [run_concat] at hc'
    exact (htrack pre ((List.prefix_append _ _).trans hpre)).held_monotone_step hv hc hc'
  · intro pre node i hpre slice e hi he hnewer
    rw [run_concat]
    exact (htrack pre ((List.prefix_append _ _).trans hpre)).deliver_adopts hv hi he hnewer

/-- The node `a` publishes twice, and `b` hears of the first and of the second. -/
def twoPublications : List (SimEvent ℕ) :=
  [.insert (bytes "a") (bytes "k") 7 300 30, .send (bytes "a"), .deliver (bytes "b") 0,
    .insert (bytes "a") (bytes "k") 8 300 30, .send (bytes "a"), .deliver (bytes "b") 1]

theorem tracksInserts_twoPublications :
    TracksInserts .v2r (bytes "k") twoPublications ∧
      ((run (step .v2r) (empty ℕ) twoPublications).held (bytes "b") (bytes "k")).map Entry.data
        = some (2, 8) := by
  refine ⟨tracksInserts (Or.inr rfl) (a := bytes "a") ?_ ?_, by decide +kernel⟩
  · intro ev hev node hins
    simp only [twoPublications, List.mem_cons, List.not_mem_nil, or_false] at hev
    rcases hev with rfl | rfl | rfl | rfl | rfl | rfl
    · exact hins.1.symm
    · cases hins
    · cases hins
    · exact hins.1.symm
    · cases hins
    · cases hins
  · have hall : ∀ pre ∈ twoPublications.inits,
        0 < (run (step .v2r) (empty ℕ) pre).generation (bytes "k") →
        ((run (step .v2r) (empty ℕ) pre).held (bytes "a") (bytes "k")).isSome := by
      decide +kernel
    exact fun pre hpre => hall pre ((List.mem_inits _ _).mpr hpre)

end Run

end Simulation

end SpecSuite

end SharedStateAsync
