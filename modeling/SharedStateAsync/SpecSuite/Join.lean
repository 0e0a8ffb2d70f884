/-
What the merges of the model of the spec suite agree on.

A merge of a slice that has been merged before does nothing. Merges of slices from
different nodes do not depend on their order, on how often a slice arrives and on whom it
has passed through, as long as the entries of a key are ranked and a node that merges has
nothing to learn about its own entries.

* `merge_merge`: a merge that is repeated;
* `Entry.rank`: what a strategy compares entries by;
* `Ranked`: the assumption on the states at the start;
* `simulation_isTop_heard`: every node holds the top entry of the nodes it has heard of,
  and nodes that have heard of the same nodes hold the same.
-/
import SharedStateAsync.Lib.Gossip
import SharedStateAsync.Lib.TopCopy
import SharedStateAsync.SpecSuite.Versions
import Mathlib.Data.Prod.Lex

namespace SharedStateAsync

namespace SpecSuite

open Machine TopCopy Gossip

variable {D : Type}

/-! ### A merge that is repeated -/

section Repeat

variable {remote : Bool} {hostname : StdString} {strategy : Strategy}

@[simp] lemma Entry.adopted_ttl (e : Entry D) : e.adopted.ttl = e.ttl := rfl

@[simp] lemma Entry.adopted_version (e : Entry D) : e.adopted.version = e.version := rfl

@[simp] lemma Entry.adopted_author (e : Entry D) : e.adopted.author = e.author := rfl

@[simp] lemma Entry.adopted_data (e : Entry D) : e.adopted.data = e.data := rfl

@[simp] lemma Entry.adopted_adopted (e : Entry D) : e.adopted.adopted = e.adopted := rfl

/-- What a merge of `e` keeps, it keeps when `e` comes again. -/
lemma kept_kept (known : Option (Entry D)) (e : Entry D) :
    kept remote hostname strategy (some (kept remote hostname strategy known e)) e
      = kept remote hostname strategy known e := by
  have hadopted : kept remote hostname strategy (some e.adopted) e = e.adopted := by
    simp only [kept, recoveryApplies, Entry.adopted_version, Entry.adopted_ttl, gt_iff_lt,
      lt_self_iff_false, decide_false, Bool.and_false, Bool.false_and, or_self, and_false,
      ite_self, Bool.false_eq_true, if_false]
  cases known with
  | none => exact hadopted
  | some known =>
      have hcases : kept remote hostname strategy (some known) e = known ∨
          kept remote hostname strategy (some known) e = e.adopted ∨
          strategy.Versioned ∧
            kept remote hostname strategy (some known) e
              = { known with version := e.version + 1 } := by
        rw [kept]
        split_ifs with hv
        · exact Or.inr (Or.inr ⟨hv, rfl⟩)
        · exact Or.inr (Or.inl rfl)
        · exact Or.inl rfl
        · exact Or.inl rfl
        · exact Or.inr (Or.inl rfl)
        · exact Or.inl rfl
      rcases hcases with hkept | hkept | ⟨hv, hkept⟩
      · rw [hkept, hkept]
      · rw [hkept, hadopted]
      · rw [hkept, kept_of_versioned hv]
        -- the counter is now past the one of the echo
        have hrec : recoveryApplies strategy remote
            (({ known with version := e.version + 1 } : Entry D).author == hostname)
            { known with version := e.version + 1 } e = false := by
          rw [Bool.eq_false_iff, ne_eq, recoveryApplies_iff]
          rintro ⟨-, -, hlt, -⟩
          dsimp only at hlt
          omega
        rw [hrec, if_neg Bool.false_ne_true, if_neg]
        dsimp only
        omega

variable [BEq D] [ReflBEq D]

/-- A merge of an entry that leaves the copy of the node as it is leaves the state as it is. -/
lemma mergeItem_of_kept {acc : State D × MergeResult} {k : StdString} {known e : Entry D}
    (hknown : acc.1.get? k = some known)
    (hkept : kept remote hostname strategy (some known) e = known) :
    (mergeItem remote hostname strategy acc k e).1 = acc.1 ∧
      (mergeItem remote hostname strategy acc k e).2.significant = acc.2.significant := by
  have hset : ∀ {c : Entry D}, c = known → acc.1.set k c = acc.1 := fun hc =>
    Dict.set_eq_self (hc ▸ hknown)
  have hdata : e.adopted = known → (known.data != e.data) = false := by
    rintro rfl
    rw [Entry.adopted_data, bne, BEq.rfl, Bool.not_true]
  rw [mergeItem, hknown]
  dsimp only
  rw [kept] at hkept
  by_cases hv : strategy = .v2 ∨ strategy = .v2r
  · rw [if_pos hv] at hkept ⊢
    by_cases hrec : recoveryApplies strategy remote (known.author == hostname) known e = true
    · rw [if_pos hrec] at hkept ⊢
      exact ⟨hset hkept, rfl⟩
    · rw [if_neg hrec] at hkept ⊢
      by_cases hgt : e.version > known.version
      · rw [if_pos (Or.inl hgt)] at hkept
        rw [if_pos hgt, hdata hkept]
        exact ⟨hset hkept, rfl⟩
      · rw [if_neg hgt]
        by_cases htie : e.version = known.version ∧ e.ttl > known.ttl
        · rw [if_pos (Or.inr htie)] at hkept
          rw [if_pos htie]
          exact ⟨hset hkept, rfl⟩
        · rw [if_neg htie]
          exact ⟨rfl, rfl⟩
  · rw [if_neg hv] at hkept ⊢
    by_cases hill : (remote && known.author == hostname && decide (e.ttl > known.ttl)) = true
    · rw [if_pos hill]
      exact ⟨rfl, rfl⟩
    · rw [if_neg hill] at hkept ⊢
      by_cases hok : thresholdOk strategy remote (known.author == hostname) known e = true
      · rw [if_pos hok] at hkept ⊢
        rw [hdata hkept]
        exact ⟨hset hkept, rfl⟩
      · rw [if_neg hok]
        exact ⟨rfl, rfl⟩

variable (remote hostname strategy) in
/-- A loop over entries that have all been merged. -/
lemma foldl_mergeItem_of_kept (acc : State D × MergeResult) (items : List (StdString × Entry D))
    (h : ∀ p ∈ items, ∃ known, acc.1.get? p.1 = some known ∧
      kept remote hostname strategy (some known) p.2 = known) :
    let acc' := items.foldl (fun acc p => mergeItem remote hostname strategy acc p.1 p.2) acc
    acc'.1 = acc.1 ∧ acc'.2.significant = acc.2.significant := by
  induction items generalizing acc with
  | nil => exact ⟨rfl, rfl⟩
  | cons p items ih =>
      obtain ⟨known, hknown, hkept⟩ := h p List.mem_cons_self
      obtain ⟨hstate, hsignificant⟩ := mergeItem_of_kept hknown hkept
      have hrest := ih (mergeItem remote hostname strategy acc p.1 p.2) (by
        rw [hstate]
        exact fun q hq => h q (List.mem_cons_of_mem p hq))
      exact ⟨hrest.1.trans hstate, hrest.2.trans hsignificant⟩

/-- **A slice that has been merged has nothing left to say**: merged once more, under any
strategy, it changes nothing, and no hook would be run. -/
theorem merge_merge (state slice : State D) (remote : Bool) (hostname : StdString)
    (strategy : Strategy) :
    let once := (merge state slice remote hostname strategy).1
    (merge once slice remote hostname strategy).1 = once ∧
      (merge once slice remote hostname strategy).2.significant = 0 := by
  intro once
  refine foldl_mergeItem_of_kept remote hostname strategy (once, {}) slice.items ?_
  intro p hp
  have hslice : slice.get? p.1 = some p.2 := Dict.get?_eq_some.mpr hp
  refine ⟨_, ?_, kept_kept (state.get? p.1) p.2⟩
  rw [merge_get?, hslice, Option.elim_some]

/-- A recovered counter is past the echo when it comes again. -/
theorem merge_merge_recovered :
    let state : State ℕ := (∅ : State ℕ).set (bytes "k") ⟨bytes "A", 300, 6, 1, true⟩
    let slice : State ℕ := (∅ : State ℕ).set (bytes "k") ⟨bytes "A", 400, 5, 5, false⟩
    let once := (merge state slice true (bytes "A") .v2r).1
    once.get? (bytes "k") = some ⟨bytes "A", 300, 6, 6, true⟩ ∧
      (merge once slice true (bytes "A") .v2r).1 = once ∧
      (merge once slice true (bytes "A") .v2r).2.significant = 0 := by
  intro state slice once
  refine ⟨?_, merge_merge state slice true (bytes "A") .v2r⟩
  rw [merge_get?, Dict.get?_set, Dict.get?_set, if_pos rfl, if_pos rfl, Option.elim_some, kept,
    recoveryApplies]
  simp

end Repeat

/-! ### What entries are compared by -/

/-- What a strategy compares the entries of a key by. -/
def Entry.rank (strategy : Strategy) (e : Entry D) : ℤ ×ₗ ℤ :=
  if strategy = .v2 ∨ strategy = .v2r then toLex (e.version, e.ttl) else toLex (e.ttl, 0)

/-- The entry a node has for a key, as others adopt it. -/
def copies (init : StdString → State D) (k node : StdString) : Option (Entry D) :=
  ((init node).get? k).map Entry.adopted

/-- The states at the start are ranked: entries of a key that are ranked alike are equal,
and a node of which an entry is around has a top entry of its own, if it merges. -/
structure Ranked (strategy : Strategy) (acts : List (Act StdString))
    (init : StdString → State D) : Prop where
  ties : ∀ k m n e e', copies init k m = some e → copies init k n = some e' →
    e.rank strategy = e'.rank strategy → e = e'
  owners : ∀ n i, Act.deliver n i ∈ acts → ∀ k m e, copies init k m = some e → e.author = n →
    ∃ own, copies init k n = some own ∧
      ∀ m' e', copies init k m' = some e' → e'.rank strategy ≤ own.rank strategy

/-- The state holds the top entries of a group of nodes. -/
def Joined (strategy : Strategy) (init : StdString → State D) (P : Set StdString)
    (state : State D) : Prop :=
  ∀ k, IsTop (Entry.rank strategy) (copies init k) P ((state.get? k).map Entry.adopted)

section Rank

variable {strategy : Strategy} {node : StdString} {a e : Entry D}

/-- The versions first, then the TTLs. -/
lemma rank_le_iff_of_versioned (hv : strategy.Versioned) :
    a.rank strategy ≤ e.rank strategy ↔
      a.version < e.version ∨ a.version = e.version ∧ a.ttl ≤ e.ttl := by
  simp only [Entry.rank, show strategy = .v2 ∨ strategy = .v2r from hv, if_true,
    Prod.Lex.toLex_le_toLex]

/-- The TTLs alone. -/
lemma rank_le_iff_of_not_versioned (hv : ¬ strategy.Versioned) :
    a.rank strategy ≤ e.rank strategy ↔ a.ttl ≤ e.ttl := by
  simp only [Entry.rank, show ¬ (strategy = .v2 ∨ strategy = .v2r) from hv, if_false,
    Prod.Lex.toLex_le_toLex]
  constructor
  · rintro (hlt | ⟨heq, -⟩)
    · exact hlt.le
    · exact heq.le
  · intro hle
    exact hle.lt_or_eq.imp_right fun heq => ⟨heq, le_rfl⟩

/-- The threshold lets a higher TTL pass and stops a lower one. -/
lemma ttl_le_of_thresholdOk {remote own : Bool} :
    (thresholdOk strategy remote own a e = true → a.ttl ≤ e.ttl) ∧
      (¬ thresholdOk strategy remote own a e = true → e.ttl ≤ a.ttl) := by
  rw [thresholdOk]
  split_ifs with hv1i hown
  · rw [decide_eq_true_eq]
    omega
  · rw [decide_eq_true_eq]
    omega
  · rw [decide_eq_true_eq]
    omega

/-- **Every strategy keeps the higher of two entries**, unless a node hears something new
about an entry of its own. -/
lemma kept_greater (hown : a.author = node → e.rank strategy ≤ a.rank strategy) :
    Greater (Entry.rank strategy) a.adopted e.adopted
      (kept true node strategy (some a) e).adopted := by
  have hadopts : a.rank strategy ≤ e.rank strategy →
      Greater (Entry.rank strategy) a.adopted e.adopted e.adopted.adopted :=
    fun hle => Or.inr ⟨rfl, hle⟩
  have hkeeps : e.rank strategy ≤ a.rank strategy →
      Greater (Entry.rank strategy) a.adopted e.adopted a.adopted :=
    fun hle => Or.inl ⟨rfl, hle⟩
  by_cases hv : strategy.Versioned
  · simp only [rank_le_iff_of_versioned hv] at hown hadopts hkeeps
    rw [kept_of_versioned hv]
    split_ifs with hrec htake
    · obtain ⟨-, hauthor, hlt, -⟩ := recoveryApplies_iff.mp hrec
      have := hown hauthor
      omega
    · exact hadopts (by omega)
    · exact hkeeps (by omega)
  · simp only [rank_le_iff_of_not_versioned hv] at hown hadopts hkeeps
    simp only [kept, show ¬ (strategy = .v2 ∨ strategy = .v2r) from hv, if_false]
    split_ifs with hill hok
    · obtain ⟨hauthor, hlt⟩ : a.author = node ∧ a.ttl < e.ttl := by simpa using hill
      have := hown hauthor
      omega
    · exact hadopts (ttl_le_of_thresholdOk.1 hok)
    · exact hkeeps (ttl_le_of_thresholdOk.2 hok)

end Rank

/-! ### Runs of sends and merges -/

section Run

variable {strategy : Strategy} {acts : List (Act StdString)}

@[simp] lemma rank_adopted (e : Entry D) : e.adopted.rank strategy = e.rank strategy := rfl

/-- A node that merges has the top entry as soon as it has an entry of its own. -/
lemma Ranked.rank_le_own {init : StdString → State D} (h : Ranked strategy acts init)
    {node k m : StdString} {i : ℕ} (hmem : Act.deliver node i ∈ acts) {P : Set StdString}
    (hnode : node ∈ P) {a e : Entry D}
    (ha : IsTop (Entry.rank strategy) (copies init k) P (some a.adopted)) (hown : a.author = node)
    (he : copies init k m = some e) : e.rank strategy ≤ a.rank strategy := by
  obtain ⟨m', hm'⟩ := ha.exists_copy
  obtain ⟨own, hinit, hmax⟩ := h.owners node i hmem k m' a.adopted hm' hown
  exact (hmax m e he).trans (ha.2 node hnode own hinit)

variable [BEq D]

/-- A merge joins what the node holds and what the slice holds. -/
lemma joined_merge {init : StdString → State D} (h : Ranked strategy acts init)
    {node : StdString} {i : ℕ} (hmem : Act.deliver node i ∈ acts) {P Q : Set StdString}
    (hnode : node ∈ P) {state slice : State D} (hstate : Joined strategy init P state)
    (hslice : Joined strategy init Q slice) :
    Joined strategy init (P ∪ Q) (merge state slice true node strategy).1 := by
  intro k
  have hP := hstate k
  have hQ := hslice k
  rw [merge_get?]
  cases he : slice.get? k with
  | none =>
      rw [he, Option.map_none] at hQ
      rw [Option.elim_none, Set.union_comm]
      exact hQ.union_none hP
  | some e =>
      rw [he, Option.map_some] at hQ
      rw [Option.elim_some, Option.map_some]
      cases ha : state.get? k with
      | none =>
          rw [ha, Option.map_none] at hP
          exact hP.union_none hQ
      | some a =>
          rw [ha, Option.map_some] at hP
          refine hP.union hQ (kept_greater fun hown => ?_)
          obtain ⟨m, hm⟩ := hQ.exists_copy
          have hle := h.rank_le_own hmem hnode hP hown hm
          rwa [rank_adopted] at hle

end Run

namespace Simulation

variable {B : Type}

/-- The event of the simulator for a send or a merge. -/
def ofAct : Act StdString → SimEvent B
  | .send node => .send node
  | .deliver node i => .deliver node i

/-- The nodes and the snapshots of a simulation. -/
def toNet (net : Simulation B) : Net StdString (State (Payload B)) := ⟨net.state, net.flight⟩

variable [BEq B]

lemma toNet_step (strategy : Strategy) (net : Simulation B) (act : Act StdString) :
    (step strategy net (ofAct act)).toNet
      = net.toNet.step (fun node state slice => (merge state slice true node strategy).1) act := by
  cases act with
  | send node => rfl
  | deliver node i =>
      have hsent : net.toNet.sent = net.flight := rfl
      rw [ofAct, step, Net.step, hsent]
      cases net.flight[i]? with
      | none => rfl
      | some slice => rfl

lemma toNet_run (strategy : Strategy) (net : Simulation B) (acts : List (Act StdString)) :
    (run (step strategy) net (acts.map ofAct)).toNet
      = run (Net.step fun node state slice => (merge state slice true node strategy).1) net.toNet
          acts := by
  induction acts using List.reverseRecOn with
  | nil => rfl
  | append_singleton acts act ih =>
      rw [List.map_append, List.map_singleton, run_concat, run_concat, toNet_step, ih]

/-- **Merges agree, whatever the order**: after any sends and merges each node holds, under
each key, the top entry of the nodes it has heard of. Nodes that have heard of the same
nodes hold the same. -/
theorem simulation_isTop_heard (strategy : Strategy) (acts : List (Act StdString))
    {init : StdString → State (Payload B)} (h : Ranked strategy acts init)
    (published : StdString → List B) :
    let net := run (step strategy) ⟨init, [], published⟩ (acts.map ofAct)
    (∀ node k, IsTop (Entry.rank strategy) (copies init k) (heard acts node)
      ((net.held node k).map Entry.adopted)) ∧
    ∀ node node', heard acts node = heard acts node' → ∀ k,
      (net.held node k).map Entry.adopted = (net.held node' k).map Entry.adopted := by
  intro net
  have hjoined : ∀ node, Joined strategy init (heard acts node) (net.state node) := by
    intro node
    have hheld := (holds_heard acts (fun node k => isTop_singleton (copies init k) node)
      (fun node i P Q state slice hmem hnode hstate hslice =>
        joined_merge h hmem hnode hstate hslice) node).2
    have hnet := toNet_run strategy (⟨init, [], published⟩ : Simulation B) acts
    rw [show (⟨init, [], published⟩ : Simulation B).toNet = ⟨init, []⟩ from rfl] at hnet
    rw [← hnet] at hheld
    exact hheld
  refine ⟨hjoined, fun node node' hsame k => ?_⟩
  have hnode := hjoined node k
  rw [hsame] at hnode
  exact hnode.unique (fun m n e e' he he' hrank => h.ties k m n e e' he he' hrank)
    (hjoined node' k)

/-- One node has published, and another one hears of it. -/
def onePublished (node : StdString) : State (Payload ℕ) :=
  if node = bytes "a" then (∅ : State (Payload ℕ)).set (bytes "k") ⟨bytes "a", 300, (1, 5), 1, true⟩
  else ∅

lemma copies_onePublished {k m : StdString} {e : Entry (Payload ℕ)}
    (h : copies onePublished k m = some e) :
    m = bytes "a" ∧ e = ⟨bytes "a", 300, (1, 5), 1, false⟩ := by
  rw [copies, onePublished] at h
  split_ifs at h with hm
  · rw [Dict.get?_set] at h
    split_ifs at h with hk
    · exact ⟨hm, (Option.some.inj h).symm⟩
    · cases h
  · cases h

theorem simulation_isTop_heard_onePublished :
    let acts : List (Act StdString) := [.send (bytes "a"), .deliver (bytes "b") 0]
    let net := run (step .v2r) ⟨onePublished, [], fun _ => []⟩ (acts.map ofAct)
    (net.held (bytes "b") (bytes "k")).map Entry.data = some (1, 5) ∧
      IsTop (Entry.rank .v2r) (copies onePublished (bytes "k")) (heard acts (bytes "b"))
        ((net.held (bytes "b") (bytes "k")).map Entry.adopted) := by
  intro acts net
  have hranked : Ranked .v2r acts onePublished := by
    refine ⟨fun k m n e e' he he' _ => ?_, fun n i hmem k m e he hown => ?_⟩
    · rw [(copies_onePublished he).2, (copies_onePublished he').2]
    · have hn : n = bytes "b" ∧ i = 0 := by simpa [acts] using hmem
      rw [(copies_onePublished he).2, hn.1] at hown
      exact absurd hown (by decide +kernel)
  refine ⟨?_, (simulation_isTop_heard .v2r acts hranked _).1 (bytes "b") (bytes "k")⟩
  decide +kernel

end Simulation

end SpecSuite

end SharedStateAsync
