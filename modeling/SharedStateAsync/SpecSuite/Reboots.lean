/-
Reboots and the refined version merge (`tests/spec-suite`, strategy `v2r`).

A node that reboots starts its version counter again, while copies of what it published
before are still held by others and in flight. Its own entry recovers when it meets one of
them; the copies it has sent in the meantime do not. Such a copy is exposed: an older
generation with its version or a higher one is around, and replaces it wherever they meet.

* `Exposed`, `Takes`, `Risky`: exposed copies, and merges that take one;
* `Guarded`, `guarded_step`: copies at nodes are not exposed, except the author's own;
* `NeverRegresses`, `neverRegresses`: without such merges no node goes back.
-/
import SharedStateAsync.SpecSuite.Versions

namespace SharedStateAsync

namespace SpecSuite

open Machine

namespace Simulation

variable {B : Type}

/-! ### Exposed copies -/

/-- An older generation is around with the version of the copy, or a higher one. -/
def Exposed (net : Simulation B) (k : StdString) (c : Entry (Payload B)) : Prop :=
  ∃ x, net.Copy k x ∧ x.data.1 < c.data.1 ∧ c.version ≤ x.version

/-- The merge of the node takes the copy `e` in place of what it has. -/
def Takes (node : StdString) : Option (Entry (Payload B)) → Entry (Payload B) → Prop
  | none, _ => True
  | some known, e =>
      recoveryApplies .v2r true (known.author == node) known e = false ∧
        (known.version < e.version ∨ e.version = known.version ∧ known.ttl < e.ttl)

/-- A merge that takes an exposed copy of the key, or one of an older generation that has the
version of the node's local entry. -/
def Risky (k : StdString) (net : Simulation B) : SimEvent B → Prop
  | .deliver node i => ∃ slice e, net.flight[i]? = some slice ∧ slice.get? k = some e ∧
      Takes node (net.held node k) e ∧
      (net.Exposed k e ∨ ∃ known, net.held node k = some known ∧ known.isLocal = true ∧
        e.data.1 < known.data.1 ∧ e.version = known.version)
  | _ => False

/-- The copies of the key are of the author and of generations that were published; local
entries are the author's, of the last generation; no other copy at a node is exposed. -/
structure Guarded (a k : StdString) (net : Simulation B) : Prop where
  author : ∀ c, net.Copy k c → c.author = a
  le : ∀ c, net.Copy k c → c.data.1 ≤ net.generation k
  own : ∀ node c, net.held node k = some c → c.isLocal = true →
    node = a ∧ c.data.1 = net.generation k
  safe : ∀ node c, net.held node k = some c → c.isLocal = false → ¬ net.Exposed k c

lemma guarded_empty (a k : StdString) : Guarded a k (empty B) where
  author := by
    rintro c (⟨node, hc⟩ | ⟨slice, hslice, -⟩)
    · cases hc
    · cases hslice
  le := by
    rintro c (⟨node, hc⟩ | ⟨slice, hslice, -⟩)
    · cases hc
    · cases hslice
  own := fun node c hc => by cases hc
  safe := fun node c hc => by cases hc

/-! ### Steps -/

section Step

variable [BEq B] {net : Simulation B} {a k : StdString}

/-- **What a step can do to the copies of a key**: a copy is one that was there, in its author,
data and version, or it is of the last generation. -/
lemma copy_step (h : Guarded a k net) {ev : SimEvent B}
    (honly : ∀ node, Inserts node k ev → node = a) {c : Entry (Payload B)}
    (hc : (step .v2r net ev).Copy k c) :
    (∃ c₀, net.Copy k c₀ ∧ c.author = c₀.author ∧ c.data = c₀.data ∧ c.version = c₀.version) ∨
      (c.author = a ∧ c.data.1 = (step .v2r net ev).generation k) := by
  rcases hc with ⟨node, hc⟩ | ⟨slice, hslice, hc⟩
  · rcases held_step hc with ⟨-, c₀, ttl, hc₀, rfl⟩ |
      ⟨blob, bleachTtl, updateInterval, rfl, hins⟩ | ⟨i, slice, e, rfl, hi, he, rfl⟩
    · exact Or.inl ⟨c₀, Copy.of_held hc₀, rfl, rfl, rfl⟩
    · obtain rfl := honly node ⟨rfl, rfl⟩
      obtain ⟨hauthor, hdata, -⟩ := authorInsert_get?_self (Or.inr rfl) hins
      refine Or.inr ⟨hauthor, ?_⟩
      rw [hdata, generation_step_insert]
    · have hcopy := Copy.of_flight hi he
      cases hknown : net.held node k with
      | none => exact Or.inl ⟨e, hcopy, rfl, rfl, rfl⟩
      | some known =>
          have hcopy' := Copy.of_held hknown
          rcases kept_cases (Or.inr rfl) true node known e with ⟨hrec, hkept⟩ | ⟨-, -, hkept⟩ |
            ⟨-, hkept⟩
          · -- a recovery is of the local entry, which is of the last generation
            obtain ⟨-, -, -, hlocal⟩ := recoveryApplies_iff.mp hrec
            have hgen : (step .v2r net (.deliver node i)).generation k = net.generation k :=
              generation_step_of_not fun _ => not_false
            rw [hkept, hgen]
            exact Or.inr ⟨h.author known hcopy', (h.own node known hknown (hlocal rfl)).2⟩
          · rw [hkept]
            exact Or.inl ⟨e, hcopy, rfl, rfl, rfl⟩
          · rw [hkept]
            exact Or.inl ⟨known, hcopy', rfl, rfl, rfl⟩
  · rcases flight_step hslice with hslice | ⟨node, rfl⟩
    · exact Or.inl ⟨c, Or.inr ⟨slice, hslice, hc⟩, rfl, rfl, rfl⟩
    · exact Or.inl ⟨c, Copy.of_held hc, rfl, rfl, rfl⟩

/-- A copy that is exposed after a step was exposed before: by a copy that is not of the last
generation. -/
lemma exposed_of_step (h : Guarded a k net) {ev : SimEvent B}
    (honly : ∀ node, Inserts node k ev → node = a) {c : Entry (Payload B)}
    (hle : c.data.1 ≤ (step .v2r net ev).generation k) (hc : (step .v2r net ev).Exposed k c) :
    net.Exposed k c := by
  obtain ⟨x, hx, hlt, hversion⟩ := hc
  rcases copy_step h honly hx with ⟨x₀, hx₀, -, hdata, hversion₀⟩ | ⟨-, hlast⟩
  · exact ⟨x₀, hx₀, by rwa [← hdata], by rwa [← hversion₀]⟩
  · omega

omit [BEq B] in
/-- What a delivery leaves at a node whose copies are guarded, if it is not risky. -/
lemma Guarded.deliver (h : Guarded a k net) {node : StdString} {i : ℕ}
    (hrisk : ¬ Risky k net (.deliver node i)) {slice : State (Payload B)}
    {known e : Entry (Payload B)} (hi : net.flight[i]? = some slice) (he : slice.get? k = some e)
    (hknown : net.held node k = some known) :
    (known.isLocal = true ∧ kept true node .v2r (some known) e
        = { known with version := e.version + 1 }) ∨
      (known.data.1 ≤ e.data.1 ∧ ¬ net.Exposed k e ∧
        kept true node .v2r (some known) e = e.adopted) ∨
      kept true node .v2r (some known) e = known := by
  rcases kept_cases (Or.inr rfl) true node known e with ⟨hrec, hkept⟩ | ⟨htake, hrec, hkept⟩ |
    ⟨-, hkept⟩
  · obtain ⟨-, -, -, hlocal⟩ := recoveryApplies_iff.mp hrec
    exact Or.inl ⟨hlocal rfl, hkept⟩
  · have htakes : Takes node (net.held node k) e := by
      rw [hknown]
      exact ⟨hrec, htake⟩
    have hsafe : ¬ net.Exposed k e := fun hc => hrisk ⟨slice, e, hi, he, htakes, Or.inl hc⟩
    refine Or.inr (Or.inl ⟨?_, hsafe, hkept⟩)
    by_contra hold
    have holder : e.data.1 < known.data.1 := not_le.mp hold
    cases hlocal : known.isLocal with
    | false =>
        -- an older copy that is taken exposes the one it replaces
        exact h.safe node known hknown hlocal
          ⟨e, Copy.of_flight hi he, holder, by omega⟩
    | true =>
        -- the local entry would recover from a higher version
        have hnot : ¬ known.version < e.version := by
          intro hlt
          have hauthor := h.author known (Copy.of_held hknown)
          have hnode := (h.own node known hknown hlocal).1
          have hrec' : recoveryApplies .v2r true (known.author == node) known e = true :=
            recoveryApplies_iff.mpr ⟨rfl, hauthor.trans hnode.symm, hlt, fun _ => hlocal⟩
          cases hrec.symm.trans hrec'
        refine hrisk ⟨slice, e, hi, he, htakes, Or.inr ⟨known, hknown, hlocal, holder, ?_⟩⟩
        omega
  · exact Or.inr (Or.inr hkept)

/-- **A step that is not risky** keeps the copies guarded. -/
lemma guarded_step (h : Guarded a k net) {ev : SimEvent B}
    (honly : ∀ node, Inserts node k ev → node = a) (hrisk : ¬ Risky k net ev) :
    Guarded a k (step .v2r net ev) := by
  have hgen : net.generation k ≤ (step .v2r net ev).generation k :=
    (published_prefix_step .v2r net k ev).length_le
  have hle : ∀ c, (step .v2r net ev).Copy k c → c.data.1 ≤ (step .v2r net ev).generation k := by
    intro c hc
    rcases copy_step h honly hc with ⟨c₀, hc₀, -, hdata, -⟩ | ⟨-, hlast⟩
    · rw [hdata]
      exact (h.le c₀ hc₀).trans hgen
    · exact hlast.le
  refine ⟨fun c hc => ?_, hle, fun node c hc hlocal => ?_, fun node c hc hlocal hexposed => ?_⟩
  · rcases copy_step h honly hc with ⟨c₀, hc₀, hauthor, -⟩ | ⟨hauthor, -⟩
    · exact hauthor.trans (h.author c₀ hc₀)
    · exact hauthor
  · rcases held_step hc with ⟨hnot, c₀, ttl, hc₀, rfl⟩ |
      ⟨blob, bleachTtl, updateInterval, rfl, hins⟩ | ⟨i, slice, e, rfl, hi, he, rfl⟩
    · obtain ⟨rfl, hlast⟩ := h.own node c₀ hc₀ hlocal
      refine ⟨rfl, ?_⟩
      rw [generation_step_of_not fun node' hins => hnot (honly node' hins ▸ hins)]
      exact hlast
    · obtain ⟨-, hdata, -⟩ := authorInsert_get?_self (Or.inr rfl) hins
      refine ⟨honly node ⟨rfl, rfl⟩, ?_⟩
      rw [hdata, generation_step_insert]
    · have hsame : (step .v2r net (.deliver node i)).generation k = net.generation k :=
        generation_step_of_not fun _ => not_false
      rw [hsame]
      cases hknown : net.held node k with
      | none =>
          rw [hknown] at hlocal
          cases hlocal
      | some known =>
          rw [hknown] at hlocal
          rcases h.deliver hrisk hi he hknown with ⟨hlocal', hkept⟩ | ⟨-, -, hkept⟩ | hkept
          · rw [hkept]
            exact h.own node known hknown hlocal'
          · rw [hkept] at hlocal
            cases hlocal
          · rw [hkept] at hlocal ⊢
            exact h.own node known hknown hlocal
  · have hbefore := exposed_of_step h honly (hle c (Copy.of_held hc)) hexposed
    rcases held_step hc with ⟨-, c₀, ttl, hc₀, rfl⟩ |
      ⟨blob, bleachTtl, updateInterval, rfl, hins⟩ | ⟨i, slice, e, rfl, hi, he, rfl⟩
    · exact h.safe node c₀ hc₀ hlocal hbefore
    · obtain ⟨-, -, hlocal', -⟩ := authorInsert_get?_self (Or.inr rfl) hins
      cases hlocal.symm.trans hlocal'
    · cases hknown : net.held node k with
      | none =>
          rw [hknown] at hbefore
          exact hrisk ⟨slice, e, hi, he, by rw [hknown]; trivial, Or.inl hbefore⟩
      | some known =>
          rw [hknown] at hlocal hbefore
          rcases h.deliver hrisk hi he hknown with ⟨hlocal', hkept⟩ | ⟨-, hsafe, hkept⟩ | hkept
          · rw [hkept] at hlocal
            cases hlocal.symm.trans hlocal'
          · rw [hkept] at hbefore
            exact hsafe hbefore
          · rw [hkept] at hlocal hbefore
            exact h.safe node known hknown hlocal hbefore

/-- The generation at a node does not decrease in a step that is not risky. -/
lemma Guarded.held_monotone_step (h : Guarded a k net) {ev : SimEvent B}
    (hrisk : ¬ Risky k net ev) {node : StdString} {c c' : Entry (Payload B)}
    (hc : net.held node k = some c) (hc' : (step .v2r net ev).held node k = some c') :
    c.data.1 ≤ c'.data.1 := by
  rcases held_step hc' with ⟨-, c₀, ttl, hc₀, rfl⟩ |
    ⟨blob, bleachTtl, updateInterval, rfl, hins⟩ | ⟨i, slice, e, rfl, hi, he, rfl⟩
  · exact (congrArg (fun c : Entry (Payload B) => c.data.1)
      (Option.some.inj (hc.symm.trans hc₀))).le
  · obtain ⟨-, hdata, -⟩ := authorInsert_get?_self (Or.inr rfl) hins
    rw [hdata]
    exact Nat.le_succ_of_le (h.le c (Copy.of_held hc))
  · rw [hc]
    rcases h.deliver hrisk hi he hc with ⟨-, hkept⟩ | ⟨hle, -, hkept⟩ | hkept
    · rw [hkept]
    · rw [hkept]
      exact hle
    · rw [hkept]

end Step

/-! ### Runs -/

section Run

variable [BEq B]

/-- While a node has the key, its generation does not decrease. -/
def NeverRegresses (k : StdString) (evs : List (SimEvent B)) : Prop :=
  ∀ pre ev, pre ++ [ev] <+: evs → ∀ node c c',
    (run (step .v2r) (empty B) pre).held node k = some c →
    (run (step .v2r) (empty B) (pre ++ [ev])).held node k = some c' → c.data.1 ≤ c'.data.1

/-- **No node goes back to an older generation** in a run without risky merges. -/
theorem neverRegresses {a k : StdString} {evs : List (SimEvent B)} (honly : OnlyAt a k evs)
    (hrisk : ∀ pre ev, pre ++ [ev] <+: evs → ¬ Risky k (run (step .v2r) (empty B) pre) ev) :
    NeverRegresses k evs := by
  have hguard : ∀ pre, pre <+: evs → Guarded a k (run (step .v2r) (empty B) pre) := by
    refine run_induction (Q := fun pre => Guarded a k (run (step .v2r) (empty B) pre))
      (guarded_empty a k) fun pre ev hpre h => ?_
    rw [run_concat]
    exact guarded_step h (honly ev (hpre.subset (by simp))) (hrisk pre ev hpre)
  intro pre ev hpre node c c' hc hc'
  rw [run_concat] at hc'
  exact (hguard pre ((List.prefix_append _ _).trans hpre)).held_monotone_step
    (hrisk pre ev hpre) hc hc'

end Run

/-! ### A reboot of the author -/

/-- The author publishes twice, sends its state and reboots; it publishes again, and meets the
copy it has sent. -/
def recoveredReboot : List (SimEvent ℕ) :=
  [.insert (bytes "a") (bytes "k") 7 300 30, .insert (bytes "a") (bytes "k") 8 300 30,
    .send (bytes "a"), .reboot (bytes "a"), .insert (bytes "a") (bytes "k") 9 300 30,
    .deliver (bytes "a") 0]

instance (node : StdString) (known : Option (Entry (Payload B))) (e : Entry (Payload B)) :
    Decidable (Takes node known e) :=
  match known with
  | none => isTrue trivial
  | some known => inferInstanceAs (Decidable
      (recoveryApplies .v2r true (known.author == node) known e = false ∧
        (known.version < e.version ∨ e.version = known.version ∧ known.ttl < e.ttl)))

/-- The author recovers its counter, and the new entry has the highest version. -/
theorem neverRegresses_recoveredReboot :
    NeverRegresses (bytes "k") recoveredReboot ∧
      ((run (step .v2r) (empty ℕ) recoveredReboot).held (bytes "a") (bytes "k")).map
        (fun c => (c.data, c.version)) = some ((3, 9), 3) := by
  refine ⟨neverRegresses (a := bytes "a") ?_ ?_, by decide +kernel⟩
  · intro ev hev node hins
    simp only [recoveredReboot, List.mem_cons, List.not_mem_nil, or_false] at hev
    rcases hev with rfl | rfl | rfl | rfl | rfl | rfl
    · exact hins.1.symm
    · exact hins.1.symm
    · cases hins
    · cases hins
    · exact hins.1.symm
    · cases hins
  · intro pre ev hpre
    have hev : recoveredReboot[pre.length]? = some ev := by
      obtain ⟨rest, hrest⟩ := hpre
      rw [← hrest]
      simp
    have htake := List.prefix_iff_eq_take.mp ((List.prefix_append _ _).trans hpre)
    have hlt : pre.length < 6 := (List.getElem?_eq_some_iff.mp hev).1
    generalize pre.length = n at hev htake hlt
    subst htake
    -- the one merge is the last step, and it does not take the old copy
    have hnot : ((run (step .v2r) (empty ℕ) (recoveredReboot.take 5)).flight[0]?.bind
        (·.get? (bytes "k"))).all (fun e => !decide (Takes (bytes "a")
          ((run (step .v2r) (empty ℕ) (recoveredReboot.take 5)).held (bytes "a") (bytes "k")) e))
        = true := by decide +kernel
    interval_cases n
    · cases hev
      exact not_false
    · cases hev
      exact not_false
    · cases hev
      exact not_false
    · cases hev
      exact not_false
    · cases hev
      exact not_false
    · cases hev
      rintro ⟨slice, e, hslice, he, htakes, -⟩
      rw [hslice, Option.bind_some, he, Option.all_some, decide_eq_true htakes] at hnot
      cases hnot

/-- The same, but the new entry is sent before the author has met the old copy. -/
def earlyReboot : List (SimEvent ℕ) :=
  [.insert (bytes "a") (bytes "k") 7 300 30, .insert (bytes "a") (bytes "k") 8 300 30,
    .send (bytes "a"), .reboot (bytes "a"), .insert (bytes "a") (bytes "k") 9 300 30,
    .send (bytes "a"), .deliver (bytes "b") 1, .deliver (bytes "b") 0]

lemma onlyAt_earlyReboot : OnlyAt (bytes "a") (bytes "k") earlyReboot := by
  intro ev hev node hins
  simp only [earlyReboot, List.mem_cons, List.not_mem_nil, or_false] at hev
  rcases hev with rfl | rfl | rfl | rfl | rfl | rfl | rfl | rfl
  · exact hins.1.symm
  · exact hins.1.symm
  · cases hins
  · cases hins
  · exact hins.1.symm
  · cases hins
  · cases hins
  · cases hins

/-- The node `b` takes the third publication with the version 1, and then the second, which has
the version 2. -/
theorem not_neverRegresses_earlyReboot :
    OnlyAt (bytes "a") (bytes "k") earlyReboot ∧ ¬ NeverRegresses (bytes "k") earlyReboot := by
  refine ⟨onlyAt_earlyReboot, fun hnever => ?_⟩
  have hbefore : ((run (step .v2r) (empty ℕ) earlyReboot.dropLast).held (bytes "b")
      (bytes "k")).map (fun c => c.data.1) = some 3 := by decide +kernel
  have hafter : ((run (step .v2r) (empty ℕ) earlyReboot).held (bytes "b")
      (bytes "k")).map (fun c => c.data.1) = some 2 := by decide +kernel
  obtain ⟨c, hc, hgen⟩ := Option.map_eq_some_iff.mp hbefore
  obtain ⟨c', hc', hgen'⟩ := Option.map_eq_some_iff.mp hafter
  have hle := hnever earlyReboot.dropLast (.deliver (bytes "b") 0) List.prefix_rfl (bytes "b") c c'
    hc hc'
  omega

end Simulation

end SpecSuite

end SharedStateAsync
