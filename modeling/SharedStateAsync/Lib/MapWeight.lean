/-
The total weight of an ordered map.

Each entry of a map has a weight, and the weight of the map is their sum. Read over
any finite set that holds the keys of the map, the sum can be compared key by key
with the sums of other maps, whatever the order in which the entries are listed.

* `OrdMap.weight`: the total weight of the entries;
* `OrdMap.keySet`: the keys as a finite set;
* `weight_eq_sum`: the weight as a sum over a set of keys;
* `weight_le_add`, `weight_eq_add`: maps whose entries come from two others.
-/
import SharedStateAsync.Lib.KeyedMap

open Std (ExtTreeMap TransOrd LawfulEqOrd)

namespace OrdMap

variable {α β : Type} [Ord α] [TransOrd α] [LawfulEqOrd α] [DecidableEq α]

/-- The total weight of the entries. -/
def weight (w : α → β → ℕ) (m : OrdMap α β) : ℕ := (m.toList.map fun p => w p.1 p.2).sum

/-- The weight of what the map has under a key. -/
def weightAt (w : α → β → ℕ) (m : OrdMap α β) (k : α) : ℕ := m[k]?.elim 0 (w k)

/-- The keys. -/
def keySet (m : OrdMap α β) : Finset α := m.keys.toFinset

lemma mem_keySet {m : OrdMap α β} {k : α} : k ∈ m.keySet ↔ m[k]?.isSome := by
  rw [keySet, List.mem_toFinset, ExtTreeMap.mem_keys, ExtTreeMap.mem_iff_isSome_getElem?]

/-- **The weight, key by key.** -/
theorem weight_eq_sum (w : α → β → ℕ) (m : OrdMap α β) {S : Finset α} (hS : m.keySet ⊆ S) :
    m.weight w = ∑ k ∈ S, m.weightAt w k := by
  have hlist : m.weight w = (m.keys.map (m.weightAt w)).sum := by
    rw [weight, ← ExtTreeMap.map_fst_toList_eq_keys, List.map_map]
    refine congrArg List.sum (List.map_congr_left fun p hp => ?_)
    rw [Function.comp_apply, weightAt, ExtTreeMap.mem_toList_iff_getElem?_eq_some.mp hp,
      Option.elim_some]
  calc m.weight w = ∑ k ∈ m.keySet, m.weightAt w k := by
        rw [hlist, keySet, List.sum_toFinset _ ExtTreeMap.nodup_keys]
    _ = ∑ k ∈ S, m.weightAt w k := by
        refine Finset.sum_subset hS fun k _ hk => ?_
        rw [mem_keySet, Option.not_isSome_iff_eq_none] at hk
        rw [weightAt, hk, Option.elim_none]

omit [LawfulEqOrd α] [DecidableEq α] in
lemma size_eq_weight (m : OrdMap α β) : m.size = m.weight fun _ _ => 1 := by
  rw [weight, List.map_const', List.sum_replicate, smul_eq_mul, mul_one, ExtTreeMap.length_toList]

omit [LawfulEqOrd α] [DecidableEq α] in
/-- The number of entries with a property. -/
lemma weight_ite (p : α → β → Prop) [∀ k v, Decidable (p k v)] (m : OrdMap α β) :
    m.weight (fun k v => if p k v then 1 else 0)
      = (m.toList.filter fun q => p q.1 q.2).length := by
  rw [weight]
  induction m.toList with
  | nil => rfl
  | cons q l ih =>
      rw [List.map_cons, List.sum_cons, ih, List.filter_cons]
      by_cases hq : p q.1 q.2
      · simp [hq, Nat.add_comm]
      · simp [hq]

section TwoMaps

variable {β₁ β₂ : Type} {w : α → β → ℕ} {w₁ : α → β₁ → ℕ} {w₂ : α → β₂ → ℕ} {m : OrdMap α β}
  {m₁ : OrdMap α β₁} {m₂ : OrdMap α β₂}

/-- Three maps, read over one set of keys. -/
lemma exists_weight_eq_sum (w : α → β → ℕ) (w₁ : α → β₁ → ℕ) (w₂ : α → β₂ → ℕ) (m : OrdMap α β)
    (m₁ : OrdMap α β₁) (m₂ : OrdMap α β₂) :
    ∃ S : Finset α, m.weight w = ∑ k ∈ S, m.weightAt w k ∧
      m₁.weight w₁ = ∑ k ∈ S, m₁.weightAt w₁ k ∧ m₂.weight w₂ = ∑ k ∈ S, m₂.weightAt w₂ k := by
  refine ⟨m.keySet ∪ (m₁.keySet ∪ m₂.keySet), weight_eq_sum w m ?_, weight_eq_sum w₁ m₁ ?_,
    weight_eq_sum w₂ m₂ ?_⟩
  · exact Finset.subset_union_left
  · exact Finset.subset_union_left.trans Finset.subset_union_right
  · exact Finset.subset_union_right.trans Finset.subset_union_right

/-- A map none of whose entries weighs more than what two others have there. -/
lemma weight_le_add (h : ∀ k, m.weightAt w k ≤ m₁.weightAt w₁ k + m₂.weightAt w₂ k) :
    m.weight w ≤ m₁.weight w₁ + m₂.weight w₂ := by
  obtain ⟨S, hm, hm₁, hm₂⟩ := exists_weight_eq_sum w w₁ w₂ m m₁ m₂
  rw [hm, hm₁, hm₂, ← Finset.sum_add_distrib]
  exact Finset.sum_le_sum fun k _ => h k

/-- A map each of whose entries weighs what two others have there. -/
lemma weight_eq_add (h : ∀ k, m.weightAt w k = m₁.weightAt w₁ k + m₂.weightAt w₂ k) :
    m.weight w = m₁.weight w₁ + m₂.weight w₂ := by
  obtain ⟨S, hm, hm₁, hm₂⟩ := exists_weight_eq_sum w w₁ w₂ m m₁ m₂
  rw [hm, hm₁, hm₂, ← Finset.sum_add_distrib]
  exact Finset.sum_congr rfl fun k _ => h k

end TwoMaps

end OrdMap
