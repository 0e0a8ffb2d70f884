/-
Folds over tables that touch one key at a time.

A loop over the entries of a table which, at the entry `(k, v)`, changes an
accumulator table at the key `k` only, can be read key by key: the keys of the
loop are pairwise distinct, so what it leaves under `k` depends on nothing but
what was there before and on the entry of `k` itself. What such a loop counts is
a sum over the entries, in whatever order it meets them.

* `KeyedLoop`: a loop body that touches its own key only, over any kind of table;
* `KeyedLoop.foldl_of_mem`, `KeyedLoop.foldl_of_notMem`: what the loop leaves;
* `KeyedLoop.foldl_count`: what it counts;
* `KeyedLoop.foldlM_eq`: the loop when it may fail at an entry;
* `OrdMap`: the ordered maps, extensional and iterated in key order;
* `getElem?_insert_eq`, `getElem?_erase_eq`, `getElem?_insertIfNew_eq`,
  `getElem?_emplace`: the updates, read at a key with equality in place of a
  comparison;
* `KeyedStep`: a loop body over ordered maps that touches its own key only;
* `foldl_keyed`, `KeyedStep.foldl_getElem?`: the value a loop over the entries of a map
  leaves under a key;
* `foldlM_keyed`: a loop over the entries of a map that may fail.
-/
import Std.Data.ExtTreeMap
import Mathlib.Tactic

open Std (ExtTreeMap TransOrd LawfulEqOrd)

/-! ### Loops that touch their own key -/

section Loops

variable {α β γ σ : Type} [DecidableEq α]

/-- A loop body over tables `σ`, read by `get`: at the entry `(k, v)` it leaves
`g (get s k) v` under `k` and everything else as it was. -/
def KeyedLoop (get : σ → α → Option γ) (f : σ → α → β → σ) (g : Option γ → β → Option γ) : Prop :=
  ∀ s k v a, get (f s k v) a = if k = a then g (get s k) v else get s a

namespace KeyedLoop

variable {get : σ → α → Option γ} {f : σ → α → β → σ} {g : Option γ → β → Option γ}

/-- The loop leaves a key it does not meet as it was. -/
lemma foldl_of_notMem (hf : KeyedLoop get f g) {a : α} {l : List (α × β)}
    (ha : a ∉ l.map Prod.fst) (s : σ) :
    get (l.foldl (fun s p => f s p.1 p.2) s) a = get s a := by
  induction l generalizing s with
  | nil => rfl
  | cons p l ih =>
      rw [List.map_cons, List.mem_cons, not_or] at ha
      rw [List.foldl_cons, ih ha.2, hf, if_neg (Ne.symm ha.1)]

/-- The loop meets a key once, so it updates it once. -/
lemma foldl_of_mem (hf : KeyedLoop get f g) {a : α} {v : β} {l : List (α × β)}
    (hl : (l.map Prod.fst).Nodup) (ha : (a, v) ∈ l) (s : σ) :
    get (l.foldl (fun s p => f s p.1 p.2) s) a = g (get s a) v := by
  induction l generalizing s with
  | nil => cases ha
  | cons p l ih =>
      rw [List.map_cons, List.nodup_cons] at hl
      rw [List.foldl_cons]
      rcases List.mem_cons.mp ha with rfl | ha'
      · -- the key is met here, and by distinctness never again
        rw [hf.foldl_of_notMem hl.1, hf, if_pos rfl]
      · have hne : p.1 ≠ a := fun h => hl.1 (h ▸ List.mem_map_of_mem ha')
        rw [ih hl.2 ha', hf, if_neg hne]

/-- **What a loop counts** is a sum over the entries it meets. -/
theorem foldl_count (hf : KeyedLoop get f g) (count : σ → ℤ) (c : Option γ → β → ℤ)
    (hc : ∀ s k v, count (f s k v) = count s + c (get s k) v) {l : List (α × β)}
    (hl : (l.map Prod.fst).Nodup) (s : σ) :
    count (l.foldl (fun s p => f s p.1 p.2) s)
      = count s + (l.map fun p => c (get s p.1) p.2).sum := by
  induction l generalizing s with
  | nil => simp
  | cons p l ih =>
      rw [List.map_cons, List.nodup_cons] at hl
      -- the entries that follow have other keys, and are counted as before
      have hrest : (l.map fun q => c (get (f s p.1 p.2) q.1) q.2)
          = l.map fun q => c (get s q.1) q.2 := by
        refine List.map_congr_left fun q hq => ?_
        have hne : p.1 ≠ q.1 := fun h => hl.1 (h ▸ List.mem_map_of_mem hq)
        rw [hf, if_neg hne]
      rw [List.foldl_cons, ih hl.2, hc, hrest, List.map_cons, List.sum_cons, add_assoc]

/-- **A loop that may fail** at an entry, depending on what it finds under the key: it ends
as the loop that does not fail, if it fails at none of them. -/
theorem foldlM_eq (hf : KeyedLoop get f g) {fM : σ → α → β → Option σ} (ok : Option γ → β → Prop)
    [∀ a v, Decidable (ok a v)]
    (hM : ∀ s k v, fM s k v = if ok (get s k) v then some (f s k v) else none)
    {l : List (α × β)} (hl : (l.map Prod.fst).Nodup) (s : σ) :
    l.foldlM (fun s p => fM s p.1 p.2) s
      = if ∀ p ∈ l, ok (get s p.1) p.2 then some (l.foldl (fun s p => f s p.1 p.2) s)
        else none := by
  induction l generalizing s with
  | nil => simp
  | cons p l ih =>
      rw [List.map_cons, List.nodup_cons] at hl
      -- the entries that follow have other keys, and find what they found before
      have hrest : (∀ q ∈ l, ok (get (f s p.1 p.2) q.1) q.2) ↔ ∀ q ∈ l, ok (get s q.1) q.2 := by
        refine forall₂_congr fun q hq => ?_
        have hne : p.1 ≠ q.1 := fun h => hl.1 (h ▸ List.mem_map_of_mem hq)
        rw [hf, if_neg hne]
      rw [List.foldlM_cons, hM]
      by_cases hp : ok (get s p.1) p.2
      · rw [if_pos hp]
        change List.foldlM _ (f s p.1 p.2) l = _
        simp only [ih hl.2, hrest, List.forall_mem_cons, hp, true_and, List.foldl_cons]
      · rw [if_neg hp, if_neg fun hall => hp (hall p List.mem_cons_self)]
        rfl

end KeyedLoop

end Loops

/-! ### Ordered maps -/

/-- Ordered maps: `std::map` up to the addresses of its nodes. -/
abbrev OrdMap (α β : Type) [Ord α] : Type := ExtTreeMap α β compare

namespace OrdMap

variable {α β γ : Type} [Ord α] [TransOrd α] [LawfulEqOrd α] [DecidableEq α]

/-! ### Updates read at a key -/

lemma getElem?_insert_eq (m : OrdMap α β) (k a : α) (v : β) :
    (m.insert k v)[a]? = if k = a then some v else m[a]? := by
  rw [ExtTreeMap.getElem?_insert]
  simp only [Std.compare_eq_iff_eq]

lemma getElem?_erase_eq (m : OrdMap α β) (k a : α) :
    (m.erase k)[a]? = if k = a then none else m[a]? := by
  rw [ExtTreeMap.getElem?_erase]
  simp only [Std.compare_eq_iff_eq]

lemma getElem?_insertIfNew_eq (m : OrdMap α β) (k a : α) (v : β) :
    (m.insertIfNew k v)[a]? = if k = a then some (m[k]?.getD v) else m[a]? := by
  rw [ExtTreeMap.getElem?_insertIfNew]
  simp only [Std.compare_eq_iff_eq]
  by_cases hka : k = a
  · subst hka
    by_cases hk : k ∈ m
    · simp [hk]
    · simp [hk]
  · simp [hka]

/-- `emplace` on a key that is absent inserts. -/
lemma getElem?_emplace (m : OrdMap α β) (k a : α) (v : β) (hk : m[k]? = none) :
    (m.insertIfNew k v)[a]? = if k = a then some v else m[a]? := by
  rw [getElem?_insertIfNew_eq, hk, Option.getD_none]

/-! ### Loops over ordered maps -/

omit [LawfulEqOrd α] [DecidableEq α] in
/-- The keys of a map, as its loops meet them, are distinct. -/
lemma nodup_map_fst_toList (m : OrdMap α β) : (m.toList.map Prod.fst).Nodup := by
  rw [ExtTreeMap.map_fst_toList_eq_keys]
  exact ExtTreeMap.nodup_keys

/-- A loop body that, at the entry `(k, v)`, leaves `g m[k]? v` under `k` and
everything else as it was. -/
def KeyedStep (f : OrdMap α γ → α → β → OrdMap α γ)
    (g : Option γ → β → Option γ) : Prop :=
  ∀ m k v a, (f m k v)[a]? = if k = a then g m[k]? v else m[a]?

/-- **The keyed reading of a loop**: what a loop over the entries of `s` leaves
under a key is decided by the entry of that key. -/
theorem foldl_keyed {σ : Type} {get : σ → α → Option γ} {f : σ → α → β → σ}
    {g : Option γ → β → Option γ} (hf : KeyedLoop get f g) (s : OrdMap α β) (m : σ) (a : α) :
    get (s.foldl f m) a = s[a]?.elim (get m a) (g (get m a)) := by
  rw [ExtTreeMap.foldl_eq_foldl_toList]
  cases hs : s[a]? with
  | none =>
      refine hf.foldl_of_notMem (fun ha => ?_) m
      obtain ⟨p, hp, rfl⟩ := List.mem_map.mp ha
      rw [ExtTreeMap.mem_toList_iff_getElem?_eq_some, hs] at hp
      cases hp
  | some v =>
      exact hf.foldl_of_mem (nodup_map_fst_toList s)
        (ExtTreeMap.mem_toList_iff_getElem?_eq_some.mpr hs) m

omit [LawfulEqOrd α] in
/-- A loop over the entries of `s` that may fail. -/
theorem foldlM_keyed {σ : Type} {get : σ → α → Option γ} {f : σ → α → β → σ}
    {g : Option γ → β → Option γ} (hf : KeyedLoop get f g) {fM : σ → α → β → Option σ}
    (ok : Option γ → β → Prop) [∀ a v, Decidable (ok a v)]
    (hM : ∀ s k v, fM s k v = if ok (get s k) v then some (f s k v) else none)
    (s : OrdMap α β) (m : σ) :
    s.foldlM fM m
      = if ∀ p ∈ s.toList, ok (get m p.1) p.2 then some (s.foldl f m) else none := by
  rw [ExtTreeMap.foldlM_eq_foldlM_toList, ExtTreeMap.foldl_eq_foldl_toList,
    hf.foldlM_eq ok hM (nodup_map_fst_toList s)]

theorem KeyedStep.foldl_getElem? {f : OrdMap α γ → α → β → OrdMap α γ}
    {g : Option γ → β → Option γ} (hf : KeyedStep f g) (s : OrdMap α β) (m : OrdMap α γ) (a : α) :
    (s.foldl f m)[a]? = s[a]?.elim m[a]? (g m[a]?) :=
  foldl_keyed (fun m k v a => hf m k v a) s m a

end OrdMap
