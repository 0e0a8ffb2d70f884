/-
Dictionaries that keep their entries in the order of insertion.

A dictionary is the list of its items, with distinct keys. Setting a key that is there
keeps its place, a new one goes to the end. Loops over the items meet every key once,
and read key by key they are the loops over any other kind of table with the same
entries, in whatever order.

* `Dict`, `get?`: dictionaries, and what is under a key;
* `get?_set`, `get?_del`, `get?_mapValues`: the updates, read at a key;
* `foldl_keyed`: a loop over the items that touches its own key only;
* `toOrdMap`, `perm_toList`: the ordered map with the same entries, and the items of
  both up to their order.
-/
import SharedStateAsync.Lib.KeyedMap

/-- Dictionaries, by their items in the order of insertion. -/
structure Dict (α β : Type) where
  items : List (α × β)
  nodup : (items.map Prod.fst).Nodup

namespace Dict

variable {α β γ σ : Type} [DecidableEq α]

/-- What is under a key. -/
def get? (d : Dict α β) (k : α) : Option β := (d.items.find? fun p => p.1 = k).map Prod.snd

lemma get?_eq_some {d : Dict α β} {k : α} {v : β} : d.get? k = some v ↔ (k, v) ∈ d.items := by
  rw [get?, Option.map_eq_some_iff]
  constructor
  · rintro ⟨p, hp, rfl⟩
    have hk : p.1 = k := by simpa using List.find?_some hp
    exact hk ▸ List.mem_of_find?_eq_some hp
  · intro hmem
    cases hfind : d.items.find? fun p => p.1 = k with
    | none => exact absurd (decide_eq_true rfl) (List.find?_eq_none.mp hfind (k, v) hmem)
    | some p =>
        have hk : p.1 = k := by simpa using List.find?_some hfind
        refine ⟨p, rfl, ?_⟩
        rw [List.inj_on_of_nodup_map d.nodup (List.mem_of_find?_eq_some hfind) hmem hk]

lemma get?_eq_none {d : Dict α β} {k : α} : d.get? k = none ↔ k ∉ d.items.map Prod.fst := by
  constructor
  · intro hnone hmem
    obtain ⟨p, hp, rfl⟩ := List.mem_map.mp hmem
    cases hnone.symm.trans (get?_eq_some.mpr hp)
  · intro hmem
    cases hv : d.get? k with
    | none => rfl
    | some v => exact absurd (List.mem_map_of_mem (get?_eq_some.mp hv)) hmem

instance : EmptyCollection (Dict α β) := ⟨⟨[], List.nodup_nil⟩⟩

@[simp] lemma get?_empty (k : α) : (∅ : Dict α β).get? k = none := rfl

/-! ### Updates -/

/-- The items after `d[k] = v`. -/
def setItems (items : List (α × β)) (k : α) (v : β) : List (α × β) :=
  if k ∈ items.map Prod.fst then items.map fun p => if p.1 = k then (k, v) else p
  else items ++ [(k, v)]

lemma map_fst_setItems (items : List (α × β)) (k : α) (v : β) :
    (setItems items k v).map Prod.fst
      = if k ∈ items.map Prod.fst then items.map Prod.fst else items.map Prod.fst ++ [k] := by
  rw [setItems]
  split_ifs
  · rw [List.map_map]
    refine List.map_congr_left fun p _ => ?_
    rw [Function.comp_apply]
    split_ifs with hp
    · exact hp.symm
    · rfl
  · rw [List.map_append]
    rfl

lemma nodup_setItems {items : List (α × β)} (h : (items.map Prod.fst).Nodup) (k : α) (v : β) :
    ((setItems items k v).map Prod.fst).Nodup := by
  rw [map_fst_setItems]
  split_ifs with hk
  · exact h
  · exact List.nodup_append.mpr ⟨h, List.nodup_singleton k, by
      rintro a ha b hb rfl
      exact hk (List.mem_singleton.mp hb ▸ ha)⟩

/-- `d[k] = v`. -/
def set (d : Dict α β) (k : α) (v : β) : Dict α β :=
  ⟨setItems d.items k v, nodup_setItems d.nodup k v⟩

/-- Setting a key to what it has changes nothing. -/
lemma set_eq_self {d : Dict α β} {k : α} {v : β} (h : d.get? k = some v) : d.set k v = d := by
  obtain ⟨items, hnodup⟩ := d
  have hmem : (k, v) ∈ items := get?_eq_some.mp h
  rw [set, mk.injEq, setItems, if_pos (List.mem_map.mpr ⟨(k, v), hmem, rfl⟩)]
  refine (List.map_congr_left fun p hp => ?_).trans (List.map_id items)
  split_ifs with hpk
  · exact List.inj_on_of_nodup_map hnodup hmem hp hpk.symm
  · rfl

lemma mem_setItems {items : List (α × β)} {k a : α} {v b : β} :
    (a, b) ∈ setItems items k v ↔ if k = a then b = v else (a, b) ∈ items := by
  rw [setItems]
  split_ifs with hk hka hka
  · subst hka
    rw [List.mem_map]
    constructor
    · rintro ⟨p, -, hp⟩
      split_ifs at hp with hpk
      · exact (Prod.mk.inj hp).2.symm
      · exact absurd (Prod.ext_iff.mp hp).1 hpk
    · rintro rfl
      obtain ⟨p, hp, hpk⟩ := List.mem_map.mp hk
      exact ⟨p, hp, if_pos hpk⟩
  · rw [List.mem_map]
    constructor
    · rintro ⟨p, hp, hpa⟩
      split_ifs at hpa with hpk
      · exact absurd (Prod.mk.inj hpa).1 hka
      · exact hpa ▸ hp
    · exact fun hab => ⟨(a, b), hab, if_neg (Ne.symm hka)⟩
  · subst hka
    rw [List.mem_append, List.mem_singleton]
    constructor
    · rintro (hab | hab)
      · exact absurd (List.mem_map_of_mem hab) hk
      · exact (Prod.mk.inj hab).2
    · rintro rfl
      exact Or.inr rfl
  · rw [List.mem_append, List.mem_singleton]
    constructor
    · rintro (hab | hab)
      · exact hab
      · exact absurd (Prod.mk.inj hab).1.symm hka
    · exact Or.inl

lemma get?_set (d : Dict α β) (k a : α) (v : β) :
    (d.set k v).get? a = if k = a then some v else d.get? a := by
  refine Option.ext fun b => ?_
  rw [get?_eq_some, set, mem_setItems]
  split_ifs
  · exact ⟨fun hb => hb ▸ rfl, fun hb => (Option.some.inj hb).symm⟩
  · exact get?_eq_some.symm

/-- `del d[k]`. -/
def del (d : Dict α β) (k : α) : Dict α β where
  items := d.items.filter fun p => p.1 ≠ k
  nodup := d.nodup.sublist (List.filter_sublist.map Prod.fst)

lemma get?_del (d : Dict α β) (k a : α) :
    (d.del k).get? a = if k = a then none else d.get? a := by
  refine Option.ext fun b => ?_
  rw [get?_eq_some, del, List.mem_filter, ← get?_eq_some]
  split_ifs with hka
  · subst hka
    simp
  · simp [Ne.symm hka]

lemma get?_foldl_del (ks : List α) (d : Dict α β) (a : α) :
    (ks.foldl del d).get? a = if a ∈ ks then none else d.get? a := by
  induction ks generalizing d with
  | nil => rfl
  | cons k ks ih =>
      rw [List.foldl_cons, ih, get?_del]
      by_cases hks : a ∈ ks
      · simp [hks]
      · by_cases hka : k = a
        · simp [hka]
        · simp [hks, hka, Ne.symm hka]

/-- The dictionary with each value replaced. -/
def mapValues (f : β → γ) (d : Dict α β) : Dict α γ where
  items := d.items.map fun p => (p.1, f p.2)
  nodup := by
    rw [List.map_map]
    exact d.nodup

lemma get?_mapValues (f : β → γ) (d : Dict α β) (a : α) :
    (d.mapValues f).get? a = (d.get? a).map f := by
  refine Option.ext fun b => ?_
  rw [get?_eq_some, mapValues, List.mem_map, Option.map_eq_some_iff]
  constructor
  · rintro ⟨p, hp, hpab⟩
    obtain ⟨rfl, rfl⟩ := Prod.mk.inj hpab
    exact ⟨p.2, get?_eq_some.mpr hp, rfl⟩
  · rintro ⟨v, hv, rfl⟩
    exact ⟨(a, v), get?_eq_some.mp hv, rfl⟩

/-! ### Loops -/

/-- **A loop over the items**, read at a key. -/
theorem foldl_keyed {get : σ → α → Option γ} {f : σ → α → β → σ} {g : Option γ → β → Option γ}
    (hf : KeyedLoop get f g) (d : Dict α β) (s : σ) (a : α) :
    get (d.items.foldl (fun s p => f s p.1 p.2) s) a = (d.get? a).elim (get s a) (g (get s a)) := by
  cases hd : d.get? a with
  | none => exact hf.foldl_of_notMem (get?_eq_none.mp hd) s
  | some v => exact hf.foldl_of_mem d.nodup (get?_eq_some.mp hd) s

/-! ### Ordered maps -/

section Ordered

variable [Ord α] [Std.TransOrd α] [Std.LawfulEqOrd α]

/-- The ordered map with the same entries. -/
def toOrdMap (d : Dict α β) : OrdMap α β := d.items.foldl (fun m p => m.insert p.1 p.2) ∅

lemma getElem?_toOrdMap (d : Dict α β) (a : α) : d.toOrdMap[a]? = d.get? a := by
  have hloop : KeyedLoop (fun (m : OrdMap α β) a => m[a]?) (fun m k v => m.insert k v)
      fun _ v => some v := fun m k v a => OrdMap.getElem?_insert_eq m k a v
  rw [toOrdMap, foldl_keyed hloop]
  cases d.get? a with
  | none => exact Std.ExtTreeMap.getElem?_empty
  | some v => rfl

/-- **The items in another order**: those of a map with the same entries. -/
theorem perm_toList {d : Dict α β} {m : OrdMap α γ} {f : β → γ}
    (h : ∀ k, m[k]? = (d.get? k).map f) : (d.mapValues f).items.Perm m.toList := by
  refine (List.perm_ext_iff_of_nodup (List.Nodup.of_map _ (d.mapValues f).nodup)
    (List.Nodup.of_map _ (OrdMap.nodup_map_fst_toList m))).mpr fun p => ?_
  rw [← get?_eq_some, get?_mapValues, Std.ExtTreeMap.mem_toList_iff_getElem?_eq_some, h]

end Ordered

end Dict
