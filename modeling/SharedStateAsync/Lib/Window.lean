/-
The recent end of a list that grows.

A record of the past is kept short by dropping from its front: first what is over a number
of entries, then the entries that need not be kept any more. As long as an entry that is
kept is followed only by entries that are kept, and what is dropped once is never wanted
again, this loses nothing: what is left is what one would have taken from the whole past.

* `prune`: the two rounds of dropping;
* `recent`: the entries among the last `n` that are to be kept;
* `Rises`: the entries to be kept are at the end;
* `prune_eq_recent`: a prune of such a list;
* `prune_recent_append`: a prune of what an earlier one left, with what came since.
-/
import Mathlib.Data.List.TakeWhile
import Mathlib.Tactic

namespace Window

variable {α β : Type*}

/-- Drop from the front, first what is over `n` entries, then what is not to be kept. -/
def prune (n : ℕ) (keep : α → Bool) (l : List α) : List α :=
  (l.drop (l.length - n)).dropWhile fun a => !keep a

/-- The entries among the last `n` that are to be kept. -/
def recent (n : ℕ) (keep : α → Bool) (l : List α) : List α :=
  (l.drop (l.length - n)).filter keep

/-- An entry that is to be kept is followed only by such entries. -/
def Rises (keep : α → Bool) (l : List α) : Prop :=
  l.Pairwise fun a b => keep a = true → keep b = true

variable {keep keep' : α → Bool} {l xs : List α} {n : ℕ}

lemma Rises.sublist {l' : List α} (h : Rises keep l) (hl : l'.Sublist l) : Rises keep l' :=
  List.Pairwise.sublist hl h

/-- The number of entries in front of those to be kept. -/
def lead (keep : α → Bool) (l : List α) : ℕ := (l.takeWhile fun a => !keep a).length

lemma lead_cons_of_pos {a : α} (ha : keep a = true) (l : List α) : lead keep (a :: l) = 0 := by
  simp [lead, ha]

lemma lead_cons_of_neg {a : α} (ha : ¬ keep a = true) (l : List α) :
    lead keep (a :: l) = lead keep l + 1 := by
  simp [lead, ha]

lemma lead_le_length (keep : α → Bool) (l : List α) : lead keep l ≤ l.length :=
  (List.takeWhile_prefix _).length_le

/-- What is not to be kept at the start of a list is not to be kept later either. -/
lemma lead_le_lead (hkeep : ∀ a, keep' a = true → keep a = true) (l xs : List α) :
    lead keep l ≤ lead keep' (l ++ xs) := by
  induction l with
  | nil => exact Nat.zero_le _
  | cons a l ih =>
      by_cases ha : keep a = true
      · rw [lead_cons_of_pos ha]
        exact Nat.zero_le _
      · rw [lead_cons_of_neg ha, List.cons_append, lead_cons_of_neg fun h => ha (hkeep a h)]
        exact Nat.succ_le_succ ih

/-- Where all entries in front are dropped, only those to be kept are left. -/
lemma dropWhile_eq_filter (h : Rises keep l) :
    (l.dropWhile fun a => !keep a) = l.filter keep := by
  induction l with
  | nil => rfl
  | cons a l ih =>
      obtain ⟨hlater, hrest⟩ := List.pairwise_cons.mp h
      by_cases ha : keep a = true
      · rw [List.dropWhile_cons_of_neg (by simp [ha]), List.filter_cons_of_pos ha,
          List.filter_eq_self.mpr fun b hb => hlater b hb ha]
      · rw [List.dropWhile_cons_of_pos (by simp [ha]), List.filter_cons_of_neg ha, ih hrest]

/-- The same as an index into the list. -/
lemma dropWhile_drop (h : Rises keep l) (i : ℕ) :
    ((l.drop i).dropWhile fun a => !keep a) = l.drop (max i (lead keep l)) := by
  induction l generalizing i with
  | nil => simp
  | cons a l ih =>
      obtain ⟨hlater, hrest⟩ := List.pairwise_cons.mp h
      by_cases ha : keep a = true
      · -- nothing is dropped here, nor anywhere after it
        rw [lead_cons_of_pos ha, Nat.max_zero]
        have hall : ∀ b ∈ (a :: l).drop i, keep b = true := by
          intro b hb
          rcases List.mem_cons.mp (List.mem_of_mem_drop hb) with rfl | hb'
          · exact ha
          · exact hlater b hb' ha
        rw [List.dropWhile_eq_self_iff]
        intro hpos
        rw [hall _ (List.getElem_mem hpos)]
        exact Bool.false_ne_true
      · rw [lead_cons_of_neg ha]
        cases i with
        | zero =>
            rw [List.drop_zero, List.dropWhile_cons_of_pos (by simp [ha]), Nat.zero_max,
              List.drop_succ_cons]
            have hzero := ih hrest 0
            rwa [List.drop_zero, Nat.zero_max] at hzero
        | succ i => rw [List.drop_succ_cons, ih hrest, Nat.succ_max_succ, List.drop_succ_cons]

/-- **A prune** of a list that rises. -/
theorem prune_eq_recent (h : Rises keep l) (n : ℕ) : prune n keep l = recent n keep l :=
  dropWhile_eq_filter (h.sublist (List.drop_sublist _ _))

lemma recent_eq_drop (h : Rises keep l) (n : ℕ) :
    recent n keep l = l.drop (max (l.length - n) (lead keep l)) := by
  rw [← prune_eq_recent h, prune, dropWhile_drop h]

/-- **What an earlier prune left**, with the entries that came since, is pruned to what would
be left of the whole list. -/
theorem prune_recent_append (hkeep : ∀ a, keep' a = true → keep a = true)
    (h : Rises keep l) (h' : Rises keep' (l ++ xs)) :
    prune n keep' (recent n keep l ++ xs) = recent n keep' (l ++ xs) := by
  have hlead := lead_le_lead hkeep l xs
  have hle : max (l.length - n) (lead keep l) ≤ l.length :=
    max_le (Nat.sub_le _ _) (lead_le_length _ _)
  have hlength : (l ++ xs).length = l.length + xs.length := List.length_append
  -- both sides are the list from some index on
  rw [recent_eq_drop h, ← List.drop_append_of_le_length hle, prune, List.length_drop,
    List.drop_drop, dropWhile_drop h', recent_eq_drop h']
  refine congrArg (fun i => (l ++ xs).drop i) ?_
  omega

/-- Entries that are changed where it does not matter. -/
lemma prune_map (f : β → α) (m : List β) :
    prune n keep (m.map f) = (prune n (fun b => keep (f b)) m).map f := by
  rw [prune, prune, List.length_map, ← List.map_drop, List.dropWhile_map]
  rfl

lemma length_recent_le (n : ℕ) (keep : α → Bool) (l : List α) : (recent n keep l).length ≤ n := by
  have hle := List.length_filter_le keep (l.drop (l.length - n))
  rw [List.length_drop] at hle
  exact hle.trans (by omega)

lemma mem_of_mem_recent {a : α} (h : a ∈ recent n keep l) : a ∈ l :=
  List.mem_of_mem_drop (List.mem_filter.mp h).1

end Window
