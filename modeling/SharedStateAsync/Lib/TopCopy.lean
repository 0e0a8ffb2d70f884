/-
The greatest of the copies that the members of a group hold.

Each member of an index type holds at most one copy of something, and copies
are compared by a measure in a linear order. The top copy of a group is absent
when no member holds one, and otherwise one of theirs of greatest measure. It
is the join of the group's copies, and it is unique as soon as copies of equal
measure are equal.

* `IsTop`: being the top copy of a group;
* `isTop_singleton`, `IsTop.union`: one member, and the join of two groups
  along any choice of the greater copy;
* `IsTop.unique`: uniqueness.
-/
import Mathlib.Order.SetNotation
import Mathlib.Data.Set.Basic
import Mathlib.Tactic

namespace TopCopy

variable {ι E κ : Type*} [LinearOrder κ] (μ : E → κ) (copy : ι → Option E)

/-- `o` is the top copy of the group `P`. -/
def IsTop (P : Set ι) : Option E → Prop
  | none => ∀ m ∈ P, copy m = none
  | some e => (∃ m ∈ P, copy m = some e) ∧ ∀ m ∈ P, ∀ e', copy m = some e' → μ e' ≤ μ e

variable {μ copy}

/-- A member alone has its own copy at the top. -/
lemma isTop_singleton (copy : ι → Option E) (n : ι) : IsTop μ copy {n} (copy n) := by
  cases hn : copy n with
  | none =>
      rintro m rfl
      exact hn
  | some e =>
      refine ⟨⟨n, rfl, hn⟩, ?_⟩
      rintro m rfl e' he'
      rw [Option.some.inj (he'.symm.trans hn)]

/-- The choice of the greater of two copies, either one when they are equal in
measure. -/
def Greater (μ : E → κ) (a b c : E) : Prop :=
  (c = a ∧ μ b ≤ μ a) ∨ (c = b ∧ μ a ≤ μ b)

/-- A group that holds nothing adds nothing. -/
lemma IsTop.union_none {P Q : Set ι} {o : Option E} (hP : IsTop μ copy P none)
    (hQ : IsTop μ copy Q o) : IsTop μ copy (P ∪ Q) o := by
  cases o with
  | none =>
      rintro m (hm | hm)
      · exact hP m hm
      · exact hQ m hm
  | some e =>
      obtain ⟨⟨n, hn, hcopy⟩, hmax⟩ := hQ
      refine ⟨⟨n, Or.inr hn, hcopy⟩, ?_⟩
      rintro m (hm | hm) e' he'
      · exact absurd (he'.symm.trans (hP m hm)) (by simp)
      · exact hmax m hm e' he'

/-- The join of two groups: the greater of their top copies. -/
lemma IsTop.union {P Q : Set ι} {a b c : E} (hP : IsTop μ copy P (some a))
    (hQ : IsTop μ copy Q (some b)) (hc : Greater μ a b c) :
    IsTop μ copy (P ∪ Q) (some c) := by
  obtain ⟨⟨p, hp, hcopyp⟩, hmaxP⟩ := hP
  obtain ⟨⟨q, hq, hcopyq⟩, hmaxQ⟩ := hQ
  rcases hc with ⟨rfl, hle⟩ | ⟨rfl, hle⟩
  · refine ⟨⟨p, Or.inl hp, hcopyp⟩, ?_⟩
    rintro m (hm | hm) e' he'
    · exact hmaxP m hm e' he'
    · exact (hmaxQ m hm e' he').trans hle
  · refine ⟨⟨q, Or.inr hq, hcopyq⟩, ?_⟩
    rintro m (hm | hm) e' he'
    · exact (hmaxP m hm e' he').trans hle
    · exact hmaxQ m hm e' he'

/-- The top copy is one of the copies. -/
lemma IsTop.exists_copy {P : Set ι} {e : E} (h : IsTop μ copy P (some e)) :
    ∃ m, copy m = some e := by
  obtain ⟨⟨m, -, hm⟩, -⟩ := h
  exact ⟨m, hm⟩

/-- The top copy is unique when copies of equal measure are equal. -/
lemma IsTop.unique {P : Set ι} {o o' : Option E}
    (hinj : ∀ m n e e', copy m = some e → copy n = some e' → μ e = μ e' → e = e')
    (h : IsTop μ copy P o) (h' : IsTop μ copy P o') : o = o' := by
  cases o with
  | none =>
      cases o' with
      | none => rfl
      | some e' =>
          obtain ⟨⟨m, hm, hcopy⟩, -⟩ := h'
          exact absurd (hcopy.symm.trans (h m hm)) (by simp)
  | some e =>
      obtain ⟨⟨m, hm, hcopy⟩, hmax⟩ := h
      cases o' with
      | none => exact absurd (hcopy.symm.trans (h' m hm)) (by simp)
      | some e' =>
          obtain ⟨⟨m', hm', hcopy'⟩, hmax'⟩ := h'
          have hμ : μ e = μ e' := le_antisymm (hmax' m hm e hcopy) (hmax m' hm' e' hcopy')
          rw [hinj m m' e e' hcopy hcopy' hμ]

end TopCopy
