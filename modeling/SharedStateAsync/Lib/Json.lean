/-
JSON values and how they compare.

A value is kept as a parser leaves it: an object is the list of its members, in the
order of the text and with repeated names if the text has them. Two values are the
same if they differ at most in the order of members. The comparison of a library
may be coarser or finer; the one here is the documented `operator==` of rapidjson,
under which an object with a repeated name is equal to no object.

* `Json`, `Json.Same`: values, and the same value;
* `Json.Distinct`: no object in the value repeats a name;
* `Json.beq`: the comparison;
* `Json.beq_iff`: it holds of the same values, unless a name is repeated.
-/
import Mathlib.Tactic

/-- JSON values over a type of numbers. Strings are bytes. -/
inductive Json (N : Type) where
  | null
  | bool (b : Bool)
  | number (n : N)
  | string (s : List UInt8)
  | array (elements : List (Json N))
  | object (members : List (List UInt8 × Json N))

namespace Json

variable {N : Type}

/-! ### The same value -/

mutual

/-- Two values are the same, up to the order of the members of objects. -/
def Same : Json N → Json N → Prop
  | .null, .null => True
  | .bool b, .bool b' => b = b'
  | .number n, .number n' => n = n'
  | .string s, .string s' => s = s'
  | .array l, .array l' => SameElements l l'
  | .object m, .object m' => ∃ m'' : List (List UInt8 × Json N), m''.Perm m' ∧ SameMembers m m''
  | _, _ => False
termination_by structural a => a

def SameElements : List (Json N) → List (Json N) → Prop
  | [], [] => True
  | a :: l, b :: l' => Same a b ∧ SameElements l l'
  | _, _ => False
termination_by structural l => l

def SameMembers : List (List UInt8 × Json N) → List (List UInt8 × Json N) → Prop
  | [], [] => True
  | p :: m, q :: m' => SameMember p q ∧ SameMembers m m'
  | _, _ => False
termination_by structural m => m

def SameMember : List UInt8 × Json N → List UInt8 × Json N → Prop
  | (k, a), q => k = q.1 ∧ Same a q.2
termination_by structural p => p

end

mutual

/-- No object in the value has two members of one name. -/
def Distinct : Json N → Prop
  | .array l => DistinctElements l
  | .object m => (m.map Prod.fst).Nodup ∧ DistinctMembers m
  | _ => True
termination_by structural a => a

def DistinctElements : List (Json N) → Prop
  | [] => True
  | a :: l => Distinct a ∧ DistinctElements l
termination_by structural l => l

def DistinctMembers : List (List UInt8 × Json N) → Prop
  | [] => True
  | p :: m => DistinctMember p ∧ DistinctMembers m
termination_by structural m => m

def DistinctMember : List UInt8 × Json N → Prop
  | (_, a) => Distinct a
termination_by structural p => p

end

/-! ### The comparison -/

section Beq

variable [DecidableEq N]

mutual

/-- `operator==`: an object is equal to one with as many members and the same value
under each of its names, and none of the two may repeat a name. -/
def beq : Json N → Json N → Bool
  | .null, .null => true
  | .bool b, .bool b' => b == b'
  | .number n, .number n' => decide (n = n')
  | .string s, .string s' => s == s'
  | .array l, .array l' => beqElements l l'
  | .object m, .object m' =>
      decide (m.length = m'.length) && decide (m.map Prod.fst).Nodup &&
        decide (m'.map Prod.fst).Nodup && beqMembers m m'
  | _, _ => false
termination_by structural a => a

def beqElements : List (Json N) → List (Json N) → Bool
  | [], [] => true
  | a :: l, b :: l' => beq a b && beqElements l l'
  | _, _ => false
termination_by structural l => l

def beqMembers : List (List UInt8 × Json N) → List (List UInt8 × Json N) → Bool
  | [], _ => true
  | p :: m, m' => beqMember p m' && beqMembers m m'
termination_by structural m => m

/-- The member of the other object that `FindMember` finds has the same value. -/
def beqMember : List UInt8 × Json N → List (List UInt8 × Json N) → Bool
  | (k, a), m' =>
      match m'.find? fun q => q.1 == k with
      | none => false
      | some q => beq a q.2
termination_by structural p => p

end

instance : BEq (Json N) := ⟨beq⟩

end Beq

/-! ### What the comparison says -/

/-- Induction over the structure of a value. -/
theorem ind {P : Json N → Prop} (null : P .null) (bool : ∀ b, P (.bool b))
    (number : ∀ n, P (.number n)) (string : ∀ s, P (.string s))
    (array : ∀ l, (∀ a ∈ l, P a) → P (.array l))
    (object : ∀ m, (∀ p ∈ m, P p.2) → P (.object m)) (a : Json N) : P a :=
  @Json.rec N P (fun l => ∀ a ∈ l, P a) (fun m => ∀ p ∈ m, P p.2) (fun p => P p.2)
    null bool number string array object
    (fun _ ha => absurd ha List.not_mem_nil)
    (fun _ _ ha hl => List.forall_mem_cons.mpr ⟨ha, hl⟩)
    (fun _ hp => absurd hp List.not_mem_nil)
    (fun _ _ hp hm => List.forall_mem_cons.mpr ⟨hp, hm⟩)
    (fun _ _ ha => ha) a

lemma sameMembers_iff : ∀ {m m' : List (List UInt8 × Json N)},
    SameMembers m m' ↔ List.Forall₂ (fun p q => p.1 = q.1 ∧ Same p.2 q.2) m m'
  | [], [] => by simp [SameMembers]
  | [], _ :: _ => by simp [SameMembers]
  | _ :: _, [] => by simp [SameMembers]
  | p :: m, q :: m' => by
      rw [SameMembers, List.forall₂_cons, sameMembers_iff (m := m), SameMember]

lemma Same.refl (a : Json N) : Same a a := by
  induction a using ind with
  | null => trivial
  | bool b => rfl
  | number n => rfl
  | string s => rfl
  | array l ih =>
      rw [Same]
      induction l with
      | nil => trivial
      | cons a l ihl =>
          rw [List.forall_mem_cons] at ih
          exact ⟨ih.1, ihl ih.2⟩
  | object m ih =>
      refine ⟨m, List.Perm.refl m, sameMembers_iff.mpr ?_⟩
      exact List.forall₂_same.mpr fun p hp => ⟨rfl, ih p hp⟩

/-- Members that all have a counterpart in a list of the same length without repeated
names are that list in another order. -/
lemma exists_perm_forall₂ {K V : Type} {R : V → V → Prop} {m m' : List (K × V)}
    (hm : (m.map Prod.fst).Nodup) (hlen : m.length = m'.length)
    (h : ∀ p ∈ m, ∃ q ∈ m', p.1 = q.1 ∧ R p.2 q.2) :
    ∃ m'' : List (K × V), m''.Perm m' ∧
      List.Forall₂ (fun p q => p.1 = q.1 ∧ R p.2 q.2) m m'' := by
  have hchosen : ∀ l : List (K × V), (∀ p ∈ l, ∃ q ∈ m', p.1 = q.1 ∧ R p.2 q.2) →
      ∃ m'' : List (K × V), (∀ q ∈ m'', q ∈ m') ∧
        List.Forall₂ (fun p q => p.1 = q.1 ∧ R p.2 q.2) l m'' := by
    intro l
    induction l with
    | nil => exact fun _ => ⟨[], by simp, .nil⟩
    | cons p l ih =>
        intro hl
        rw [List.forall_mem_cons] at hl
        obtain ⟨q, hq, hpq⟩ := hl.1
        obtain ⟨m'', hmem, hall⟩ := ih hl.2
        exact ⟨q :: m'', List.forall_mem_cons.mpr ⟨hq, hmem⟩, .cons hpq hall⟩
  obtain ⟨m'', hmem, hall⟩ := hchosen m h
  have hnames : m''.map Prod.fst = m.map Prod.fst := by
    clear hm hlen h hmem hchosen
    induction hall with
    | nil => rfl
    | cons hpq _ ih => rw [List.map_cons, List.map_cons, hpq.1, ih]
  have hnodup : m''.Nodup := List.Nodup.of_map _ (hnames ▸ hm)
  refine ⟨m'', (List.subperm_of_subset hnodup hmem).perm_of_length_le ?_, hall⟩
  rw [← hlen, hall.length_eq]

section Beq

variable [DecidableEq N]

/-- The comparison agrees with the structure at a value. -/
def Agrees (a : Json N) : Prop := ∀ b, beq a b = true ↔ Same a b ∧ Distinct a

lemma beqElements_iff : ∀ {l : List (Json N)}, (∀ a ∈ l, Agrees a) → ∀ l' : List (Json N),
    beqElements l l' = true ↔ SameElements l l' ∧ DistinctElements l
  | [], _, [] => by simp [beqElements, SameElements, DistinctElements]
  | [], _, _ :: _ => by simp [beqElements, SameElements]
  | _ :: _, _, [] => by simp [beqElements, SameElements]
  | a :: l, h, b :: l' => by
      rw [List.forall_mem_cons] at h
      rw [beqElements, SameElements, DistinctElements, Bool.and_eq_true, h.1 b,
        beqElements_iff h.2 l']
      tauto

lemma beqMember_iff {p : List UInt8 × Json N} (hp : Agrees p.2)
    {m' : List (List UInt8 × Json N)} (hm' : (m'.map Prod.fst).Nodup) :
    beqMember p m' = true ↔ (∃ q ∈ m', p.1 = q.1 ∧ Same p.2 q.2) ∧ Distinct p.2 := by
  rw [beqMember]
  cases hfind : m'.find? fun q => q.1 == p.1 with
  | none =>
      simp only [Bool.false_eq_true, false_iff, not_and]
      rintro ⟨q, hq, hname, -⟩
      exact absurd hname.symm (by simpa using List.find?_eq_none.mp hfind q hq)
  | some q =>
      have hname : q.1 = p.1 := by simpa using List.find?_some hfind
      have hq := List.mem_of_find?_eq_some hfind
      rw [hp q.2, and_congr_left_iff]
      refine fun _ => ⟨fun hsame => ⟨q, hq, hname.symm, hsame⟩, ?_⟩
      rintro ⟨q', hq', hname', hsame⟩
      -- the name is there once
      rwa [List.inj_on_of_nodup_map hm' hq hq' (hname.trans hname')]

lemma beqMembers_iff {m' : List (List UInt8 × Json N)} (hm' : (m'.map Prod.fst).Nodup) :
    ∀ {m : List (List UInt8 × Json N)}, (∀ p ∈ m, Agrees p.2) →
      (beqMembers m m' = true ↔
        (∀ p ∈ m, ∃ q ∈ m', p.1 = q.1 ∧ Same p.2 q.2) ∧ DistinctMembers m)
  | [], _ => by simp [beqMembers, DistinctMembers]
  | p :: m, h => by
      rw [List.forall_mem_cons] at h
      rw [beqMembers, DistinctMembers, DistinctMember, Bool.and_eq_true, beqMember_iff h.1 hm',
        beqMembers_iff hm' h.2, List.forall_mem_cons]
      tauto

/-- **The comparison**: it holds of the same values, unless a name is repeated. -/
theorem beq_iff (a b : Json N) : beq a b = true ↔ Same a b ∧ Distinct a := by
  induction a using ind generalizing b with
  | null => cases b <;> simp [beq, Same, Distinct]
  | bool c => cases b <;> simp [beq, Same, Distinct]
  | number n => cases b <;> simp [beq, Same, Distinct]
  | string s => cases b <;> simp [beq, Same, Distinct]
  | array l ih =>
      cases b with
      | array l' => exact beqElements_iff (fun a ha b => ih a ha b) l'
      | _ => simp [beq, Same]
  | object m ih =>
      cases b with
      | object m' =>
          rw [beq, Same, Distinct]
          simp only [Bool.and_eq_true, decide_eq_true_eq]
          constructor
          · rintro ⟨⟨⟨hlen, hm⟩, hm'⟩, hall⟩
            obtain ⟨hall, hdistinct⟩ := (beqMembers_iff hm' fun p hp b => ih p hp b).mp hall
            obtain ⟨m'', hperm, hsame⟩ := exists_perm_forall₂ hm hlen hall
            exact ⟨⟨m'', hperm, sameMembers_iff.mpr hsame⟩, hm, hdistinct⟩
          · rintro ⟨⟨m'', hperm, hsame⟩, hm, hdistinct⟩
            rw [sameMembers_iff] at hsame
            have hnames : m.map Prod.fst = m''.map Prod.fst :=
              List.forall₂_eq_eq_eq ▸ (List.forall₂_map_left_iff.mpr
                (List.forall₂_map_right_iff.mpr (hsame.imp fun _ _ hpq => hpq.1)))
            have hm' : (m'.map Prod.fst).Nodup := (hperm.map Prod.fst).nodup_iff.mp (hnames ▸ hm)
            refine ⟨⟨⟨hsame.length_eq.trans hperm.length_eq, hm⟩, hm'⟩, ?_⟩
            refine (beqMembers_iff hm' fun p hp b => ih p hp b).mpr ⟨fun p hp => ?_, hdistinct⟩
            obtain ⟨i, hi, rfl⟩ := List.getElem_of_mem hp
            have hi' : i < m''.length := hsame.length_eq ▸ hi
            exact ⟨m''[i], hperm.subset (List.getElem_mem hi'), hsame.get hi hi'⟩
      | _ => simp [beq, Same]

end Beq

end Json
