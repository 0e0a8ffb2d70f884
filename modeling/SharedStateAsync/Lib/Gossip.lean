/-
Nodes that merge what others have sent.

Each node holds a value. It sends snapshots of it, and merges snapshots that were sent,
in any order, late, more than once or never. Two such systems that go through the same
events stay related if their merges do; the one that collects the names of the nodes
says whom a node has heard of.

* `Net`, `Act`, `Net.step`: the system;
* `Related`, `related_run`: two systems that go through the same events;
* `heard`: the nodes a node has heard of, itself included;
* `holds_heard`: a value that is determined by the nodes it stems from, and merges
  accordingly, is always the one of the nodes heard of.
-/
import SharedStateAsync.Lib.Machine
import Mathlib.Data.Set.Insert
import Mathlib.Logic.Function.Basic

namespace Gossip

open Machine

variable {ι S T : Type*} [DecidableEq ι]

/-- The values of the nodes, and the snapshots sent so far. -/
structure Net (ι S : Type*) where
  store : ι → S
  sent : List S

inductive Act (ι : Type*) where
  | send (n : ι)
  /-- `n` merges the `i`-th snapshot. -/
  | deliver (n : ι) (i : ℕ)

def Net.step (merge : ι → S → S → S) (net : Net ι S) : Act ι → Net ι S
  | .send n => { net with sent := net.sent ++ [net.store n] }
  | .deliver n i =>
      match net.sent[i]? with
      | none => net
      | some s => { net with store := Function.update net.store n (merge n (net.store n) s) }

/-! ### Two systems -/

/-- The values and the snapshots are related; `A` is known of the values of a node in the
second system. -/
structure Related (A : ι → T → Prop) (R : S → T → Prop) (net : Net ι S) (net' : Net ι T) :
    Prop where
  known : ∀ n, A n (net'.store n)
  store : ∀ n, R (net.store n) (net'.store n)
  sent : List.Forall₂ R net.sent net'.sent

section Related

variable {A : ι → T → Prop} {R : S → T → Prop} {net : Net ι S} {net' : Net ι T}
  {merge : ι → S → S → S} {merge' : ι → T → T → T}

/-- **One event** keeps the systems related, if the merges do. -/
theorem Related.step (h : Related A R net net') (act : Act ι)
    (hA : ∀ n t t', A n t → A n (merge' n t t'))
    (hR : ∀ n i s s' t t', act = .deliver n i → A n t → R s t → R s' t' →
      R (merge n s s') (merge' n t t')) :
    Related A R (net.step merge act) (net'.step merge' act) := by
  cases act with
  | send n =>
      exact ⟨h.known, h.store, List.rel_append h.sent (.cons (h.store n) .nil)⟩
  | deliver n i =>
      rw [Net.step, Net.step]
      rcases hs : net.sent[i]? with _ | s
      · have ht : net'.sent[i]? = none := by
          rw [List.getElem?_eq_none_iff] at hs ⊢
          rw [← h.sent.length_eq]
          exact hs
        rw [ht]
        exact h
      · obtain ⟨hi, rfl⟩ := List.getElem?_eq_some_iff.mp hs
        have hi' : i < net'.sent.length := h.sent.length_eq ▸ hi
        rw [List.getElem?_eq_getElem hi']
        have hst : R net.sent[i] net'.sent[i] := h.sent.get hi hi'
        refine ⟨fun m => ?_, fun m => ?_, h.sent⟩
        · by_cases hm : m = n
          · subst hm
            simp only [Function.update_self]
            exact hA m _ _ (h.known m)
          · simp only [Function.update_of_ne hm]
            exact h.known m
        · by_cases hm : m = n
          · subst hm
            simp only [Function.update_self]
            exact hR m i _ _ _ _ rfl (h.known m) (h.store m) hst
          · simp only [Function.update_of_ne hm]
            exact h.store m

/-- **A run** keeps the systems related, if the merges of the nodes that merge do. -/
theorem related_run (h : Related A R net net') (acts : List (Act ι))
    (hA : ∀ n t t', A n t → A n (merge' n t t'))
    (hR : ∀ n i s s' t t', Act.deliver n i ∈ acts → A n t → R s t → R s' t' →
      R (merge n s s') (merge' n t t')) :
    Related A R (run (Net.step merge) net acts) (run (Net.step merge') net' acts) := by
  induction acts using List.reverseRecOn with
  | nil => exact h
  | append_singleton acts act ih =>
      rw [run_concat, run_concat]
      have hrun := ih fun n i s s' t t' hmem =>
        hR n i s s' t t' (List.mem_append_left _ hmem)
      refine hrun.step act hA fun n i s s' t t' hact => ?_
      exact hR n i s s' t t' (List.mem_append_right _ (List.mem_singleton.mpr hact.symm))

end Related

/-! ### Whom a node has heard of -/

/-- The nodes whose value at the start can have reached `n`. -/
def heard (acts : List (Act ι)) (n : ι) : Set ι :=
  (run (Net.step fun _ P Q => P ∪ Q) (⟨fun n => {n}, []⟩ : Net ι (Set ι)) acts).store n

/-- **What a node holds is that of the nodes it has heard of**: `J P s` says that `s` is
the value of the group `P`, and the merges of the nodes that merge join the groups. -/
theorem holds_heard {J : Set ι → S → Prop} {merge : ι → S → S → S} {init : ι → S}
    (acts : List (Act ι)) (hinit : ∀ n, J {n} (init n))
    (hmerge : ∀ n i P Q s s', Act.deliver n i ∈ acts → n ∈ P → J P s → J Q s' →
      J (P ∪ Q) (merge n s s')) (n : ι) :
    n ∈ heard acts n ∧ J (heard acts n) ((run (Net.step merge) ⟨init, []⟩ acts).store n) := by
  have hstart : Related (fun n P => n ∈ P) (fun s P => J P s) (⟨init, []⟩ : Net ι S)
      ⟨fun n => {n}, []⟩ := ⟨fun _ => rfl, hinit, .nil⟩
  have hknown : ∀ n (P Q : Set ι), n ∈ P → n ∈ P ∪ Q := fun _ _ _ hn => Or.inl hn
  have hrun := related_run hstart acts hknown
    (fun n i s s' P Q hmem hn hP hQ => hmerge n i P Q s s' hmem hn hP hQ)
  exact ⟨hrun.known n, hrun.store n⟩

end Gossip
