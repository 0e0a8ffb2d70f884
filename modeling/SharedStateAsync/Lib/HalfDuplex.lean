/-
Two parties that take turns to speak over a connection.

Whose turn it is depends on how much each party has said. What a party has said is in
flight until the other one has heard it, and there is room for so much only. As long as
each party speaks only when it is its turn, what is in flight goes one way, and the two
never wait for each other.

* `Turn`, `Talk`: whose turn it is, from the point of view of one party;
* `InFlight`: what is in flight was said in turn, and goes one way;
* `InFlight.speak`, `InFlight.hear`: it stays so;
* `Idle`, `InFlight.over_of_idle`: parties that can both do nothing have said and heard
  everything.
-/
import Mathlib.Order.Nat
import Mathlib.Tactic.Common

namespace HalfDuplex

/-- What a party is to do. -/
inductive Turn where
  | speak
  | listen
  | finished
  deriving DecidableEq

def Turn.swap : Turn → Turn
  | speak => listen
  | listen => speak
  | finished => finished

@[simp] lemma Turn.swap_swap (x : Turn) : x.swap.swap = x := by
  cases x <;> rfl

/-- What a party is to do after it has said and heard so much. -/
abbrev Talk : Type := ℕ → ℕ → Turn

/-- The talk from the point of view of the other party. -/
def Talk.swap (turn : Talk) : Talk := fun said heard => (turn heard said).swap

@[simp] lemma Talk.swap_swap (turn : Talk) : turn.swap.swap = turn := by
  funext said heard
  rw [Talk.swap, Talk.swap, Turn.swap_swap]

/-- One party has said `a`, of which the other one has heard `a'`, and has heard `b'` of
the `b` that the other one has said. What has not been heard was said in turn, and goes one
way. -/
structure InFlight (turn : Talk) (a a' b b' : ℕ) : Prop where
  le : a' ≤ a
  le' : b' ≤ b
  said : ∀ w, a' ≤ w → w < a → turn w b = .speak
  heard : ∀ w, b' ≤ w → w < b → turn a w = .listen
  oneWay : a = a' ∨ b = b'

/-- A party has nothing to do but wait: for what it is to hear, or for room to speak; or
everything has been said. -/
def Idle (turn : Talk) (room a a' b b' : ℕ) : Prop :=
  (turn a b' = .listen ∧ b' = b) ∨ (turn a b' = .speak ∧ a' + room ≤ a) ∨ turn a b' = .finished

section Steps

variable {turn : Talk} {a a' b b' : ℕ}

lemma InFlight.swap (h : InFlight turn a a' b b') : InFlight turn.swap b b' a a' where
  le := h.le'
  le' := h.le
  said := fun w hw hlt => by
    rw [Talk.swap, h.heard w hw hlt]
    rfl
  heard := fun w hw hlt => by
    rw [Talk.swap, h.said w hw hlt]
    rfl
  oneWay := h.oneWay.symm

/-- Whoever is to speak has heard everything. -/
lemma InFlight.eq_of_speak (h : InFlight turn a a' b b') (hturn : turn a b' = .speak) : b = b' := by
  by_contra hne
  have hlt : b' < b := lt_of_le_of_ne h.le' (Ne.symm hne)
  have hlisten := h.heard b' le_rfl hlt
  rw [hturn] at hlisten
  cases hlisten

/-- The one who hears has been heard. -/
lemma InFlight.eq_of_lt (h : InFlight turn a a' b b') (hlt : b' < b) : a = a' :=
  h.oneWay.resolve_right (Nat.ne_of_gt hlt)

/-- **A party says something** while it is its turn. -/
theorem InFlight.speak (h : InFlight turn a a' b b') {n : ℕ}
    (hturn : ∀ w, a ≤ w → w < a + n → turn w b' = .speak) : InFlight turn (a + n) a' b b' := by
  rcases Nat.eq_zero_or_pos n with rfl | hpos
  · exact h
  have hb : b = b' := h.eq_of_speak (hturn a le_rfl (Nat.lt_add_of_pos_right hpos))
  subst hb
  refine ⟨h.le.trans (Nat.le_add_right a n), le_rfl, fun w hw hlt => ?_,
    fun w hw hlt => absurd hlt (Nat.not_lt.mpr hw), Or.inr rfl⟩
  rcases Nat.lt_or_ge w a with hold | hnew
  · exact h.said w hw hold
  · exact hturn w hnew hlt

/-- **A party hears** some of what is in flight. -/
theorem InFlight.hear (h : InFlight turn a a' b b') {n : ℕ} (hn : b' + n ≤ b) :
    InFlight turn a a' b (b' + n) := by
  rcases Nat.eq_zero_or_pos n with rfl | hpos
  · exact h
  exact ⟨h.le, hn, h.said, fun w hw => h.heard w (le_trans (Nat.le_add_right b' n) hw),
    Or.inl (h.eq_of_lt (lt_of_lt_of_le (Nat.lt_add_of_pos_right hpos) hn))⟩

/-- An idle party has heard everything. -/
lemma InFlight.eq_of_idle (h : InFlight turn a a' b b') {room : ℕ}
    (hidle : Idle turn room a a' b b') : b' = b := by
  rcases hidle with ⟨-, hb⟩ | ⟨hturn, -⟩ | hover
  · exact hb
  · exact (h.eq_of_speak hturn).symm
  · by_contra hne
    have hlisten := h.heard b' le_rfl (lt_of_le_of_ne h.le' hne)
    rw [hover] at hlisten
    cases hlisten

/-- **The parties never wait for each other**: if both can do nothing, all has been said,
and heard. -/
theorem InFlight.over_of_idle (h : InFlight turn a a' b b') {room : ℕ} (hroom : 0 < room)
    (hidle : Idle turn room a a' b b') (hidle' : Idle turn.swap room b b' a a') :
    turn a b = .finished ∧ a' = a ∧ b' = b := by
  obtain rfl := h.eq_of_idle hidle
  obtain rfl := h.swap.eq_of_idle hidle'
  refine ⟨?_, rfl, rfl⟩
  rcases hidle with ⟨hlisten, -⟩ | ⟨-, hfull⟩ | hover
  · rcases hidle' with ⟨hspeak, -⟩ | ⟨-, hfull⟩ | hover
    · rw [Talk.swap, hlisten] at hspeak
      cases hspeak
    · exact absurd hfull (by omega)
    · rw [Talk.swap, hlisten] at hover
      cases hover
  · exact absurd hfull (by omega)
  · exact hover

end Steps

end HalfDuplex
