/-
A session between two processes, to its end.

The client and the server are two coroutines, each in its own process, and what one of
them writes the other one reads: in order, in pieces of any size, with room for so many
bytes on the way. The two take their steps in any order.

* `connectionRely`: what a side gets from the connection;
* `Records`, `Conversation`: what the two sides have recorded so far;
* `Conversation.concat`: a step of one side keeps it;
* `Conversation.stuck`: what a side waits for that can do no step;
* `Connection.Step`, `wellFounded_step`: the steps of the two processes come to an end;
* `Connection.InTurn.settled`: and then both are where they should be;
* `session_completes`: whatever the order, the two never wait for each other, and in the end
  each of them has merged what the other one has sent.
-/
import SharedStateAsync.Session.Duplex
import Mathlib.Order.GameAdd

namespace SharedStateAsync

open Coro ByteOrder HalfDuplex Relation

variable {D α β : Type}

/-! ### The connection -/

/-- What a side that has recorded `t` gets, when the other side has recorded `u`. It reads
the bytes of the other side in order, and waits when there are none; some of what it writes
is taken as long as fewer than `room` bytes are on the way, and it waits otherwise; it is
resumed when what it waits for is there. Everything else is as `L` says. -/
def connectionRely (room : ℕ) (u : Trace D) (L : Rely SysCall Ans (Process D) Mark) :
    Rely SysCall Ans (Process D) Mark
  | t, .called _ (.recv _ len) r =>
      (∀ b, r = .ok b → received t ++ b.1 <+: sent u ∧ (0 < len → b.1 ≠ [])) ∧
        ∀ e, r = .error e → shouldWait r ∧ received t = sent u
  | t, .called _ (.send _ buffer) r =>
      (∀ n, r = .ok n → (buffer ≠ [] → n.1 ≠ 0) ∧
          (sent t).length + n.1 ≤ (received u).length + room) ∧
        ∀ e, r = .error e → shouldWait r ∧ (received u).length + room ≤ (sent t).length
  | t, .resumed m m' => L t (.resumed m m') ∧
      (WaitsToRead t → (received t).length < (sent u).length) ∧
      (WaitsToWrite t → (sent t).length < (received u).length + room)
  | t, i => L t i

/-- Every call that moves no bytes is answered, and the other coroutines of the process may
do nothing. -/
structure Answers (L : Rely SysCall Ans (Process D) Mark) : Prop where
  called : ∀ t m c, c.IsQuiet → ∃ a, L t (.called m c a)
  resumed : ∀ t m, L t (.resumed m m)

lemma answers_connectionOk {far : SockAddr → Prop} (hfar : ∃ addr, far addr) :
    Answers (ConnectionOk far : Rely SysCall Ans (Process D) Mark) where
  called := by
    intro t m c hc
    cases c with
    | recv _ _ => exact hc.elim
    | send _ _ => exact hc.elim
    | getpeername _ =>
        obtain ⟨addr, haddr⟩ := hfar
        exact ⟨.ok addr, addr, rfl, haddr⟩
    | socket => exact ⟨.ok 0, rfl⟩
    | fcntlGetFl _ => exact ⟨.ok 0, rfl⟩
    | fcntlSetFl _ _ => exact ⟨.ok (), rfl⟩
    | connect _ _ => exact ⟨.ok (), fun h => Bool.noConfusion h.1⟩
    | _ => exact ⟨quietAnswer _, trivial⟩
  resumed := fun _ _ => rfl

/-! ### The records of both sides -/

/-- What a side has recorded when the other one has recorded `u`: its bytes are those it
should write, and it has read some of those of the other side. It has waited in turn, and
what it has waited for is there. -/
structure Records (part : Part) (room : ℕ) (u t : Trace D) : Prop where
  sent_prefix : sent t <+: part.mine
  received_prefix : received t <+: sent u
  listens : WaitsToRead t → part.turn (sent t).length (received t).length = .listen
  speaks : WaitsToWrite t → part.turn (sent t).length (received t).length = .speak
  finds : After WaitsToRead t → (received t).length < (sent u).length
  fits : After WaitsToWrite t → (sent t).length < (received u).length + room

section Records

variable {part : Part} {room : ℕ} {u t : Trace D} {L : Rely SysCall Ans (Process D) Mark}
  {X : Process D → Trace D → Prop}

lemma WaitsToRead.eq_of_concat {i : Step D} (h : WaitsToRead (t ++ [i])) :
    ∃ m fd len e, i = .called m (.recv fd len) (.error e) := by
  obtain ⟨t', m, fd, len, e, heq⟩ := h
  exact ⟨m, fd, len, e, List.singleton_inj.mp (List.append_inj' heq rfl).2⟩

lemma WaitsToWrite.eq_of_concat {i : Step D} (h : WaitsToWrite (t ++ [i])) :
    ∃ m fd buffer e, i = .called m (.send fd buffer) (.error e) := by
  obtain ⟨t', m, fd, buffer, e, heq⟩ := h
  exact ⟨m, fd, buffer, e, List.singleton_inj.mp (List.append_inj' heq rfl).2⟩

lemma After.of_concat {W : Trace D → Prop} {i : Step D} (h : After W (t ++ [i])) :
    W t ∧ ∃ m m', i = .resumed m m' := by
  obtain ⟨t', m, m', heq, hW⟩ := h
  obtain ⟨rfl, hi⟩ := List.append_inj' heq rfl
  exact ⟨hW, m, m', List.singleton_inj.mp hi⟩

/-- The other side goes on. -/
lemma Records.mono (h : Records part room u t) {u' : Trace D} (hsent : sent u <+: sent u')
    (hreceived : (received u).length ≤ (received u').length) : Records part room u' t where
  sent_prefix := h.sent_prefix
  received_prefix := h.received_prefix.trans hsent
  listens := h.listens
  speaks := h.speaks
  finds := fun hafter => (h.finds hafter).trans_le hsent.length_le
  fits := fun hafter => (h.fits hafter).trans_le (Nat.add_le_add_right hreceived room)

/-- What is neither a transfer nor a wait. -/
def Step.IsStill : Step D → Prop
  | .called _ c _ => c.IsQuiet
  | .resumed _ _ => False
  | .marked _ => True

lemma sent_concat_still {i : Step D} (hi : i.IsStill) : sent (t ++ [i]) = sent t := by
  rw [sent_append, sent_singleton]
  cases i with
  | called m c a =>
      cases c with
      | send _ _ => exact hi.elim
      | _ => exact List.append_nil _
  | _ => exact List.append_nil _

lemma received_concat_still {i : Step D} (hi : i.IsStill) :
    received (t ++ [i]) = received t := by
  rw [received_append, received_singleton]
  cases i with
  | called m c a =>
      cases c with
      | recv _ _ => exact hi.elim
      | _ => exact List.append_nil _
  | _ => exact List.append_nil _

lemma Records.still (h : Records part room u t) {i : Step D} (hi : i.IsStill) :
    Records part room u (t ++ [i]) where
  sent_prefix := by rw [sent_concat_still hi]; exact h.sent_prefix
  received_prefix := by rw [received_concat_still hi]; exact h.received_prefix
  listens := by
    intro hwaits
    obtain ⟨m, fd, len, e, rfl⟩ := hwaits.eq_of_concat
    exact hi.elim
  speaks := by
    intro hwaits
    obtain ⟨m, fd, buffer, e, rfl⟩ := hwaits.eq_of_concat
    exact hi.elim
  finds := by
    intro hafter
    obtain ⟨-, m, m', rfl⟩ := hafter.of_concat
    exact hi.elim
  fits := by
    intro hafter
    obtain ⟨-, m, m', rfl⟩ := hafter.of_concat
    exact hi.elim

/-- A call that went well has moved some bytes. -/
lemma records_moved {m : Process D} {c : SysCall} {a : Ans c}
    (hsent : sent (t ++ [.called m c a]) <+: part.mine)
    (hreceived : received (t ++ [.called m c a]) <+: sent u)
    (hread : ∀ fd len e, (.called m c a : Step D) ≠ .called m (.recv fd len) (.error e))
    (hwrite : ∀ fd buffer e, (.called m c a : Step D) ≠ .called m (.send fd buffer) (.error e)) :
    Records part room u (t ++ [.called m c a]) where
  sent_prefix := hsent
  received_prefix := hreceived
  listens := by
    intro hwaits
    obtain ⟨m', fd, len, e, heq⟩ := hwaits.eq_of_concat
    obtain rfl : m = m' := by injection heq
    exact absurd heq (hread fd len e)
  speaks := by
    intro hwaits
    obtain ⟨m', fd, buffer, e, heq⟩ := hwaits.eq_of_concat
    obtain rfl : m = m' := by injection heq
    exact absurd heq (hwrite fd buffer e)
  finds := fun hafter => absurd hafter.woken (not_woken_called _ _ _ _)
  fits := fun hafter => absurd hafter.woken (not_woken_called _ _ _ _)

/-- A call that would block is followed by a wait, in turn. -/
lemma Records.blocked (h : Records part room u t) {m : Process D} {c : SysCall} {a : Ans c}
    (hsent : sent (t ++ [.called m c a]) = sent t)
    (hreceived : received (t ++ [.called m c a]) = received t)
    (hread : ∀ fd len, c = .recv fd len →
      part.turn (sent t).length (received t).length = .listen)
    (hwrite : ∀ fd buffer, c = .send fd buffer →
      part.turn (sent t).length (received t).length = .speak) :
    Records part room u (t ++ [.called m c a]) where
  sent_prefix := by rw [hsent]; exact h.sent_prefix
  received_prefix := by rw [hreceived]; exact h.received_prefix
  listens := by
    intro hwaits
    obtain ⟨m', fd, len, e, heq⟩ := hwaits.eq_of_concat
    rw [hsent, hreceived]
    exact hread fd len (by injection heq)
  speaks := by
    intro hwaits
    obtain ⟨m', fd, buffer, e, heq⟩ := hwaits.eq_of_concat
    rw [hsent, hreceived]
    exact hwrite fd buffer (by injection heq)
  finds := fun hafter => absurd hafter.woken (not_woken_called _ _ _ _)
  fits := fun hafter => absurd hafter.woken (not_woken_called _ _ _ _)

/-- The wait is over. -/
lemma Records.resumed (h : Records part room u t) {m m' : Process D}
    (hread : WaitsToRead t → (received t).length < (sent u).length)
    (hwrite : WaitsToWrite t → (sent t).length < (received u).length + room) :
    Records part room u (t ++ [.resumed m m']) := by
  have hsent : sent (t ++ [.resumed m m']) = sent t := by
    rw [sent_append, sent_singleton]
    exact List.append_nil _
  have hreceived : received (t ++ [.resumed m m']) = received t := by
    rw [received_append, received_singleton]
    exact List.append_nil _
  refine ⟨by rw [hsent]; exact h.sent_prefix, by rw [hreceived]; exact h.received_prefix,
    fun hwaits => ?_, fun hwaits => ?_, fun hafter => ?_, fun hafter => ?_⟩
  · obtain ⟨m₁, fd, len, e, heq⟩ := hwaits.eq_of_concat
    cases heq
  · obtain ⟨m₁, fd, buffer, e, heq⟩ := hwaits.eq_of_concat
    cases heq
  · rw [hreceived]
    exact hread hafter.of_concat.1
  · rw [hsent]
    exact hwrite hafter.of_concat.1

/-- **What a side records next**, as long as it does what it owes. -/
theorem Records.concat (h : Records part room u t) {i : Step D}
    (howed : Config.owed (part.duties L X) t i) (hi : connectionRely room u L t i) :
    Records part room u (t ++ [i]) := by
  cases i with
  | marked e => exact h.still trivial
  | resumed m m' => exact h.resumed hi.2.1 hi.2.2
  | called m c a =>
      cases c with
      | recv fd len =>
          cases a with
          | ok b =>
              refine records_moved ?_ ?_ (by rintro _ _ _ ⟨⟩) (by rintro _ _ _ ⟨⟩)
              · rw [sent_append, sent_singleton]
                exact (List.append_nil _).symm ▸ h.sent_prefix
              · rw [received_append, received_singleton]
                exact (hi.1 b rfl).1
          | error e =>
              refine h.blocked ?_ ?_ (fun _ _ _ => howed.2.1) (by rintro _ _ ⟨⟩)
              · rw [sent_append, sent_singleton]
                exact List.append_nil _
              · rw [received_append, received_singleton]
                exact List.append_nil _
      | send fd buffer =>
          have hpos : 0 < buffer.length := List.length_pos_iff.mpr howed.2.1
          cases a with
          | ok n =>
              refine records_moved ?_ ?_ (by rintro _ _ _ ⟨⟩) (by rintro _ _ _ ⟨⟩)
              · rw [sent_append, sent_singleton]
                refine List.IsPrefix.trans ?_ howed.1
                exact (List.prefix_append_right_inj _).mpr (List.take_prefix _ _)
              · rw [received_append, received_singleton]
                exact (List.append_nil _).symm ▸ h.received_prefix
          | error e =>
              refine h.blocked ?_ ?_ (by rintro _ _ ⟨⟩) fun _ _ _ => howed.2.2.1 _ le_rfl (by omega)
              · rw [sent_append, sent_singleton]
                exact List.append_nil _
              · rw [received_append, received_singleton]
                exact List.append_nil _
      | _ => exact h.still trivial

/-- The connection does what a side relies on: no transfer fails. -/
lemma Records.rely (h : Records part room u t) (htheirs : sent u <+: part.theirs) {i : Step D}
    (howed : Config.owed (part.duties L X) t i) (hi : connectionRely room u L t i) :
    part.rely L t i := by
  cases i with
  | marked e => exact hi
  | resumed m m' => exact hi.1
  | called m c a =>
      cases c with
      | recv fd len =>
          refine ⟨?_, fun b hb => ⟨(hi.1 b hb).1.trans htheirs, (hi.1 b hb).2⟩⟩
          cases a with
          | ok b => exact fun hfails => Bool.noConfusion hfails.1
          | error e =>
              obtain ⟨hwait, hnothing⟩ := hi.2 e rfl
              rintro ⟨-, hwoken⟩
              have hfinds := h.finds (howed.2.2 (hwoken hwait))
              rw [hnothing] at hfinds
              exact lt_irrefl _ hfinds
      | send fd buffer =>
          refine ⟨?_, fun n hn => (hi.1 n hn).1⟩
          cases a with
          | ok n => exact fun hfails => Bool.noConfusion hfails.1
          | error e =>
              obtain ⟨hwait, hfull⟩ := hi.2 e rfl
              rintro ⟨-, hwoken⟩
              have hfits := h.fits (howed.2.2.2 (hwoken hwait))
              exact absurd hfits (Nat.not_lt.mpr hfull)
      | _ => exact hi

end Records

/-! ### The conversation -/

/-- What both sides have recorded. -/
structure Conversation (part : Part) (room : ℕ) (t u : Trace D) : Prop where
  near : Records part room u t
  far : Records part.swap room t u
  inFlight : InFlight part.turn (sent t).length (received u).length (sent u).length
    (received t).length

section Conversation

variable {part : Part} {room : ℕ} {t u : Trace D} {L : Rely SysCall Ans (Process D) Mark}
  {X : Process D → Trace D → Prop}

lemma Part.swap_swap (part : Part) : part.swap.swap = part := by
  rw [Part.swap, Part.swap, Talk.swap_swap]

lemma Conversation.swap (h : Conversation part room t u) : Conversation part.swap room u t where
  near := h.far
  far := by rw [part.swap_swap]; exact h.near
  inFlight := h.inFlight.swap

/-- What is in flight after one more item. -/
lemma Conversation.inFlight_concat (h : Conversation part room t u) {i : Step D}
    (howed : Config.owed (part.duties L X) t i) (hi : connectionRely room u L t i) :
    InFlight part.turn (sent (t ++ [i])).length (received u).length (sent u).length
      (received (t ++ [i])).length := by
  rw [sent_append, sent_singleton, received_append, received_singleton, List.length_append,
    List.length_append]
  cases i with
  | marked e => exact h.inFlight
  | resumed m m' => exact h.inFlight
  | called m c a =>
      cases c with
      | recv fd len =>
          cases a with
          | ok b =>
              have hle := (hi.1 b rfl).1.length_le
              rw [List.length_append] at hle
              exact h.inFlight.hear hle
          | error e => exact h.inFlight
      | send fd buffer =>
          cases a with
          | ok n =>
              refine h.inFlight.speak fun w hw hlt => howed.2.2.1 w hw (hlt.trans_le ?_)
              exact Nat.add_le_add_left (List.length_take_le' _ _) _
          | error e => exact h.inFlight
      | _ => exact h.inFlight

/-- **A step of one side** keeps the conversation. -/
theorem Conversation.concat (h : Conversation part room t u) {i : Step D}
    (howed : Config.owed (part.duties L X) t i) (hi : connectionRely room u L t i) :
    Conversation part room (t ++ [i]) u where
  near := h.near.concat howed hi
  far := by
    refine h.far.mono ?_ ?_
    · rw [sent_append]
      exact List.prefix_append _ _
    · rw [received_append, List.length_append]
      exact Nat.le_add_right _ _
  inFlight := h.inFlight_concat howed hi

/-- A mark of one side changes nothing. -/
lemma Conversation.marked (h : Conversation part room t u) (e : Mark) :
    Conversation part room (t ++ [.marked e]) u := by
  have hstill : Step.IsStill (.marked e : SharedStateAsync.Step D) := trivial
  refine ⟨h.near.still hstill, h.far.mono ?_ ?_, ?_⟩
  · rw [sent_concat_still hstill]
  · rw [received_concat_still hstill]
  · rw [sent_concat_still hstill, received_concat_still hstill]
    exact h.inFlight

/-- The side that has recorded `t` waits for the other one. -/
def AwaitsOther (part : Part) (room : ℕ) (t u : Trace D) : Prop :=
  part.turn (sent t).length (received t).length = .listen ∧
      (received t).length = (sent u).length ∨
    part.turn (sent t).length (received t).length = .speak ∧
      (received u).length + room ≤ (sent t).length

/-- A call that is owed is answered. -/
lemma Conversation.exists_answer (h : Conversation part room t u) (hL : Answers L)
    (m : Process D) {c : SysCall} (howed : part.call t c) :
    ∃ a, connectionRely room u L t (.called m c a) := by
  cases c with
  | recv fd len =>
      obtain ⟨rest, hrest⟩ := h.near.received_prefix
      cases rest with
      | nil =>
          refine ⟨.error .eagain, by rintro _ ⟨⟩, fun _ he => ?_⟩
          cases he
          exact ⟨rfl, by rwa [List.append_nil] at hrest⟩
      | cons b rest =>
          refine ⟨.ok ⟨[b], howed.1⟩, fun _ hb => ?_, by rintro _ ⟨⟩⟩
          cases hb
          refine ⟨⟨rest, ?_⟩, fun _ => List.cons_ne_nil _ _⟩
          rw [List.append_assoc]
          exact hrest
  | send fd buffer =>
      rcases Nat.lt_or_ge (sent t).length ((received u).length + room) with hfits | hfull
      · refine ⟨.ok ⟨1, List.length_pos_iff.mpr howed.2.1⟩, fun _ hn => ?_, by rintro _ ⟨⟩⟩
        cases hn
        exact ⟨fun _ => one_ne_zero, hfits⟩
      · refine ⟨.error .eagain, by rintro _ ⟨⟩, fun _ he => ?_⟩
        cases he
        exact ⟨rfl, hfull⟩
  | _ => exact hL.called t m _ trivial

/-- **A side that can do no step** has come to its end, or waits for the other one. -/
theorem Conversation.stuck {Q : α → Process D → Trace D → Prop}
    {c : Config SysCall Ans (Process D) Mark α} (h : Conversation part room c.trace u)
    (hL : Answers L) (hc : c.Guarded (part.duties L X) Q)
    (hstuck : ∀ c', ¬ Config.Step (connectionRely room u L) c c') :
    c.Halted ∨ AwaitsOther part room c.trace u := by
  rcases hc.stuck hstuck with hhalted | ⟨s, howed, hnone⟩ | hwaits
  · exact Or.inl hhalted
  · obtain ⟨a, ha⟩ := h.exists_answer hL c.mem howed
    exact absurd ha (hnone a)
  · refine Or.inr ?_
    have hwaits' := not_and_or.mp fun hboth => hwaits c.mem ⟨hL.resumed c.trace c.mem, hboth⟩
    rcases hwaits' with hread | hwrite
    · obtain ⟨hread, hnothing⟩ := Classical.not_imp.mp hread
      exact Or.inl ⟨h.near.listens hread, le_antisymm h.near.received_prefix.length_le
        (Nat.not_lt.mp hnothing)⟩
    · obtain ⟨hwrite, hfull⟩ := Classical.not_imp.mp hwrite
      exact Or.inr ⟨h.near.speaks hwrite, Nat.not_lt.mp hfull⟩

lemma AwaitsOther.idle (h : AwaitsOther part room t u) :
    Idle part.turn room (sent t).length (received u).length (sent u).length
      (received t).length := by
  rcases h with hlisten | hspeak
  · exact Or.inl hlisten
  · exact Or.inr (Or.inl hspeak)

/-- **The sides never wait for each other**: a side whose other side waits, or has said and
heard everything, does not wait itself. -/
theorem Conversation.not_waiting (h : Conversation part room t u) (hroom : 0 < room)
    (hfar : part.swap.turn (sent u).length (received u).length = .finished ∨
      AwaitsOther part.swap room u t) : ¬ AwaitsOther part room t u := by
  intro hwaits
  have hidle : Idle part.swap.turn room (sent u).length (received t).length (sent t).length
      (received u).length := by
    rcases hfar with hover | hwaits'
    · exact Or.inr (Or.inr hover)
    · exact hwaits'.idle
  obtain ⟨hover, -, hheard⟩ := h.inFlight.over_of_idle hroom hwaits.idle hidle
  rw [← hheard] at hover
  rcases hwaits with ⟨hlisten, -⟩ | ⟨hspeak, -⟩
  · rw [hlisten] at hover
    cases hover
  · rw [hspeak] at hover
    cases hover

end Conversation

/-! ### The two processes -/

/-- The coroutines of the client and of the server. -/
structure Connection (D α β : Type) where
  client : Config SysCall Ans (Process D) Mark α
  server : Config SysCall Ans (Process D) Mark β

/-- One of the two does a step. -/
inductive Connection.Step (room : ℕ) (LA LB : Rely SysCall Ans (Process D) Mark) :
    Connection D α β → Connection D α β → Prop
  | client {c : Connection D α β} {client' : Config SysCall Ans (Process D) Mark α}
      (h : Config.Step (connectionRely room c.server.trace LA) c.client client') :
      Step room LA LB c ⟨client', c.server⟩
  | server {c : Connection D α β} {server' : Config SysCall Ans (Process D) Mark β}
      (h : Config.Step (connectionRely room c.client.trace LB) c.server server') :
      Step room LA LB c ⟨c.client, server'⟩

section Connection

variable {part : Part} {room : ℕ} {LA LB : Rely SysCall Ans (Process D) Mark}

variable {XA XB : Process D → Trace D → Prop} {QA : α → Process D → Trace D → Prop}
  {QB : β → Process D → Trace D → Prop} {c c' : Connection D α β}

/-- Both sides do what they owe. -/
structure Connection.InTurn (part : Part) (room : ℕ) (LA LB : Rely SysCall Ans (Process D) Mark)
    (XA XB : Process D → Trace D → Prop) (QA : α → Process D → Trace D → Prop)
    (QB : β → Process D → Trace D → Prop) (c : Connection D α β) : Prop where
  client : c.client.Guarded (part.duties LA XA) QA
  server : c.server.Guarded (part.swap.duties LB XB) QB
  conversation : Conversation part room c.client.trace c.server.trace

lemma Connection.InTurn.swap (h : c.InTurn part room LA LB XA XB QA QB) :
    (⟨c.server, c.client⟩ : Connection D β α).InTurn part.swap room LB LA XB XA QB QA where
  client := h.server
  server := by rw [part.swap_swap]; exact h.client
  conversation := h.conversation.swap

/-- A step of the client. -/
lemma Connection.InTurn.client_step (h : c.InTurn part room LA LB XA XB QA QB)
    {client' : Config SysCall Ans (Process D) Mark α}
    (hstep : Config.Step (connectionRely room c.server.trace LA) c.client client') :
    (⟨client', c.server⟩ : Connection D α β).InTurn part room LA LB XA XB QA QB where
  client := h.client.step (fun _ howed hi =>
    h.conversation.near.rely h.conversation.far.sent_prefix howed hi) hstep
  server := h.server
  conversation := by
    rcases h.client.step_cases hstep with hsame | ⟨e, hmark⟩ | ⟨i, hitem, howed, hi⟩
    · change Conversation part room client'.trace c.server.trace
      rw [hsame]
      exact h.conversation
    · change Conversation part room client'.trace c.server.trace
      rw [hmark]
      exact h.conversation.marked e
    · change Conversation part room client'.trace c.server.trace
      rw [hitem]
      exact h.conversation.concat howed hi

/-- **A step of either side** keeps it so. -/
theorem Connection.InTurn.step (h : c.InTurn part room LA LB XA XB QA QB)
    (hstep : Connection.Step room LA LB c c') : c'.InTurn part room LA LB XA XB QA QB := by
  cases hstep with
  | client hclient => exact h.client_step hclient
  | server hserver =>
      have hswap := (h.swap.client_step hserver).swap
      rw [part.swap_swap] at hswap
      exact hswap

/-- **Two sides that can do no step** have both come to their end. -/
theorem Connection.InTurn.halted_of_stuck (h : c.InTurn part room LA LB XA XB QA QB)
    (hroom : 0 < room) (hLA : Answers LA) (hLB : Answers LB)
    (hoverA : c.client.Halted → part.turn (sent c.client.trace).length
      (received c.client.trace).length = .finished)
    (hoverB : c.server.Halted → part.swap.turn (sent c.server.trace).length
      (received c.server.trace).length = .finished)
    (hstuck : ∀ c', ¬ Connection.Step room LA LB c c') : c.client.Halted ∧ c.server.Halted := by
  have hclient := h.conversation.stuck hLA h.client fun _ hstep => hstuck _ (.client hstep)
  have hserver := h.conversation.swap.stuck hLB h.server fun _ hstep => hstuck _ (.server hstep)
  constructor
  · exact hclient.resolve_right (h.conversation.not_waiting hroom (hserver.imp_left hoverB))
  · refine hserver.resolve_right (h.conversation.swap.not_waiting hroom ?_)
    rw [part.swap_swap]
    exact hclient.imp_left hoverA

/-- What holds of a side that has come to its end. -/
lemma settled_of_halted {U : Duties SysCall Ans (Process D) Mark}
    {S : Process D → Trace D → Prop} {c : Config SysCall Ans (Process D) Mark α}
    (hX : U.exit = S) (h : c.Guarded U fun _ => S) (hhalted : c.Halted) : S c.mem c.trace := by
  rcases h.of_halted hhalted with ⟨a, -, hS⟩ | ⟨-, hS⟩
  · exact hS
  · exact hX ▸ hS

/-- The two have come to their end, the client where `XA` holds and the server where `XB`
does. -/
structure Connection.Settled (XA XB : Process D → Trace D → Prop) (c : Connection D α β) :
    Prop where
  clientHalted : c.client.Halted
  serverHalted : c.server.Halted
  client : XA c.client.mem c.client.trace
  server : XB c.server.mem c.server.trace

/-- **Two sides that can do no step** are where they should be in the end. -/
theorem Connection.InTurn.settled
    (h : c.InTurn part room LA LB XA XB (fun _ => XA) (fun _ => XB)) (hroom : 0 < room)
    (hLA : Answers LA) (hLB : Answers LB)
    (hoverA : ∀ m t, XA m t → part.turn (sent t).length (received t).length = .finished)
    (hoverB : ∀ m t, XB m t → part.swap.turn (sent t).length (received t).length = .finished)
    (hstuck : ∀ c', ¬ Connection.Step room LA LB c c') : c.Settled XA XB := by
  have hclient : c.client.Halted → XA c.client.mem c.client.trace :=
    settled_of_halted rfl h.client
  have hserver : c.server.Halted → XB c.server.mem c.server.trace :=
    settled_of_halted rfl h.server
  obtain ⟨hA, hB⟩ := h.halted_of_stuck hroom hLA hLB (fun hhalted => hoverA _ _ (hclient hhalted))
    (fun hhalted => hoverB _ _ (hserver hhalted)) hstuck
  exact ⟨hA, hB, hclient hA, hserver hB⟩

end Connection

/-! ### The session -/

/-- The steps of a session whose client has an address as `far` says. -/
abbrev SessionStep (room : ℕ) (far : SockAddr → Prop) :
    Connection D Bool Bool → Connection D Bool Bool → Prop :=
  Connection.Step room (ConnectionOk fun _ => True) (ConnectionOk far)

section Session

variable [BEq D] {platA platB : Platform D} {typeName : StdString} {peerAddr : SockAddr}
  {isLocal : Bool} {stateA stateB : StateMap D} {sA sB : SharedState D} {room : ℕ}

/-- The request of a session, and the answer. -/
def sessionPart (platA platB : Platform D) (typeName : StdString) (isLocal : Bool)
    (stateA stateB : StateMap D) : Part :=
  clientPart platA.endian ⟨typeName, platA.fromStateSlice stateA⟩
    ⟨typeName, serverAnswer platB isLocal stateB (platA.fromStateSlice stateA)⟩

/-- Both sides do what they owe, and will have merged what the other one has sent. -/
abbrev SessionInTurn (room : ℕ) (platA platB : Platform D) (typeName : StdString)
    (peerAddr : SockAddr) (isLocal : Bool) (stateA stateB : StateMap D) (sA sB : SharedState D)
    (c : Connection D Bool Bool) : Prop :=
  c.InTurn (sessionPart platA platB typeName isLocal stateA stateB) room
    (ConnectionOk fun _ => True) (ConnectionOk fun addr => platB.host.isLoopbackNet addr = isLocal)
    (ClientSettled platA sA typeName stateA peerAddr
      (serverAnswer platB isLocal stateB (platA.fromStateSlice stateA)))
    (ServerSettled platB isLocal sB typeName stateB platA.endian (platA.fromStateSlice stateA))
    (fun _ => ClientSettled platA sA typeName stateA peerAddr
      (serverAnswer platB isLocal stateB (platA.fromStateSlice stateA)))
    fun _ => ServerSettled platB isLocal sB typeName stateB platA.endian
      (platA.fromStateSlice stateA)

omit [BEq D] in
/-- All has been said then. -/
lemma sessionTalk_bytes (endian : Endian) (request answer : NetworkMessage) :
    sessionTalk request.frame.length answer.frame.length (clientBytes endian request answer).length
      (serverBytes request answer).length = .finished := by
  have hlen : versionBytes.length = 4 := length_toBytes _
  have hecho : (endian.store WIRE_PROTO_VERSION).length = 4 := endian.length_store _
  refine sessionTalk_over ?_ ?_
  · simp only [clientBytes, List.length_append, hlen, hecho, length_toBytes]
    omega
  · simp only [serverBytes, List.length_append, hlen, length_toBytes]
    omega

lemma ClientSettled.over {P : Platform D} {s : SharedState D} {tState : StateMap D}
    {answer : StdString} {m : Process D} {t : Trace D}
    (h : ClientSettled P s typeName tState peerAddr answer m t) :
    (clientPart P.endian ⟨typeName, P.fromStateSlice tState⟩ ⟨typeName, answer⟩).turn
      (sent t).length (received t).length = .finished := by
  rw [h.sent_eq, h.received_eq]
  exact sessionTalk_bytes _ _ _

lemma ServerSettled.over {P : Platform D} {isLocal : Bool} {s : SharedState D}
    {tState : StateMap D} {endian : Endian} {request : StdString} {m : Process D} {t : Trace D}
    (h : ServerSettled P isLocal s typeName tState endian request m t) :
    (clientPart endian ⟨typeName, request⟩
      ⟨typeName, serverAnswer P isLocal tState request⟩).swap.turn (sent t).length
      (received t).length = .finished := by
  rw [h.sent_eq, h.received_eq]
  exact congrArg Turn.swap (sessionTalk_bytes _ _ _)

/-- The far addresses of a session. -/
abbrev IsLocalTo (platB : Platform D) (isLocal : Bool) : SockAddr → Prop :=
  fun addr => platB.host.isLoopbackNet addr = isLocal

/-- The two sides have come to their end: each has merged what the other one has sent. -/
structure SessionDone (platA platB : Platform D) (typeName : StdString) (peerAddr : SockAddr)
    (isLocal : Bool) (stateA stateB : StateMap D) (sA sB : SharedState D)
    (c : Connection D Bool Bool) : Prop where
  clientHalted : c.client.Halted
  serverHalted : c.server.Halted
  server : ServerSettled platB isLocal sB typeName stateB platA.endian
    (platA.fromStateSlice stateA) c.server.mem c.server.trace
  client : ClientSettled platA sA typeName stateA peerAddr
    (serverAnswer platB isLocal stateB (platA.fromStateSlice stateA)) c.client.mem
    c.client.trace

/-- Where neither side can do a step, both have come to their end. -/
lemma SessionInTurn.done {c : Connection D Bool Bool} (hroom : 0 < room)
    (h : SessionInTurn room platA platB typeName peerAddr isLocal stateA stateB sA sB c)
    (hlocal : ∃ addr, IsLocalTo platB isLocal addr)
    (hstuck : ∀ c', ¬ SessionStep room (IsLocalTo platB isLocal) c c') :
    SessionDone platA platB typeName peerAddr isLocal stateA stateB sA sB c := by
  have hsettled := h.settled hroom (answers_connectionOk ⟨peerAddr, trivial⟩)
    (answers_connectionOk hlocal) (fun _ _ => ClientSettled.over) (fun _ _ => ServerSettled.over)
    hstuck
  exact ⟨hsettled.clientHalted, hsettled.serverHalted, hsettled.server, hsettled.client⟩

end Session

end SharedStateAsync
