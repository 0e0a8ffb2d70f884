/-
Who speaks when in a session.

The bytes of a session are fixed by the two messages: the client sends the version twice,
its request and an acknowledgement, the server the version, an acknowledgement and its
answer. Each side writes only when it is its turn, and reads only when it is the turn of
the other one, however the bytes are cut into pieces.

* `Part`: the bytes of both sides, and whose turn it is;
* `Part.duties`: what a side owes for each call, and what it relies on;
* `Standing`: how far a side has got;
* `guarded_recv`, `guarded_send`: the loops that read and write;
* `guarded_clientHandShake`, `guarded_serverHandShake`, `guarded_sendNetworkMessage`,
  `guarded_receiveNetworkMessage`: the phases of a session.
-/
import SharedStateAsync.Lib.HalfDuplex
import SharedStateAsync.Lib.SmallStep
import SharedStateAsync.Session.Agreement
import SharedStateAsync.Wire.Handshake
import SharedStateAsync.Wire.Transfer

namespace SharedStateAsync

open Coro ByteOrder HalfDuplex

variable {D α : Type}

/-! ### The part of a side -/

/-- The bytes a side is to write and to read, and whose turn it is. -/
structure Part where
  mine : StdString
  theirs : StdString
  turn : Talk

/-- What a side relies on: the other side sends what it should, the socket works, and
everything else is as `L` says. -/
def Part.rely (part : Part) (L : Rely SysCall Ans (Process D) Mark) :
    Rely SysCall Ans (Process D) Mark
  | t, .called _ (.recv _ len) r =>
      ¬ Fails t r ∧ ∀ b, r = .ok b → received t ++ b.1 <+: part.theirs ∧ (0 < len → b.1 ≠ [])
  | t, .called _ (.send _ buffer) r => ¬ Fails t r ∧ ∀ n, r = .ok n → buffer ≠ [] → n.1 ≠ 0
  | t, i => L t i

/-- The coroutine has just found nothing to read. -/
def WaitsToRead (t : Trace D) : Prop :=
  ∃ t' m fd len e, t = t' ++ [.called m (.recv fd len) (.error e)]

/-- The coroutine has just found no room to write. -/
def WaitsToWrite (t : Trace D) : Prop :=
  ∃ t' m fd buffer e, t = t' ++ [.called m (.send fd buffer) (.error e)]

/-- The coroutine has just been resumed, after it waited as `W` says. -/
def After (W : Trace D → Prop) (t : Trace D) : Prop :=
  ∃ t' m m', t = t' ++ [.resumed m m'] ∧ W t'

/-- What a side owes for a call: it writes what it should, it reads and writes in turn, and
what it does right after it has been resumed is what it has waited for. -/
def Part.call (part : Part) (t : Trace D) : SysCall → Prop
  | .recv _ len => 0 < len ∧ part.turn (sent t).length (received t).length = .listen ∧
      (Woken t → After WaitsToRead t)
  | .send _ buffer => sent t ++ buffer <+: part.mine ∧ buffer ≠ [] ∧
      (∀ w, (sent t).length ≤ w → w < (sent t).length + buffer.length →
        part.turn w (received t).length = .speak) ∧ (Woken t → After WaitsToWrite t)
  | _ => True

/-- The duties of a side; `X` is to hold when it ends its process. -/
def Part.duties (part : Part) (L : Rely SysCall Ans (Process D) Mark)
    (X : Process D → Trace D → Prop) : Duties SysCall Ans (Process D) Mark where
  rely := part.rely L
  call := fun t _ c => part.call t c
  exit := X

/-- How far a side has got: its store and its news, and the bytes it has written and
read. -/
structure Standing (s : SharedState D) (news : List Mark) (out inp : StdString) (m : Process D)
    (t : Trace D) : Prop where
  kept : Kept s news m t
  sent_eq : sent t = out
  received_eq : received t = inp

/-- The same for a side that has not just been resumed. -/
structure Poised (s : SharedState D) (news : List Mark) (out inp : StdString) (m : Process D)
    (t : Trace D) : Prop extends Standing s news out inp m t where
  awake : ¬ Woken t

section Standing

variable {s : SharedState D} {news : List Mark} {out inp : StdString} {m : Process D} {t : Trace D}

lemma Standing.quiet (h : Standing s news out inp m t) {i : Step D} (hnews : newsOf [i] = [])
    (hsent : i.sent = []) (hreceived : i.received = []) :
    Standing s news out inp m (t ++ [i]) where
  kept := h.kept.quiet hnews
  sent_eq := by rw [sent_append, sent_singleton, hsent, List.append_nil, h.sent_eq]
  received_eq := by
    rw [received_append, received_singleton, hreceived, List.append_nil, h.received_eq]

lemma Standing.resumed (h : Standing s news out inp m t) {m' : Process D}
    (hm : m'.shared = m.shared) : Standing s news out inp m' (t ++ [.resumed m m']) := by
  have hquiet := h.quiet (i := .resumed m m') rfl rfl rfl
  exact ⟨⟨hm.trans hquiet.kept.shared_eq, hquiet.kept.news_eq⟩, hquiet.sent_eq, hquiet.received_eq⟩

lemma not_woken_called (t : Trace D) (m : Process D) (c : SysCall) (a : Ans c) :
    ¬ Woken (t ++ [.called m c a]) := by
  rintro ⟨t', m₁, m₂, h⟩
  cases (List.append_inj' h rfl).2

lemma not_woken_marked (t : Trace D) (e : Mark) : ¬ Woken (t ++ [.marked e]) := by
  rintro ⟨t', m₁, m₂, h⟩
  cases (List.append_inj' h rfl).2

lemma Standing.marked (h : Standing s news out inp m t) (e : Mark) (he : e.isNews) :
    Poised s (news ++ [e]) out inp m (t ++ [.marked e]) := by
  refine ⟨⟨h.kept.concat e he, ?_, ?_⟩, not_woken_marked t e⟩
  · rw [sent_append, sent_singleton, h.sent_eq]
    exact List.append_nil _
  · rw [received_append, received_singleton, h.received_eq]
    exact List.append_nil _

/-- A step that is neither a transfer nor a mark is quiet. -/
def SysCall.IsQuiet : SysCall → Prop
  | .recv _ _ | .send _ _ => False
  | _ => True

lemma Standing.called (h : Standing s news out inp m t) {c : SysCall} (hc : c.IsQuiet)
    (m' : Process D) (a : Ans c) : Poised s news out inp m (t ++ [.called m' c a]) := by
  refine ⟨h.quiet rfl ?_ ?_, not_woken_called t m' c a⟩
  · cases c with
    | send _ _ => exact hc.elim
    | _ => rfl
  · cases c with
    | recv _ _ => exact hc.elim
    | _ => rfl

end Standing

lemma After.woken {W : Trace D → Prop} {t : Trace D} (h : After W t) : Woken t := by
  obtain ⟨t', m, m', rfl, -⟩ := h
  exact woken_concat_resumed t' m m'

/-! ### Waiting -/

section Rules

variable {part : Part} {L : Rely SysCall Ans (Process D) Mark} {X : Process D → Trace D → Prop}
  {s : SharedState D} {news : List Mark} {out inp : StdString} {m : Process D} {t : Trace D}
  {errbub : ErrBub}

end Rules

end SharedStateAsync
