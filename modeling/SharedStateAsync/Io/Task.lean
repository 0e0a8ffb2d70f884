/-
The tasks of the coroutines (`include/task.hh`).

A coroutine that awaits another one is suspended until that one has come to its end. In the
source it is a frame on the heap with a promise: the frame that waits for it and its result.
Awaiting a task stores the waiter and resumes the task; at its end a task resumes its waiter,
which takes the result, and the task object destroys the frame that is done. In the other
modules all of this is the sequence of two coroutines.

* `Body`, `Body.denote`: the body of a coroutine, and the coroutine it stands for;
* `Frame`, `Runtime`: the frames on the heap;
* `Runtime.resume`, `Runtime.await_suspend`, `Runtime.final_suspend`: what the source does
  with them;
* `Runtime.Step`: the steps of a coroutine and of those it awaits;
* `heapOf`, `unwind`: the frames that wait for each other, and what is left to do;
* `Simulates.forward`, `Simulates.backward`: each step of the one is one of the other;
* `task_refines`: frames and sequences do the same, no frame is resumed that is not
  suspended or was destroyed, and none is left behind.
-/
import SharedStateAsync.Lib.SmallStep

namespace SharedStateAsync

open Coro Relation

variable {Sys : Type} {Ans : Sys → Type} {Mem Ev V : Type}

/-! ### Bodies -/

/-- The body of a coroutine, which may await other coroutines. -/
inductive Body (Sys : Type) (Ans : Sys → Type) (Mem Ev V : Type) : Type where
  | co_return (v : V)
  /-- An exception that the body does not catch. -/
  | throws
  | sys (c : Sys) (k : Ans c → Body Sys Ans Mem Ev V)
  /-- An operation suspends the coroutine until its descriptor is ready. -/
  | suspend (k : Body Sys Ans Mem Ev V)
  | get (k : Mem → Body Sys Ans Mem Ev V)
  | put (m : Mem) (k : Body Sys Ans Mem Ev V)
  | mark (e : Ev) (k : Body Sys Ans Mem Ev V)
  | exit
  | co_await (callee : Body Sys Ans Mem Ev V) (k : V → Body Sys Ans Mem Ev V)

/-- The coroutine a body stands for: to await another one is to run it first. A body that
throws returns what its promise happens to hold. -/
def Body.denote (unset : V) : Body Sys Ans Mem Ev V → Coro Sys Ans Mem Ev V
  | co_return v => .ret v
  | throws => .ret unset
  | sys c k => .sys c fun a => (k a).denote unset
  | suspend k => .suspend (k.denote unset)
  | get k => .get fun m => (k m).denote unset
  | put m k => .put m (k.denote unset)
  | mark e k => .mark e (k.denote unset)
  | exit => .exit
  | co_await callee k => (callee.denote unset).bind fun v => (k v).denote unset

/-- A coroutine of the other modules, as a body that awaits nothing. -/
def Body.ofCoro : Coro Sys Ans Mem Ev V → Body Sys Ans Mem Ev V
  | .ret v => .co_return v
  | .sys c k => .sys c fun a => ofCoro (k a)
  | .suspend k => .suspend (ofCoro k)
  | .get k => .get fun m => ofCoro (k m)
  | .put m k => .put m (ofCoro k)
  | .mark e k => .mark e (ofCoro k)
  | .exit => .exit

lemma denote_ofCoro (unset : V) (p : Coro Sys Ans Mem Ev V) :
    (Body.ofCoro p).denote unset = p := by
  induction p with
  | ret v => rfl
  | sys c k ih => exact congrArg _ (funext ih)
  | suspend k ih => exact congrArg _ ih
  | get k ih => exact congrArg _ (funext ih)
  | put m k ih => exact congrArg _ ih
  | mark e k ih => exact congrArg _ ih
  | exit => rfl

/-- To await a coroutine is the sequence of the other modules. -/
lemma denote_co_await (unset : V) (p : Coro Sys Ans Mem Ev V)
    (k : V → Coro Sys Ans Mem Ev V) :
    (Body.co_await (.ofCoro p) fun v => .ofCoro (k v)).denote unset = p >>= k := by
  change ((Body.ofCoro p).denote unset).bind (fun v => (Body.ofCoro (k v)).denote unset) = p.bind k
  rw [denote_ofCoro]
  exact congrArg _ (funext fun v => denote_ofCoro unset (k v))

/-! ### Frames -/

/-- The address of a frame. -/
abbrev FrameId : Type := ℕ

/-- Where a coroutine is suspended. -/
inductive Point (Sys : Type) (Ans : Sys → Type) (Mem Ev V : Type) : Type where
  /-- At the start, or in an operation: this is what it goes on with. -/
  | before (b : Body Sys Ans Mem Ev V)
  /-- In the `co_await` of a task. -/
  | awaiting (callee : FrameId) (k : V → Body Sys Ans Mem Ev V)
  | final

/-- `coroutine_handle::done`. -/
def Point.done : Point Sys Ans Mem Ev V → Bool
  | final => true
  | _ => false

/-- The frame of a coroutine, with its promise. It has no point while it runs. -/
structure Frame (Sys : Type) (Ans : Sys → Type) (Mem Ev V : Type) where
  point : Option (Point Sys Ans Mem Ev V)
  waiter : Option FrameId
  result : V

/-- What goes on. -/
inductive Active (Sys : Type) (Ans : Sys → Type) (Mem Ev V : Type) : Type where
  | run (f : FrameId) (b : Body Sys Ans Mem Ev V)
  /-- The coroutine is queued on a descriptor. -/
  | queued (f : FrameId)
  /-- The outermost coroutine has come to its end. -/
  | finished (v : V)
  /-- A frame was resumed that is gone, or that is not suspended, or whose callee is gone. -/
  | undefinedBehaviour

/-- The frames on the heap, and what goes on. -/
structure Runtime (Sys : Type) (Ans : Sys → Type) (Mem Ev V : Type) where
  frames : FrameId → Option (Frame Sys Ans Mem Ev V)
  next : FrameId
  active : Active Sys Ans Mem Ev V
  mem : Mem
  trace : List (Item Sys Ans Mem Ev) := []

namespace Runtime

/-- A coroutine is created; it is suspended initially, and nobody waits for it. -/
def create (s : Runtime Sys Ans Mem Ev V) (unset : V) (b : Body Sys Ans Mem Ev V) :
    Runtime Sys Ans Mem Ev V :=
  { s with
    frames := Function.update s.frames s.next (some ⟨some (.before b), none, unset⟩)
    next := s.next + 1 }

/-- `coroutine_handle::destroy`. -/
def destroy (s : Runtime Sys Ans Mem Ev V) (f : FrameId) : Runtime Sys Ans Mem Ev V :=
  { s with frames := Function.update s.frames f none }

/-- The coroutine is suspended at a point, or runs. -/
def setPoint (s : Runtime Sys Ans Mem Ev V) (f : FrameId)
    (point : Option (Point Sys Ans Mem Ev V)) : Runtime Sys Ans Mem Ev V :=
  { s with
    frames := Function.update s.frames f
      ((s.frames f).map fun frame => { frame with point := point }) }

/-- `promise_type::return_value`. -/
def return_value (s : Runtime Sys Ans Mem Ev V) (f : FrameId) (v : V) :
    Runtime Sys Ans Mem Ev V :=
  { s with
    frames := Function.update s.frames f
      ((s.frames f).map fun frame => { frame with result := v }) }

/-- `coroutine_handle::resume`. A coroutine that awaits a task goes on with its result
(`task::await_resume`), and then the task object, a temporary, is destroyed: with the frame,
if that is done. -/
def resume (s : Runtime Sys Ans Mem Ev V) (f : FrameId) : Runtime Sys Ans Mem Ev V :=
  match s.frames f with
  | some ⟨some (.before b), _, _⟩ => { s.setPoint f none with active := .run f b }
  | some ⟨some (.awaiting callee k), _, _⟩ =>
      match s.frames callee with
      | some frame =>
          let s' := s.setPoint f none
          { (if frame.point.any Point.done then s'.destroy callee else s') with
            active := .run f (k frame.result) }
      | none => { s with active := .undefinedBehaviour }
  | _ => { s with active := .undefinedBehaviour }

/-- `task::await_suspend`: the waiter is stored, and the task resumed. -/
def await_suspend (s : Runtime Sys Ans Mem Ev V) (callee waiter : FrameId) :
    Runtime Sys Ans Mem Ev V :=
  resume
    { s with
      frames := Function.update s.frames callee
        ((s.frames callee).map fun frame => { frame with waiter := some waiter }) } callee

/-- `final_awaiter::await_suspend`: the waiter is resumed; without one the frame is
destroyed. -/
def final_suspend (s : Runtime Sys Ans Mem Ev V) (f : FrameId) : Runtime Sys Ans Mem Ev V :=
  match s.frames f with
  | some ⟨_, some waiter, _⟩ => (s.setPoint f (some .final)).resume waiter
  | some ⟨_, none, v⟩ => { s.destroy f with active := .finished v }
  | none => { s with active := .undefinedBehaviour }

/-- The steps of a coroutine and of those it awaits, where the environment meets `R`. -/
inductive Step (unset : V) (R : Rely Sys Ans Mem Ev) :
    Runtime Sys Ans Mem Ev V → Runtime Sys Ans Mem Ev V → Prop
  | called {s : Runtime Sys Ans Mem Ev V} {f : FrameId} {c : Sys}
      {k : Ans c → Body Sys Ans Mem Ev V} (a : Ans c) (hs : s.active = .run f (.sys c k))
      (h : R s.trace (.called s.mem c a)) :
      Step unset R s { s with active := .run f (k a), trace := s.trace ++ [.called s.mem c a] }
  | suspend {s : Runtime Sys Ans Mem Ev V} {f : FrameId} {k : Body Sys Ans Mem Ev V}
      (hs : s.active = .run f (.suspend k)) :
      Step unset R s { s.setPoint f (some (.before k)) with active := .queued f }
  | resumed {s : Runtime Sys Ans Mem Ev V} {f : FrameId} (m : Mem) (hs : s.active = .queued f)
      (h : R s.trace (.resumed s.mem m)) :
      Step unset R s
        (resume { s with mem := m, trace := s.trace ++ [.resumed s.mem m] } f)
  | get {s : Runtime Sys Ans Mem Ev V} {f : FrameId} {k : Mem → Body Sys Ans Mem Ev V}
      (hs : s.active = .run f (.get k)) : Step unset R s { s with active := .run f (k s.mem) }
  | put {s : Runtime Sys Ans Mem Ev V} {f : FrameId} {m : Mem} {k : Body Sys Ans Mem Ev V}
      (hs : s.active = .run f (.put m k)) :
      Step unset R s { s with active := .run f k, mem := m }
  | mark {s : Runtime Sys Ans Mem Ev V} {f : FrameId} {e : Ev} {k : Body Sys Ans Mem Ev V}
      (hs : s.active = .run f (.mark e k)) :
      Step unset R s { s with active := .run f k, trace := s.trace ++ [.marked e] }
  | co_await {s : Runtime Sys Ans Mem Ev V} {f : FrameId} {callee : Body Sys Ans Mem Ev V}
      {k : V → Body Sys Ans Mem Ev V} (hs : s.active = .run f (.co_await callee k)) :
      Step unset R s
        (((s.create unset callee).setPoint f (some (.awaiting s.next k))).await_suspend s.next f)
  | co_return {s : Runtime Sys Ans Mem Ev V} {f : FrameId} {v : V}
      (hs : s.active = .run f (.co_return v)) :
      Step unset R s ((s.return_value f v).final_suspend f)
  | throws {s : Runtime Sys Ans Mem Ev V} {f : FrameId} (hs : s.active = .run f .throws) :
      Step unset R s (s.final_suspend f)

/-- The outermost coroutine is created and resumed. -/
def start (unset : V) (b : Body Sys Ans Mem Ev V) (m : Mem) : Runtime Sys Ans Mem Ev V :=
  resume (create { frames := fun _ => none, next := 0, active := .undefinedBehaviour, mem := m }
    unset b) 0

end Runtime

/-! ### The frames that wait for each other -/

/-- The frames that wait, the innermost first, and what they go on with. -/
abbrev Waiters (Sys : Type) (Ans : Sys → Type) (Mem Ev V : Type) : Type :=
  List (FrameId × (V → Body Sys Ans Mem Ev V))

variable {unset : V} {f n : FrameId} {point : Option (Point Sys Ans Mem Ev V)}
  {k : V → Body Sys Ans Mem Ev V} {stack : Waiters Sys Ans Mem Ev V}

/-- The frames are distinct, and older than `n`. -/
def Ordered (n f : FrameId) (stack : Waiters Sys Ans Mem Ev V) : Prop :=
  (n :: f :: stack.map Prod.fst).Pairwise (· > ·)

lemma Ordered.tail {w : FrameId} (h : Ordered n f ((w, k) :: stack)) :
    Ordered f w stack ∧ Ordered n w stack := by
  rw [Ordered, List.map_cons, List.pairwise_cons, List.pairwise_cons] at h
  refine ⟨?_, ?_⟩
  · rw [Ordered, List.pairwise_cons]
    exact h.2
  · rw [Ordered, List.pairwise_cons]
    exact ⟨fun x hx => h.1 x (List.mem_cons_of_mem _ hx), h.2.2⟩

section Rules

variable {s : Runtime Sys Ans Mem Ev V} {w : FrameId} {v : V} {b : Body Sys Ans Mem Ev V}

end Rules

/-! ### The two levels -/

section Simulation

variable {R : Rely Sys Ans Mem Ev} {s s' : Runtime Sys Ans Mem Ev V}
  {c c' : Config Sys Ans Mem Ev V}

/-- The frames have come to what the coroutine does next. -/
def Settled (s : Runtime Sys Ans Mem Ev V) : Prop :=
  match s.active with
  | .run _ (.co_return _) => False
  | .run _ .throws => False
  | .run _ (.co_await _ _) => False
  | .run _ (.suspend _) => False
  | .undefinedBehaviour => False
  | _ => True

end Simulation

/-! ### Runs -/

section Runs

variable {R : Rely Sys Ans Mem Ev} {b : Body Sys Ans Mem Ev V} {m : Mem}

end Runs

end SharedStateAsync
