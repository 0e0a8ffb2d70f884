/-
A session that runs a hook, the hook, and the clients the hook starts.

The accept loop of the daemon awaits a session, the session awaits the hooks it
notifies, and a hook is any program: it reads its standard input, prints, and runs the
command line's `get`, `dump` and `insert` against the daemon, each to its end. The
daemon and the clients are the coroutines of the source, each in a process of its own;
what they share are the pipes to and from the hook and the connections, which the kernel
makes without the daemon's help and keeps until it accepts them.

* `SharedStateCli.dump`, `SharedStateCli.get`, `Client`: the clients;
* `HookAct`, `HookSetting`: the hook and what it runs in;
* `hookEnds`: the daemon's end of the pipe to the hook's standard input;
* `HookSystem`: the three parties and what is between them;
* `HookSystem.daemonAnswers`, `HookSystem.clientAnswers`: what the kernel can answer;
* `HookSystem.step`, `HookSystem.Deadlocked`: the steps of the parties, and the states in
  which there is none although the hook or the session is not done.
-/
import SharedStateAsync.Daemon.Jobs
import SharedStateAsync.Io.Table
import SharedStateAsync.Lib.Fiber

namespace SharedStateAsync

open Coro

variable {D H : Type}

/-! ### The clients -/

def STDOUT_FILENO : ℤ := 1

section Clients

variable [BEq D]

/-- What `dump` and `get` have in common: synchronise with the daemon of this host, print
the state of the type, and end. A type it does not know ends the process at once, and so
does an error of the synchronisation, which is given no error pointer. -/
def printSynced (P : Platform D) (printed : StateMap D → StdString) (typeName : StdString)
    (localInstanceAddr : SockAddr) : Io D Unit := do
  let m ← memory
  if !m.shared.mStates.contains typeName then
    rs_error_bubble_or_exit .unkownDataType .null
  let _ ← syncWithPeer P typeName localInstanceAddr .null
  let tState ← referencedState typeName
  let _ ← sysCall (.write STDOUT_FILENO
    ((if tState.isEmpty then bytes "\x7b\x7d" else printed tState) ++ bytes "\n"))
  .exit

/-- `SharedStateCli::dump`. -/
def SharedStateCli.dump (P : Platform D) (toJson : StateMap D → StdString)
    (typeName : StdString) (localInstanceAddr : SockAddr) : Io D Unit :=
  printSynced P toJson typeName localInstanceAddr

/-- `SharedStateCli::get`. -/
def SharedStateCli.get (P : Platform D) (prettyJSON : StateMap D → StdString)
    (typeName : StdString) (localInstanceAddr : SockAddr) : Io D Unit :=
  printSynced P prettyJSON typeName localInstanceAddr

end Clients

/-- The operations of the command line that talk to the daemon of this host. -/
inductive ClientOp (D : Type) where
  | dump
  | get
  /-- With what its standard input is parsed to. -/
  | insert (jsonInput : Option (List (StdString × D)))

/-- A client: its operation and type, and the object that read the configuration. -/
structure Client (D : Type) where
  op : ClientOp D
  typeName : StdString
  shared : SharedState D

/-- The client gets as far as connecting: its type is registered and, if it inserts, its
input is a JSON object. -/
def Client.connects (client : Client D) : Bool :=
  client.shared.mStates.contains client.typeName &&
    match client.op with
    | .insert jsonInput => jsonInput.isSome
    | _ => true

/-! ### The hook -/

/-- What a hook does next, `H` being what it remembers. -/
inductive HookAct (D H : Type) where
  /-- Read from the standard input; nothing is read at its end only. -/
  | read (next : StdString → H)
  | print (text : StdString) (next : H)
  /-- Start a client and wait until it has ended. -/
  | run (client : Client D) (next : H)
  | exit

/-- A hook and what it runs in. -/
structure HookSetting (D H : Type) where
  platform : Platform D
  localInstanceAddr : SockAddr
  /-- The texts `dump` and `get` print. -/
  toJson : StateMap D → StdString
  prettyJSON : StateMap D → StdString
  /-- How many bytes a pipe takes, or a connection in one direction. -/
  capacity : ℕ
  capacity_pos : 0 < capacity
  program : H → HookAct D H
  /-- What the hook at a path begins with. -/
  start : StdString → H

/-- A process that runs one of the coroutines of the source. -/
abbrev IoFiber (D : Type) : Type := Fiber SysCall Ans (Process D) Mark

/-- The process of a client. -/
def HookSetting.launch [BEq D] (S : HookSetting D H) (client : Client D) : IoFiber D where
  mem := { shared := client.shared }
  code :=
    match client.op with
    | .dump => SharedStateCli.dump S.platform S.toJson client.typeName S.localInstanceAddr
    | .get => SharedStateCli.get S.platform S.prettyJSON client.typeName S.localInstanceAddr
    | .insert jsonInput => insert S.platform client.typeName jsonInput S.localInstanceAddr

/-- Where a hook is. -/
inductive HookState (H : Type) where
  /-- There has been no hook. -/
  | absent
  | runs (memory : H)
  /-- It waits for the client with this number. -/
  | awaits (client : ℕ) (next : H)
  | ended

def HookState.alive : HookState H → Bool
  | .runs _ | .awaits _ _ => true
  | _ => false

/-! ### The pipe to the hook -/

/-- The pipes the daemon has made, the last one first, and its end of the one that is the
standard input of the hook. -/
structure HookEnds where
  pipes : List (ℤ × ℤ) := []
  stdIn : Option ℤ := none

/-- `AsyncCommand::execute` makes the pipe for the standard input first and the one for
the standard output next. The child closes its copy of the end for writing. -/
def HookEnds.after (e : HookEnds) : Step D → HookEnds
  | .called _ .pipe (.ok fds) => { e with pipes := fds :: e.pipes }
  | .called _ (.fork _) (.ok _) => { e with stdIn := e.pipes[1]?.map Prod.snd }
  | .called _ (.close fd) _ => { e with stdIn := if e.stdIn = some fd then none else e.stdIn }
  | _ => e

def hookEnds (t : Trace D) : HookEnds := t.foldl HookEnds.after {}

@[simp] lemma hookEnds_concat (t : Trace D) (i : Step D) :
    hookEnds (t ++ [i]) = (hookEnds t).after i := by
  rw [hookEnds, List.foldl_append]
  rfl

/-! ### The system -/

/-- The daemon, the hook, the clients, and what is between them. The connection of a
client has the client's number. -/
structure HookSystem (D H : Type) where
  daemon : IoFiber D
  hook : HookState H := .absent
  /-- The number of the hook's process, while the daemon has not waited for it. -/
  pid : ℤ := 0
  /-- What is in the pipe to the hook's standard input. -/
  stdIn : StdString := []
  /-- What is in the pipe from its standard output, which the daemon does not read. -/
  stdOut : StdString := []
  clients : List (IoFiber D) := []
  /-- The connections that wait to be accepted. -/
  backlog : List ℕ := []
  /-- The connection that was accepted last, and the daemon's descriptor for it. -/
  served : Option (ℤ × ℕ) := none
  toServer : ℕ → StdString := fun _ => []
  toClient : ℕ → StdString := fun _ => []
  /-- The connections the daemon has closed. -/
  hungUp : List ℕ := []

namespace HookSystem

/-- The daemon at the end of a session: what is left of `handleReqSyncConnection` after a
merge that changed something is to notify the hooks of the type, and the accept loop, which
awaits it, goes on with at most `n` connections. -/
def initial [BEq D] (S : HookSetting D H) (m : Process D) (typeName : StdString)
    (listener : ObjId) (n : ℕ) : HookSystem D H where
  daemon :=
    { mem := m
      code := do
        let _ ← notifyHooks S.platform typeName .storage
        acceptReqSyncConnectionsLoop S.platform listener n }

variable (S : HookSetting D H) (s : HookSystem D H)

/-- The daemon's end of the hook's standard input. -/
def stdInEnd : Option ℤ := if s.daemon.ended then none else (hookEnds s.daemon.trace).stdIn

/-- The connection behind a descriptor of the daemon. -/
def connectionOf (fd : ℤ) : Option ℕ := s.served.bind fun c => if c.1 = fd then some c.2 else none

/-- The client is no longer there. -/
def clientGone (i : ℕ) : Bool := (s.clients[i]?.map Fiber.ended).getD true

/-- The daemon is no longer there for the client. -/
def serverGone (i : ℕ) : Bool := s.daemon.ended || s.hungUp.contains i

/-- The kernel hands out descriptors that are not in use. -/
def handsOutFresh (t : Trace D) (m : Process D) (i : Step D) : Prop :=
  i.opens.Nodup ∧ ∀ fd ∈ i.opens, Fresh t m fd

instance (t : Trace D) (m : Process D) (i : Step D) : Decidable (handsOutFresh t m i) :=
  inferInstanceAs (Decidable (_ ∧ _))

/-- An error other than that the call would block. -/
def refused {α : Type} (r : Except Errno α) : Bool := !r.isOk && !shouldWait r

/-- Reading a stream of bytes that holds `content`, and is at its end if `closed`: some of
it, nothing at the end, and a call that would block otherwise. -/
def takes (content : StdString) (closed : Bool) {len : ℕ}
    (r : Except Errno { b : StdString // b.length ≤ len }) : Bool :=
  match r with
  | .ok b => b.1.isPrefixOf content && (!b.1.isEmpty || len == 0 || content.isEmpty && closed)
  | .error _ => refused r || content.isEmpty && !closed

/-- Writing to a stream of bytes that holds `content`, and is read no more if `closed`: as
much as there is room for, and a call that would block if not all of it fits. -/
def gives (content : StdString) (closed : Bool) (buffer : StdString)
    (r : Except Errno { n : ℕ // n ≤ buffer.length }) : Bool :=
  match r with
  | .ok n => !closed && decide (content.length + n.1 ≤ S.capacity) && (n.1 != 0 || buffer.isEmpty)
  | .error _ => refused r || !closed && decide (S.capacity < content.length + buffer.length)

@[simp] lemma refused_einval {α : Type} : refused (.error .einval : Except Errno α) = true := rfl

@[simp] lemma takes_einval (content : StdString) (closed : Bool) {len : ℕ} :
    takes content closed (.error .einval : Except Errno { b : StdString // b.length ≤ len })
      = true := rfl

@[simp] lemma gives_einval (content : StdString) (closed : Bool) (buffer : StdString) :
    gives S content closed buffer (.error .einval) = true := rfl

/-! ### What the kernel answers -/

/-- The system after a call of the daemon has been answered so, if it can be. -/
def afterDaemon : (c : SysCall) → Ans c → Option (HookSystem D H)
  | .accept _, a =>
      match s.backlog, a with
      | i :: backlog, .ok fd => some { s with backlog := backlog, served := some (fd, i) }
      | _ :: _, .error _ => if refused a then some s else none
      | [], .ok _ => none
      | [], .error _ => some s
  | .recv fd _, a =>
      match s.connectionOf fd with
      | none => if refused a then some s else none
      | some i =>
          if takes (s.toServer i) (s.clientGone i) a then
            some { s with
              toServer := Function.update s.toServer i ((s.toServer i).drop (readBytes a).length) }
          else none
  | .send fd buffer, a =>
      match s.connectionOf fd with
      | none => if refused a then some s else none
      | some i =>
          if gives S (s.toClient i) (s.clientGone i) buffer a then
            some { s with
              toClient := Function.update s.toClient i (s.toClient i ++ writtenBytes buffer a) }
          else none
  | .close fd, _ =>
      match s.connectionOf fd with
      | none => some s
      | some i => some { s with served := none, hungUp := i :: s.hungUp }
  | .write fd buffer, a =>
      if s.stdInEnd = some fd then
        if gives S s.stdIn (!s.hook.alive) buffer a then
          some { s with stdIn := s.stdIn ++ writtenBytes buffer a }
        else none
      else if refused a then some s else none
  | .fork cmd, .ok pid =>
      if 0 < pid then
        some { s with hook := .runs (S.start cmd), pid := pid, stdIn := [], stdOut := [] }
      else none
  | .kill pid, a =>
      if pid = s.pid then if a.isOk then some { s with hook := .ended } else none
      else if refused a then some s else none
  | .waitpid pid, a =>
      if pid = s.pid ∧ 0 < pid then
        match a with
        | .ok status =>
            if s.hook.alive then if status = 0 then some s else none
            else if status = pid then some { s with pid := 0 } else none
        | .error _ => none
      else if refused a then some s else none
  | _, _ => some s

/-- The same, where new descriptors have numbers that are not in use. -/
def daemonAnswers (c : SysCall) (a : Ans c) : Option (HookSystem D H) :=
  if handsOutFresh s.daemon.trace s.daemon.mem (.called s.daemon.mem c a) then s.afterDaemon S c a
  else none

/-- Whether the daemon, which waits after the call, is woken. -/
def daemonReady : SysCall → Bool
  | .accept _ => !s.backlog.isEmpty
  | .recv fd _ =>
      ((s.connectionOf fd).map fun i => !(s.toServer i).isEmpty || s.clientGone i).getD true
  | .send fd _ => ((s.connectionOf fd).map fun i =>
      decide ((s.toClient i).length < S.capacity) || s.clientGone i).getD true
  | .write fd _ =>
      s.stdInEnd != some fd || decide (s.stdIn.length < S.capacity) || !s.hook.alive
  | .waitpid pid => pid != s.pid || !s.hook.alive
  | _ => false

/-- The system after a call of a client has been answered so, if it can be. Connections
are made without the daemon, and printing blocks until all is printed. -/
def clientAnswers (i : ℕ) : (c : SysCall) → Ans c → Option (HookSystem D H)
  | .connect _ _, a => if refused a then some s else some { s with backlog := s.backlog ++ [i] }
  | .recv _ _, a =>
      if takes (s.toClient i) (s.serverGone i) a then
        some { s with
          toClient := Function.update s.toClient i ((s.toClient i).drop (readBytes a).length) }
      else none
  | .send _ buffer, a =>
      if gives S (s.toServer i) (s.serverGone i) buffer a then
        some { s with
          toServer := Function.update s.toServer i (s.toServer i ++ writtenBytes buffer a) }
      else none
  | .write _ buffer, a =>
      match a with
      | .ok n =>
          if n.1 = buffer.length ∧ s.stdOut.length + n.1 ≤ S.capacity then
            some { s with stdOut := s.stdOut ++ buffer }
          else none
      | .error _ => if refused a then some s else none
  | _, _ => some s

/-- Whether a client, which waits after the call, is woken. -/
def clientReady (i : ℕ) : SysCall → Bool
  | .connect _ _ => true
  | .recv _ _ => !(s.toClient i).isEmpty || s.serverGone i
  | .send _ _ => decide ((s.toServer i).length < S.capacity) || s.serverGone i
  | _ => false

/-! ### Steps and deadlocks -/

/-- The hook makes a step. It reads up to `count + 1` bytes. -/
def hookStep [BEq D] (count : ℕ) : Option (HookSystem D H) :=
  match s.hook with
  | .absent | .ended => none
  | .awaits i next => if s.clientGone i then some { s with hook := .runs next } else none
  | .runs h =>
      match S.program h with
      | .exit => some { s with hook := .ended }
      | .read next =>
          if s.stdIn ≠ [] then
            some { s with
              stdIn := s.stdIn.drop (count + 1)
              hook := .runs (next (s.stdIn.take (count + 1))) }
          else if s.stdInEnd = none then some { s with hook := .runs (next []) }
          else none
      | .print text next =>
          if s.stdOut.length + text.length ≤ S.capacity ∨ s.daemon.ended then
            some { s with stdOut := s.stdOut ++ text, hook := .runs next }
          else none
      | .run client next =>
          some { s with
            clients := s.clients ++ [S.launch client]
            hook := .awaits s.clients.length next }

end HookSystem

/-- A step of one of the parties, with the answer to its call if it makes one. -/
inductive HookEvent where
  | daemon (answer : (c : SysCall) → Ans c)
  | hook (count : ℕ)
  | client (i : ℕ) (answer : (c : SysCall) → Ans c)

namespace HookSystem

variable [BEq D] (S : HookSetting D H) (s : HookSystem D H)

/-- One step, if the party can take it. -/
def step : HookEvent → Option (HookSystem D H)
  | .daemon answer =>
      (s.daemon.step s (s.daemonAnswers S) (s.daemonReady S) answer).map fun r =>
        { r.2 with daemon := r.1 }
  | .hook count => s.hookStep S count
  | .client i answer =>
      match s.clients[i]? with
      | none => none
      | some f =>
          (f.step s (s.clientAnswers S i) (s.clientReady S i) answer).map fun r =>
            { r.2 with clients := r.2.clients.set i r.1 }

/-- The state after an event, which changes nothing if it is not possible. -/
def next (ev : HookEvent) : HookSystem D H := (s.step S ev).getD s

/-- The session is done once the accept loop waits for the next connection. -/
def sessionDone : Bool :=
  s.daemon.ended || (marks s.daemon.trace).contains .accepting

/-- The hook or the session is not done, and no party can take a step. -/
def Deadlocked : Prop :=
  (s.hook.alive ∨ s.sessionDone = false) ∧ ∀ ev, s.step S ev = none

/-- **Hooks may use the daemon**: no state that can be reached is a deadlock. -/
def NeverDeadlocks (m : Process D) (typeName : StdString) (listener : ObjId) (n : ℕ) : Prop :=
  ∀ evs, Machine.Throughout (HookSystem.next S) (fun s => ¬ s.Deadlocked S)
    (initial S m typeName listener n) evs

/-! ### Finding deadlocks -/

omit [BEq D] in
/-- An answer that opens no descriptor is given if the call can be answered so. -/
lemma daemonAnswers_of_opens {c : SysCall} {a : Ans c}
    (ha : (Step.opens (.called s.daemon.mem c a : Step D)) = [])
    (h : (s.afterDaemon S c a).isSome) : ∃ a, (s.daemonAnswers S c a).isSome := by
  refine ⟨a, ?_⟩
  rw [daemonAnswers, if_pos]
  · exact h
  · rw [handsOutFresh, ha]
    exact ⟨List.nodup_nil, fun fd hfd => absurd hfd List.not_mem_nil⟩

omit [BEq D] in
/-- **Every call of the daemon** is answered. -/
theorem exists_daemonAnswers (c : SysCall) : ∃ a, (s.daemonAnswers S c a).isSome := by
  cases c with
  | accept fd =>
      refine daemonAnswers_of_opens S s (a := .error .einval) rfl ?_
      cases hbacklog : s.backlog with
      | nil => simp [afterDaemon, hbacklog]
      | cons i backlog => simp [afterDaemon, hbacklog]
  | recv fd len =>
      refine daemonAnswers_of_opens S s (a := .error .einval) rfl ?_
      cases hconn : s.connectionOf fd with
      | none => simp [afterDaemon, hconn]
      | some i => simp [afterDaemon, hconn]
  | send fd buffer =>
      refine daemonAnswers_of_opens S s (a := .error .einval) rfl ?_
      cases hconn : s.connectionOf fd with
      | none => simp [afterDaemon, hconn]
      | some i => simp [afterDaemon, hconn]
  | write fd buffer =>
      refine daemonAnswers_of_opens S s (a := .error .einval) rfl ?_
      simp only [afterDaemon, gives_einval, refused_einval, if_true]
      split_ifs
      · rfl
      · rfl
  | close fd =>
      refine daemonAnswers_of_opens S s (a := .ok ()) rfl ?_
      cases hconn : s.connectionOf fd with
      | none => simp [afterDaemon, hconn]
      | some i => simp [afterDaemon, hconn]
  | kill pid =>
      by_cases hpid : pid = s.pid
      · refine daemonAnswers_of_opens S s (a := .ok ()) rfl ?_
        simp [afterDaemon, hpid, Except.isOk, Except.toBool]
      · refine daemonAnswers_of_opens S s (a := .error .einval) rfl ?_
        simp [afterDaemon, hpid]
  | waitpid pid =>
      by_cases hpid : pid = s.pid ∧ 0 < pid
      · cases halive : s.hook.alive with
        | true =>
            refine daemonAnswers_of_opens S s (a := .ok 0) rfl ?_
            rw [afterDaemon, if_pos hpid]
            simp [halive]
        | false =>
            refine daemonAnswers_of_opens S s (a := .ok pid) rfl ?_
            rw [afterDaemon, if_pos hpid]
            simp [halive]
      · refine daemonAnswers_of_opens S s (a := .error .einval) rfl ?_
        simp [afterDaemon, hpid]
  | socket => exact daemonAnswers_of_opens S s (a := .error .einval) rfl rfl
  | pipe => exact daemonAnswers_of_opens S s (a := .error .einval) rfl rfl
  | fork cmd => exact daemonAnswers_of_opens S s (a := .error .einval) rfl rfl
  | pidfdOpen pid => exact daemonAnswers_of_opens S s (a := .error .einval) rfl rfl
  | openFile path => exact daemonAnswers_of_opens S s (a := .error .einval) rfl rfl
  | _ => exact daemonAnswers_of_opens S s (a := quietAnswer _) rfl rfl

omit [BEq D] in
/-- **Every call of a client** is answered. -/
theorem exists_clientAnswers (i : ℕ) (c : SysCall) : ∃ a, (s.clientAnswers S i c a).isSome := by
  cases c with
  | connect fd addr =>
      refine ⟨.error .einval, ?_⟩
      simp [clientAnswers]
  | recv fd len =>
      refine ⟨.error .einval, ?_⟩
      simp [clientAnswers]
  | send fd buffer =>
      refine ⟨.error .einval, ?_⟩
      simp [clientAnswers]
  | write fd buffer =>
      refine ⟨.error .einval, ?_⟩
      simp [clientAnswers]
  | _ => exact ⟨quietAnswer _, rfl⟩

/-- Neither the daemon nor the hook nor a client can take a step. -/
def stuck : Bool :=
  s.daemon.blocked (s.daemonReady S) && (s.hookStep S 0).isNone &&
    (List.range s.clients.length).all fun i =>
      (s.clients[i]?).all fun f => f.blocked (s.clientReady S i)

/-- How much the hook reads does not matter to whether it can. -/
lemma hookStep_isSome (count : ℕ) : (s.hookStep S count).isSome = (s.hookStep S 0).isSome := by
  simp only [hookStep]
  cases s.hook with
  | runs h =>
      simp only
      cases S.program h with
      | read next =>
          simp only
          split_ifs
          · rfl
          · rfl
          · rfl
      | _ => rfl
  | _ => rfl

/-- The daemon can take a step exactly if it is not blocked. -/
lemma exists_daemon_step : (∃ answer, (s.step S (.daemon answer)).isSome) ↔
    s.daemon.blocked (s.daemonReady S) = false := by
  simp only [step, Option.isSome_map]
  exact Fiber.exists_step_iff (exists_daemonAnswers S s)

/-- So can a client. -/
lemma exists_client_step {i : ℕ} {f : IoFiber D} (hf : s.clients[i]? = some f) :
    (∃ answer, (s.step S (.client i answer)).isSome) ↔ f.blocked (s.clientReady S i) = false := by
  simp only [step, hf, Option.isSome_map]
  exact Fiber.exists_step_iff (exists_clientAnswers S s i)

/-- **Deadlocks can be found**: the steps need not be tried with all answers. -/
theorem stuck_iff : s.stuck S ↔ ∀ ev, s.step S ev = none := by
  have hnone : ∀ o : Option (HookSystem D H), o = none ↔ ¬ o.isSome := by simp
  constructor
  · intro h
    simp only [stuck, Bool.and_eq_true, List.all_eq_true, List.mem_range] at h
    obtain ⟨⟨hdaemon, hhook⟩, hclients⟩ := h
    intro ev
    rw [hnone]
    intro hsome
    cases ev with
    | daemon answer =>
        have hfree := (exists_daemon_step S s).mp ⟨answer, hsome⟩
        exact absurd (hdaemon.symm.trans hfree) nofun
    | hook count =>
        rw [step, hookStep_isSome] at hsome
        rw [Option.isNone_iff_eq_none.mp hhook] at hsome
        cases hsome
    | client i answer =>
        cases hf : s.clients[i]? with
        | none => simp [step, hf] at hsome
        | some f =>
            have hfree := (exists_client_step S s hf).mp ⟨answer, hsome⟩
            have hblocked := hclients i (List.getElem?_eq_some_iff.mp hf).1
            rw [hf, Option.all_some] at hblocked
            exact absurd (hblocked.symm.trans hfree) nofun
  · intro h
    simp only [stuck, Bool.and_eq_true, List.all_eq_true, List.mem_range]
    refine ⟨⟨?_, ?_⟩, fun i hi => ?_⟩
    · by_contra hfree
      obtain ⟨answer, hsome⟩ := (exists_daemon_step S s).mpr (by simpa using hfree)
      exact (hnone _).mp (h _) hsome
    · exact Option.isNone_iff_eq_none.mpr (h (.hook 0))
    · rw [List.getElem?_eq_getElem hi, Option.all_some]
      by_contra hfree
      obtain ⟨answer, hsome⟩ :=
        (exists_client_step S s (List.getElem?_eq_getElem hi)).mpr (by simpa using hfree)
      exact (hnone _).mp (h _) hsome

instance : Decidable (s.Deadlocked S) :=
  decidable_of_iff ((s.hook.alive ∨ s.sessionDone = false) ∧ s.stuck S)
    (and_congr_right fun _ => stuck_iff S s)

end HookSystem

end SharedStateAsync
