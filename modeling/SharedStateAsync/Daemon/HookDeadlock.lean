/-
Hooks that use the daemon that runs them.

A client that a hook runs to its end waits for the accept loop, the accept loop for the
session, the session for the hook, and the hook for the client. Where no client gets as
far as connecting, and what the hooks print fits into the pipe nobody reads, there is
always somebody who can go on.

* `HookSystem.Behaves`: the hook is about to do neither;
* `HookSystem.Settled`: what is known of the parties as long as it behaves;
* `HookSystem.Settled.step`, `HookSystem.Settled.exists_step`: a step keeps it, and there
  is one as long as somebody is not done;
* `hooks_never_deadlock`: **no deadlock** in runs of hooks that behave;
* `not_neverDeadlocks_get`: a hook that runs `get`.
-/
import SharedStateAsync.Daemon.HookWaits

namespace SharedStateAsync

open Coro

variable {D H : Type} [BEq D]

namespace HookSystem

variable {S : HookSetting D H} {s s' : HookSystem D H}

/-- What the hook does next is neither to run a client that connects nor to print more
than its standard output takes. -/
def Behaves (S : HookSetting D H) (s : HookSystem D H) : Prop :=
  ∀ h, s.hook = .runs h →
    match S.program h with
    | .run client _ => client.connects = false
    | .print text _ => s.stdOut.length + text.length ≤ S.capacity ∨ s.daemon.ended
    | _ => True

/-- The daemon has waited well and will, nobody has connected, and the clients have ended
or will without a call. -/
structure Settled (S : HookSetting D H) (s : HookSystem D H) : Prop where
  daemon : hookWp s.daemon.code (fun _ _ => WaitedWell) s.daemon.mem s.daemon.trace
  backlog : s.backlog = []
  clients : ∀ f ∈ s.clients,
    f.code = .exit ∨ ∃ client, client.connects = false ∧ f = S.launch client

/-! ### The clients -/

omit [BEq D] in
lemma memory_bind {α : Type} (f : Process D → Io D α) : memory >>= f = Coro.get f := rfl

/-- `dump` and `get` of a type they do not know. -/
lemma printSynced_unknown (P : Platform D) (printed : StateMap D → StdString)
    {typeName : StdString} (localInstanceAddr : SockAddr) {m : Process D}
    (h : m.shared.mStates.contains typeName = false) :
    ∃ k, printSynced P printed typeName localInstanceAddr = .get k ∧ k m = .exit := by
  refine ⟨_, memory_bind _, ?_⟩
  simp only [h, Bool.not_false, if_true]
  rfl

/-- `insert` for a type it does not know, or with an input it cannot parse. -/
lemma insert_unknown (P : Platform D) {typeName : StdString}
    {jsonInput : Option (List (StdString × D))} (localInstanceAddr : SockAddr) {m : Process D}
    (h : m.shared.mStates.contains typeName = false ∨ jsonInput = none) :
    ∃ k, insert P typeName jsonInput localInstanceAddr = .get k ∧ k m = .exit := by
  refine ⟨_, memory_bind _, ?_⟩
  rcases h with h | rfl
  · simp only [h, Bool.not_false, if_true]
    rfl
  · split_ifs
    · rfl
    · rfl

/-- **A client that does not connect** looks at its memory and ends. -/
theorem launch_of_not_connects (S : HookSetting D H) {client : Client D}
    (h : client.connects = false) :
    ∃ k, (S.launch client).code = .get k ∧ k (S.launch client).mem = .exit := by
  obtain ⟨op, typeName, shared⟩ := client
  cases op with
  | dump => exact printSynced_unknown _ _ _ (by simpa [Client.connects, HookSetting.launch] using h)
  | get => exact printSynced_unknown _ _ _ (by simpa [Client.connects, HookSetting.launch] using h)
  | insert jsonInput =>
      refine insert_unknown _ _ ?_
      rw [Client.connects, Bool.and_eq_false_iff] at h
      exact h.imp id fun hnone => by simpa using hnone

/-! ### Steps -/

/-- The three parties are where they were, but for the daemon, and as many connections
wait. -/
structure SameParties (s s' : HookSystem D H) : Prop where
  backlog : s'.backlog = s.backlog
  clients : s'.clients = s.clients

omit [BEq D] in
lemma SameParties.of_some {s₁ : HookSystem D H} (hs : some s₁ = some s') (h : SameParties s s₁) :
    SameParties s s' :=
  Option.some.inj hs ▸ h

omit [BEq D] in
/-- The kernel answers so on some condition. -/
lemma SameParties.of_ite {s₁ : HookSystem D H} {p : Prop} [Decidable p]
    (hs : (if p then some s₁ else none) = some s') (h : SameParties s s₁) : SameParties s s' :=
  SameParties.of_some (Option.ite_none_right_eq_some.mp hs).2 h

omit [BEq D] in
/-- What a call of the daemon leaves alone when nobody has connected. -/
lemma afterDaemon_same {c : SysCall} {a : Ans c} (h : s.afterDaemon S c a = some s')
    (hs : s.backlog = []) : SameParties s s' := by
  cases c with
  | accept fd =>
      cases a with
      | ok fd' =>
          simp only [afterDaemon, hs] at h
          cases h
      | error e =>
          simp only [afterDaemon, hs] at h
          exact SameParties.of_some h ⟨rfl, rfl⟩
  | recv fd len =>
      simp only [afterDaemon] at h
      split at h
      · exact SameParties.of_ite h ⟨rfl, rfl⟩
      · exact SameParties.of_ite h ⟨rfl, rfl⟩
  | send fd buffer =>
      simp only [afterDaemon] at h
      split at h
      · exact SameParties.of_ite h ⟨rfl, rfl⟩
      · exact SameParties.of_ite h ⟨rfl, rfl⟩
  | close fd =>
      simp only [afterDaemon] at h
      split at h
      · exact SameParties.of_some h ⟨rfl, rfl⟩
      · exact SameParties.of_some h ⟨rfl, rfl⟩
  | write fd buffer =>
      simp only [afterDaemon] at h
      split at h
      · exact SameParties.of_ite h ⟨rfl, rfl⟩
      · exact SameParties.of_ite h ⟨rfl, rfl⟩
  | fork cmd =>
      cases a with
      | ok pid => exact SameParties.of_ite h ⟨rfl, rfl⟩
      | error e => exact SameParties.of_some h ⟨rfl, rfl⟩
  | kill pid =>
      simp only [afterDaemon] at h
      split at h
      · exact SameParties.of_ite h ⟨rfl, rfl⟩
      · exact SameParties.of_ite h ⟨rfl, rfl⟩
  | waitpid pid =>
      simp only [afterDaemon] at h
      split at h
      · split at h
        · split at h
          · exact SameParties.of_ite h ⟨rfl, rfl⟩
          · exact SameParties.of_ite h ⟨rfl, rfl⟩
        · cases h
      · exact SameParties.of_ite h ⟨rfl, rfl⟩
  | _ => exact SameParties.of_some h ⟨rfl, rfl⟩

omit [BEq D] in
/-- The kernel keeps to what the daemon relies on, as long as nobody connects. -/
lemma hookRely_of_daemonAnswers {c : SysCall} {a : Ans c} (h : s.daemonAnswers S c a = some s')
    (hs : s.backlog = []) : HookRely s.daemon.trace (.called s.daemon.mem c a) := by
  rw [daemonAnswers] at h
  split_ifs at h with hfresh
  cases c with
  | pipe => exact hfresh
  | accept fd =>
      cases a with
      | error e => rfl
      | ok fd' =>
          simp only [afterDaemon, hs] at h
          cases h
  | _ => trivial

/-- A step of the daemon. -/
lemma Settled.step_daemon (h : s.Settled S) {answer : (c : SysCall) → Ans c}
    (hstep : s.step S (.daemon answer) = some s') : s'.Settled S := by
  obtain ⟨⟨f, s₁⟩, hf, rfl⟩ := Option.map_eq_some_iff.mp hstep
  have hsame : SameParties s s₁ := by
    rcases Fiber.step_cases hf with ⟨c, k, -, hanswer, -⟩ | ⟨c, k, -, -, -, rfl, -⟩ | ⟨rfl, -⟩
    · rw [daemonAnswers] at hanswer
      split_ifs at hanswer
      exact afterDaemon_same hanswer h.backlog
    · exact ⟨rfl, rfl⟩
    · exact ⟨rfl, rfl⟩
  refine ⟨?_, hsame.backlog.trans h.backlog, ?_⟩
  · exact Fiber.step_wp h.daemon hf
      (fun c a hanswer => hookRely_of_daemonAnswers hanswer h.backlog) fun c _ _ => rfl
  · intro f' hf'
    exact h.clients f' (hsame.clients ▸ hf')

/-- A step after which the daemon and the clients are where they were. -/
lemma Settled.same (h : s.Settled S) (hdaemon : s'.daemon = s.daemon) (hsame : SameParties s s') :
    s'.Settled S := by
  refine ⟨?_, hsame.backlog.trans h.backlog, fun f hf => h.clients f (hsame.clients ▸ hf)⟩
  rw [hdaemon]
  exact h.daemon

/-- A step of the hook. A client it starts does not connect. -/
lemma Settled.step_hook (h : s.Settled S) (hb : s.Behaves S) {count : ℕ}
    (hstep : s.step S (.hook count) = some s') : s'.Settled S := by
  simp only [HookSystem.step, hookStep] at hstep
  cases hhook : s.hook with
  | absent =>
      rw [hhook] at hstep
      cases hstep
  | ended =>
      rw [hhook] at hstep
      cases hstep
  | awaits i next =>
      simp only [hhook] at hstep
      obtain ⟨-, hs'⟩ := Option.ite_none_right_eq_some.mp hstep
      exact Option.some.inj hs' ▸ h.same rfl ⟨rfl, rfl⟩
  | runs memory =>
      have hnext := hb memory hhook
      simp only [hhook] at hstep
      cases hact : S.program memory with
      | exit =>
          simp only [hact] at hstep
          exact Option.some.inj hstep ▸ h.same rfl ⟨rfl, rfl⟩
      | read next =>
          simp only [hact] at hstep
          split_ifs at hstep
          · exact Option.some.inj hstep ▸ h.same rfl ⟨rfl, rfl⟩
          · exact Option.some.inj hstep ▸ h.same rfl ⟨rfl, rfl⟩
      | print text next =>
          simp only [hact] at hstep
          obtain ⟨-, hs'⟩ := Option.ite_none_right_eq_some.mp hstep
          exact Option.some.inj hs' ▸ h.same rfl ⟨rfl, rfl⟩
      | run client next =>
          simp only [hact] at hstep hnext
          obtain rfl := Option.some.inj hstep
          refine ⟨h.daemon, h.backlog, fun f hf => ?_⟩
          rcases List.mem_append.mp hf with hf | hf
          · exact h.clients f hf
          · exact Or.inr ⟨client, hnext, List.mem_singleton.mp hf⟩

/-- A step of a client: it ends. -/
lemma Settled.step_client (h : s.Settled S) {i : ℕ} {answer : (c : SysCall) → Ans c}
    (hstep : s.step S (.client i answer) = some s') : s'.Settled S := by
  simp only [HookSystem.step] at hstep
  cases hclient : s.clients[i]? with
  | none =>
      rw [hclient] at hstep
      cases hstep
  | some f =>
      simp only [hclient] at hstep
      obtain ⟨⟨f', s₁⟩, hf, rfl⟩ := Option.map_eq_some_iff.mp hstep
      rcases h.clients f (List.mem_of_getElem? hclient) with hexit | ⟨client, hconnects, rfl⟩
      · rw [Fiber.step, hexit] at hf
        cases hf
      · obtain ⟨k, hcode, hk⟩ := launch_of_not_connects S hconnects
        rw [Fiber.step, hcode] at hf
        obtain ⟨rfl, rfl⟩ := Prod.mk.inj (Option.some.inj hf)
        refine ⟨h.daemon, h.backlog, fun g hg => ?_⟩
        rcases List.mem_or_eq_of_mem_set hg with hg | rfl
        · exact h.clients g hg
        · exact Or.inl hk

/-- **Steps keep it.** -/
theorem Settled.step (h : s.Settled S) (hb : s.Behaves S) {ev : HookEvent}
    (hstep : s.step S ev = some s') : s'.Settled S := by
  cases ev with
  | daemon answer => exact h.step_daemon hstep
  | hook count => exact h.step_hook hb hstep
  | client i answer => exact h.step_client hstep

/-! ### Progress -/

/-- The daemon can take a step if it has not ended and what it waits for has happened. -/
lemma Settled.exists_step_daemon (h : s.Settled S) (hended : s.daemon.ended = false)
    (hready : ∀ c, WaitsAfter s.daemon.trace c → s.daemonReady S c) :
    ∃ ev, (s.step S ev).isSome := by
  have hfree : s.daemon.blocked (s.daemonReady S) = false := by
    refine Fiber.blocked_eq_false hended fun k hcode => ?_
    have hwp := h.daemon
    rw [hcode] at hwp
    obtain ⟨c, hlast, hwaits⟩ := waitsAfter_lastCall hwp
    exact ⟨c, hlast, hready c hwaits⟩
  obtain ⟨answer, hstep⟩ := (exists_daemon_step S s).mpr hfree
  exact ⟨.daemon answer, hstep⟩

/-- **The hook reads**: it can, or the daemon has the pipe and can write to it or close
it. -/
lemma Settled.exists_step_read (h : s.Settled S) {memory : H} {next : StdString → H}
    (hhook : s.hook = .runs memory) (hact : S.program memory = .read next) :
    ∃ ev, (s.step S ev).isSome := by
  by_cases hfilled : s.stdIn ≠ []
  · exact ⟨.hook 0, by simp [HookSystem.step, hookStep, hhook, hact, hfilled]⟩
  cases hend : s.stdInEnd with
  | none => exact ⟨.hook 0, by simp [HookSystem.step, hookStep, hhook, hact, hfilled, hend]⟩
  | some fd =>
      rw [stdInEnd] at hend
      split_ifs at hend with hended
      refine h.exists_step_daemon (by simpa using hended) fun c hwaits => ?_
      -- the daemon holds the pipe, so that room in it is all it can wait for
      cases c with
      | write fd' buffer =>
          have hroom : s.stdIn.length < S.capacity := by
            rw [not_not.mp hfilled]
            exact S.capacity_pos
          simp [daemonReady, hroom]
      | waitpid pid =>
          rw [WaitsAfter, hend] at hwaits
          cases hwaits
      | accept fd' =>
          rw [WaitsAfter, hend] at hwaits
          cases hwaits.1
      | _ => exact hwaits.elim

/-- **The session is not done**, and there is no hook: whatever the daemon waits for has
happened. -/
lemma Settled.exists_step_session (h : s.Settled S) (hhook : s.hook.alive = false)
    (hsession : s.sessionDone = false) : ∃ ev, (s.step S ev).isSome := by
  rw [sessionDone, Bool.or_eq_false_iff] at hsession
  refine h.exists_step_daemon hsession.1 fun c hwaits => ?_
  cases c with
  | write fd buffer => simp [daemonReady, hhook]
  | waitpid pid => simp [daemonReady, hhook]
  | accept fd =>
      have haccepting := mem_marks.mpr hwaits.2
      simp [haccepting] at hsession
  | _ => exact hwaits.elim

/-- **A client that is there** can take the step after which it has ended. -/
lemma Settled.exists_step_client (h : s.Settled S) {i : ℕ} (hgone : s.clientGone i = false) :
    ∃ ev, (s.step S ev).isSome := by
  rw [clientGone] at hgone
  cases hclient : s.clients[i]? with
  | none =>
      rw [hclient] at hgone
      cases hgone
  | some f =>
      simp only [hclient, Option.map_some, Option.getD_some] at hgone
      have hfree : f.blocked (s.clientReady S i) = false := by
        refine Fiber.blocked_eq_false hgone fun k hcode => ?_
        rcases h.clients f (List.mem_of_getElem? hclient) with hexit | ⟨client, hconnects, rfl⟩
        · rw [hexit] at hcode
          cases hcode
        · obtain ⟨k', hcode', -⟩ := launch_of_not_connects S hconnects
          rw [hcode'] at hcode
          cases hcode
      obtain ⟨answer, hstep⟩ := (exists_client_step S s hclient).mpr hfree
      exact ⟨.client i answer, hstep⟩

/-- **Progress**: as long as somebody is not done, somebody can go on. -/
theorem Settled.exists_step (h : s.Settled S) (hb : s.Behaves S)
    (hundone : s.hook.alive ∨ s.sessionDone = false) : ∃ ev, (s.step S ev).isSome := by
  cases hhook : s.hook with
  | absent =>
      have hdead : s.hook.alive = false := by rw [hhook]; rfl
      exact h.exists_step_session hdead (by simpa [hdead] using hundone)
  | ended =>
      have hdead : s.hook.alive = false := by rw [hhook]; rfl
      exact h.exists_step_session hdead (by simpa [hdead] using hundone)
  | awaits i next =>
      cases hgone : s.clientGone i with
      | true => exact ⟨.hook 0, by simp [HookSystem.step, hookStep, hhook, hgone]⟩
      | false => exact h.exists_step_client hgone
  | runs memory =>
      have hnext := hb memory hhook
      cases hact : S.program memory with
      | exit => exact ⟨.hook 0, by simp [HookSystem.step, hookStep, hhook, hact]⟩
      | read next => exact h.exists_step_read hhook hact
      | print text next =>
          simp only [hact] at hnext
          exact ⟨.hook 0, by simp [HookSystem.step, hookStep, hhook, hact, hnext]⟩
      | run client next => exact ⟨.hook 0, by simp [HookSystem.step, hookStep, hhook, hact]⟩

/-- The daemon about to notify the hooks. -/
lemma settled_initial (S : HookSetting D H) (m : Process D) (typeName : StdString)
    (listener : ObjId) (n : ℕ) : (initial S m typeName listener n).Settled S := by
  have hkeeps : Keeps (do
      let _ ← notifyHooks S.platform typeName .storage
      acceptReqSyncConnectionsLoop S.platform listener n) :=
    keeps_bind (keeps_notifyHooks _ _ _) fun _ => keeps_acceptReqSyncConnectionsLoop _ _ _
  refine ⟨?_, rfl, fun f hf => absurd hf List.not_mem_nil⟩
  exact wp_mono (hkeeps m [] ⟨trivial, rfl⟩) fun _ _ _ h => h.waitedWell

end HookSystem

open HookSystem

/-- **Hooks that behave never deadlock**: in every run, however the parties take turns and
whatever the kernel answers, in which the hook is never about to run a client that
connects or to print more than its standard output takes, somebody can go on in every
state in which the hook or the session is not done. -/
theorem hooks_never_deadlock (S : HookSetting D H) (m : Process D) (typeName : StdString)
    (listener : ObjId) (n : ℕ) (evs : List HookEvent)
    (h : Machine.Throughout (HookSystem.next S) (Behaves S) (initial S m typeName listener n)
      evs) :
    Machine.Throughout (HookSystem.next S) (fun s => ¬ s.Deadlocked S)
      (initial S m typeName listener n) evs := by
  have hsettled : ∀ pre, pre <+: evs →
      (Machine.run (HookSystem.next S) (initial S m typeName listener n) pre).Settled S := by
    refine Machine.run_induction (settled_initial S m typeName listener n) ?_
    intro pre ev hpre hpre_settled
    rw [Machine.run_concat, HookSystem.next]
    cases hstep : (Machine.run (HookSystem.next S) (initial S m typeName listener n) pre).step S ev
      with
    | none => exact hpre_settled
    | some s' => exact hpre_settled.step (h pre ((List.prefix_append _ _).trans hpre)) hstep
  rintro pre hpre ⟨hundone, hnone⟩
  obtain ⟨ev, hstep⟩ := (hsettled pre hpre).exists_step (h pre hpre) hundone
  rw [hnone ev] at hstep
  cases hstep

/-! ### A hook that reads, and one that runs a client -/

/-- What the kernel answers: the descriptor `fd` and the next ones are free, one hook is
in the directory, `status` is what it says about that, and nothing has arrived. -/
def hookAnswer (fd status : ℤ) : (c : SysCall) → Ans c
  | .pipe => .ok (fd, fd + 1)
  | .pidfdOpen _ | .socket => .ok fd
  | .fork _ => .ok 100
  | .isDirectory _ => true
  | .directory _ => some [(bytes "/usr/share/shared-state/hooks/A/hook", some true)]
  | .waitpid _ => .ok status
  | .recv _ _ | .accept _ => .error .eagain
  | c => quietAnswer c

/-- A hook on a host whose pipes take 64 KiB. -/
def hookSetting (program : Bool → HookAct ℕ Bool) : HookSetting ℕ Bool where
  platform := samplePlatform (bytes "a")
  localInstanceAddr := [127, 0, 0, 1]
  toJson := (samplePlatform (bytes "a")).fromStateSlice
  prettyJSON := (samplePlatform (bytes "a")).cleanJsonData
  capacity := 65536
  capacity_pos := Nat.succ_pos _
  program := program
  start := fun _ => false

/-- The daemon at the end of a session that brought an entry. -/
def hookInitial (program : Bool → HookAct ℕ Bool) : HookSystem ℕ Bool :=
  initial (hookSetting program) (sampleProcess sampleSlice) (bytes "A") 0 1

/-- The daemon takes up to `k` steps. -/
def daemonSteps (k : ℕ) (status : ℤ) : List HookEvent :=
  (List.range k).map fun i => .daemon (hookAnswer (10 + 2 * i) status)

/-- A hook that reads its standard input to the end. -/
def reader (atEnd : Bool) : HookAct ℕ Bool := if atEnd then .exit else .read List.isEmpty

/-- The daemon gives the state to the hook and waits, the hook reads it and ends, and the
daemon goes on to the next connection. -/
def readerEvents : List HookEvent :=
  daemonSteps 60 0 ++ [.hook 9, .hook 9, .hook 9] ++ daemonSteps 60 100

lemma behaves_reader (s : HookSystem ℕ Bool) : s.Behaves (hookSetting reader) := by
  intro atEnd _
  cases atEnd with
  | false => trivial
  | true => trivial

theorem hooks_never_deadlock_reader :
    ((Machine.run (HookSystem.next (hookSetting reader)) (hookInitial reader)
      readerEvents).hook.alive = false ∧
    (Machine.run (HookSystem.next (hookSetting reader)) (hookInitial reader)
      readerEvents).sessionDone) ∧
    Machine.Throughout (HookSystem.next (hookSetting reader))
      (fun s => ¬ s.Deadlocked (hookSetting reader)) (hookInitial reader) readerEvents :=
  ⟨by decide +kernel, hooks_never_deadlock _ _ _ _ _ _ fun _ _ => behaves_reader _⟩

/-- `shared-state-async get A`, on the host of the daemon. -/
def getClient : Client ℕ :=
  ⟨.get, bytes "A", { (sampleProcess ∅).shared with isPeer := false }⟩

/-- A hook that runs it. -/
def getter (ran : Bool) : HookAct ℕ Bool := if ran then .exit else .run getClient true

/-- The daemon waits for the hook, the hook for the client, and the client, connected, for
the version of the daemon. -/
def getterEvents : List HookEvent :=
  daemonSteps 60 0 ++ [.hook 0] ++
    (List.range 60).map fun i => .client 0 (hookAnswer (10 + 2 * i) 0)

/-- **A hook that runs `get`** deadlocks with the daemon that runs it. -/
theorem not_neverDeadlocks_get :
    ¬ NeverDeadlocks (hookSetting getter) (sampleProcess sampleSlice) (bytes "A") 0 1 := by
  intro h
  have hdead : (Machine.run (HookSystem.next (hookSetting getter)) (hookInitial getter)
      getterEvents).Deadlocked (hookSetting getter) := by decide +kernel
  exact (h getterEvents).last hdead

end SharedStateAsync
