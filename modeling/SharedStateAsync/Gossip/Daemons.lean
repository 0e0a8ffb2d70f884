/-
Daemons and command lines, down to their coroutines.

The network of nodes speaks of stores and messages. Here each node is the daemon as it
runs: a pool of coroutines in which the sessions of both sides, the bleaching and the
reloads interleave at every call that would block. Messages travel as texts, and all that
is asked of the world is that a message a session receives was sent, and that sessions
with other hosts and with the command line of the own host are told apart by the address.

* `Packet`, `Daemons`, `Daemons.step`: the daemons of all hosts, and what was sent;
* `CommandLineSends`, `commandLineSends_data`: what `insert`, `get` and `dump` send;
* `Daemons.Admits`: the events that can happen;
* `Refines`: the stores and messages of the daemons are those of a network;
* `Daemons.locals`: what a run publishes and bleaches;
* `Refines.step`: a step of the daemons is a step of the network, or none;
* `daemons_refine`: **refinement**: every run of the daemons is a run of the network, with
  the same inserts and bleaches in the same order;
* `daemons_provenance`: **provenance**: what a daemon holds was published on the host of its
  author;
* `exchange`: an insert, and a session of two daemons.
-/
import SharedStateAsync.Gossip.Provenance
import SharedStateAsync.Gossip.Join
import SharedStateAsync.Daemon.Snapshots
import SharedStateAsync.Daemon.HookSystem
import SharedStateAsync.Session.Agreement

namespace SharedStateAsync

open Coro Machine

variable {ι D : Type}

/-! ### The system -/

/-- Who has sent a message. -/
inductive Sender (ι : Type) where
  | daemon (n : ι)
  /-- A command line on the host of the node. -/
  | commandLine (n : ι)
  deriving DecidableEq

/-- A message as it travels. -/
structure Packet (ι : Type) where
  sender : Sender ι
  typeName : StdString
  data : StdString
  deriving DecidableEq

/-- The daemon of each node, and the messages sent so far. -/
structure Daemons (ι D : Type) where
  pool : ι → DaemonPool D
  sent : List (Packet ι) := []

inductive DaemonsEvent (ι D : Type) where
  | daemon (n : ι) (ev : DaemonEvent D)
  /-- A command line on the host of `n`, with the configuration it has read, sends a
  message. -/
  | commandLine (n : ι) (op : ClientOp D) (conf : DataTypeConf) (typeName data : StdString)

/-- The message the daemon sends with the event. -/
def messageSent (p : DaemonPool D) (n : ι) (ev : DaemonEvent D) : List (Packet ι) :=
  match p.nextMark ev with
  | some (.messageOut typeName data) => [⟨.daemon n, typeName, data⟩]
  | _ => []

variable [DecidableEq ι] [BEq D]

/-- One step of a daemon, or a message of a command line. -/
def Daemons.step (P : ι → Platform D) (json : ConfJson) (s : Daemons ι D) :
    DaemonsEvent ι D → Daemons ι D
  | .daemon n ev =>
      { pool := Function.update s.pool n
          ((s.pool n).step (Job.body (P n)) (SyncOp.effect json) ev)
        sent := s.sent ++ messageSent (s.pool n) n ev }
  | .commandLine n _ _ typeName data =>
      { s with sent := s.sent ++ [⟨.commandLine n, typeName, data⟩] }

/-! ### The command line -/

/-- What the operation publishes. -/
def ClientOp.members : ClientOp D → List (StdString × D)
  | .dump | .get | .insert none => []
  | .insert (some members) => members

/-- The coroutine of the operation. -/
def ClientOp.code (P : Platform D) (printed : StateMap D → StdString) (typeName : StdString)
    (localInstanceAddr : SockAddr) : ClientOp D → Io D Unit
  | .dump => SharedStateCli.dump P printed typeName localInstanceAddr
  | .get => SharedStateCli.get P printed typeName localInstanceAddr
  | .insert jsonInput => SharedStateAsync.insert P typeName jsonInput localInstanceAddr

/-- The operation, in a process of its own that has read the configuration of the type and
has no entries yet, sends the message in some run. -/
def CommandLineSends (P : Platform D) (op : ClientOp D) (conf : DataTypeConf)
    (typeName data : StdString) : Prop :=
  ∃ (σ : Type) (env : Env SysCall Ans (Process D) σ) (start : σ) (m : Process D)
    (printed : StateMap D → StdString) (localInstanceAddr : SockAddr),
    m.shared.mStates[typeName]? = some ∅ ∧ m.shared.mTypeConf[typeName]? = some conf ∧
    let result := (op.code P printed typeName localInstanceAddr).exec env ⟨start, m, []⟩
    Meets (Alone fun _ => True) [] result.2.trace ∧
      .messageOut typeName data ∈ marks result.2.trace

/-- Every message out is the state of the type in `s`. -/
def SendsOnly (P : Platform D) (s : SharedState D) (typeName : StdString) (t : Trace D) : Prop :=
  ∀ typeName' data, .messageOut typeName' data ∈ marks t →
    typeName' = typeName ∧ data = P.fromStateSlice (s.mStates[typeName]?.getD ∅)

section SendsOnly

variable {P : Platform D} {s : SharedState D} {typeName : StdString} {m : Process D} {t : Trace D}
  {peerAddr : SockAddr} {errbub : ErrBub}

omit [BEq D] in
lemma SendsOnly.concat (h : SendsOnly P s typeName t) {i : Step D}
    (hi : ∀ typeName' data, i ≠ .marked (.messageOut typeName' data)) :
    SendsOnly P s typeName (t ++ [i]) := by
  intro typeName' data hmem
  rcases List.mem_append.mp (mem_marks.mp hmem) with hmem | hmem
  · exact h typeName' data (mem_marks.mpr hmem)
  · exact absurd (List.mem_singleton.mp hmem).symm (hi typeName' data)

omit [BEq D] in
lemma framed_sendsOnly {R : Rely SysCall Ans (Process D) Mark} :
    Framed R (fun _ => SendsOnly P s typeName) fun _ => SendsOnly P s typeName := by
  refine framed_of_trace (fun t i hi h => h.concat ?_) fun _ h => h
  rintro typeName' data rfl
  cases hi

omit [BEq D] in
lemma Kept.sendsOnly (h : Kept s [] m t) : SendsOnly P s typeName t := by
  intro typeName' data hmem
  exact absurd ((h.mem_marks rfl).mp hmem) List.not_mem_nil

/-- **A client that is alone** asks for its type with the state it began with. -/
lemma syncWithPeer_sendsOnly (h : Kept s [] m t) :
    wp (Alone fun _ => True) (fun _ => SendsOnly P s typeName)
      (syncWithPeer P typeName peerAddr errbub) (fun _ _ => SendsOnly P s typeName) m t := by
  let phases : ClientPhases P typeName peerAddr errbub (Alone fun _ => True)
      (fun _ => SendsOnly P s typeName) (fun _ => SendsOnly P s typeName) := {
    idle := Kept s []
    asked := fun _ => SendsOnly P s typeName
    refused := fun _ => SendsOnly P s typeName
    merged := fun _ _ _ => SendsOnly P s typeName
    notified := fun _ _ => SendsOnly P s typeName
    framed_idle :=
      { framed_kept with exited := fun _ _ h => h.sendsOnly }
    framed_asked := framed_sendsOnly
    framed_refused := framed_sendsOnly
    framed_merged := fun _ _ => framed_sendsOnly
    framed_notified := fun _ => framed_sendsOnly
    request := by
      intro m t h typeName' data hmem
      rw [marks_append] at hmem
      rcases List.mem_append.mp hmem with hmem | hmem
      · have hold : SendsOnly P s typeName (afterReference typeName m t) := by
          rw [afterReference]
          cases m.shared.mStates[typeName]? with
          | none => exact h.sendsOnly.concat (by rintro typeName' data ⟨⟩)
          | some tState => exact h.sendsOnly
        exact hold typeName' data hmem
      · obtain ⟨rfl, rfl⟩ := Mark.messageOut.inj (List.mem_singleton.mp hmem)
        rw [h.shared_eq]
        exact ⟨rfl, rfl⟩
    merge := by
      intro typeName' data m t tick h _
      have ht := (h.concat (i := .marked (.messageIn typeName' data)) (by rintro _ _ ⟨⟩)).concat
        (i := .called m .steadyClock tick) (by rintro _ _ ⟨⟩)
      refine wp_mergeSlice (fun changes shared _ => ?_) (fun c _ _ => ht) (fun c _ => ?_)
        fun _ changes => ?_
      · exact Or.inr (ht.concat (by rintro _ _ ⟨⟩))
      · exact Or.inl ⟨rfl, ht.concat (by rintro _ _ ⟨⟩)⟩
      · exact Or.inr ((ht.concat (by rintro _ _ ⟨⟩)).concat (by rintro _ _ ⟨⟩))
    notify := fun _ _ _ _ h _ _ => h.concat (by rintro _ _ ⟨⟩)
    done_idle := fun _ _ h => h.sendsOnly
    done_asked := fun _ _ h => h
    done_refused := fun _ _ h => h
    done_merged := fun _ _ _ _ h => h
    done_notified := fun _ _ _ h => h }
  exact phases.wp_syncWithPeer h

/-- **`get` and `dump`** send the state they began with. -/
lemma printSynced_sendsOnly (printed : StateMap D → StdString) (h : Kept s [] m t) :
    wp (Alone fun _ => True) (fun _ => SendsOnly P s typeName)
      (printSynced P printed typeName peerAddr) (fun _ _ => SendsOnly P s typeName) m t := by
  rw [printSynced, wp_bind, wp_memory]
  split_ifs
  · exact h.sendsOnly
  rw [wp_bind]
  refine wp_mono (syncWithPeer_sendsOnly h) fun _ m₁ t₁ h₁ => ?_
  rw [wp_bind, wp_referencedState]
  have hold : SendsOnly P s typeName (afterReference typeName m₁ t₁) := by
    rw [afterReference]
    cases m₁.shared.mStates[typeName]? with
    | none => exact h₁.concat (by rintro _ _ ⟨⟩)
    | some tState => exact h₁
  exact fun _ _ => hold.concat (by rintro _ _ ⟨⟩)

/-- **`insert`** sends the state it has made. -/
lemma insert_sendsOnly (members : List (StdString × D)) (h : Kept s [] m t) :
    wp (Alone fun _ => True)
      (fun _ => SendsOnly P (s.insertMembers P.host.authorPlaceOlder typeName members) typeName)
      (insert P typeName (some members) peerAddr)
      (fun _ _ => SendsOnly P (s.insertMembers P.host.authorPlaceOlder typeName members) typeName)
      m t := by
  have hnone : ∀ s', SendsOnly P s' typeName t := by
    intro s' typeName' data hmem
    exact absurd ((h.mem_marks rfl).mp hmem) List.not_mem_nil
  rw [insert, wp_bind, wp_memory]
  split_ifs
  · exact hnone _
  change wp _ _ (syncWithPeer P typeName peerAddr .null >>= fun _ => exit) _
    { m with shared := m.shared.insertMembers P.host.authorPlaceOlder typeName members } t
  rw [wp_bind]
  exact wp_mono (syncWithPeer_sendsOnly ⟨by rw [h.shared_eq], h.news_eq⟩) fun _ _ _ h => h

end SendsOnly

/-- **What a command line sends** is the slice of what it publishes. -/
theorem commandLineSends_data {P : Platform D} {op : ClientOp D} {conf : DataTypeConf}
    {typeName data : StdString} (h : CommandLineSends P op conf typeName data) :
    data = P.fromStateSlice (insertSlice conf P.host.authorPlaceOlder op.members) := by
  obtain ⟨σ, env, start, m, printed, addr, hstate, hconf, hmeets, hmem⟩ := h
  have hkept : Kept m.shared [] m [] := ⟨rfl, rfl⟩
  have hread : ∀ {p : Io D Unit}, wp (Alone fun _ => True)
      (fun _ => SendsOnly P m.shared typeName) p (fun _ _ => SendsOnly P m.shared typeName) m [] →
      Meets (Alone fun _ => True) [] (p.exec env ⟨start, m, []⟩).2.trace →
      .messageOut typeName data ∈ marks (p.exec env ⟨start, m, []⟩).2.trace →
      data = P.fromStateSlice ∅ := by
    intro p hp hmeets hmem
    have hsends := (wp_sound_nil hp hmeets (s := start)).of_same
    rw [(hsends typeName data hmem).2, hstate, Option.getD_some]
  cases op with
  | dump => exact hread (printSynced_sendsOnly printed hkept) hmeets hmem
  | get => exact hread (printSynced_sendsOnly printed hkept) hmeets hmem
  | insert jsonInput =>
      cases jsonInput with
      | none =>
          refine hread ?_ hmeets hmem
          rw [ClientOp.code, insert, wp_bind, wp_memory]
          split_ifs
          · exact hkept.sendsOnly
          · exact hkept.sendsOnly
      | some members =>
          have hsends := (wp_sound_nil (insert_sendsOnly members hkept) hmeets).of_same
          rw [(hsends typeName data hmem).2,
            (insertMembers_getElem? hstate hconf P.host.authorPlaceOlder members).1,
            Option.getD_some]
          rfl

/-! ### What can happen -/

/-- The address tells a daemon of another host from the command line of this one. -/
def Sender.Reaches (host : Host) (n : ι) (addr : SockAddr) : Sender ι → Prop
  | .daemon _ => host.isLoopbackNet addr = false
  | .commandLine n' => n' = n ∧ host.isLoopbackNet addr = true

/-- The name each host signs its entries with. -/
abbrev hostnames (P : ι → Platform D) (n : ι) : StdString := (P n).host.authorPlaceOlder

/-- Every daemon reads the text of the state back. -/
def Readable (P : ι → Platform D) (n : ι) (state : StateMap D) : Prop :=
  ∀ m, (P m).toStateSlice ((P n).fromStateSlice state) = state

/-- The daemon runs sessions, reads no configuration without the type, sends texts that can
be read, and what a session receives for the type was sent by the peer it knows. -/
structure Daemons.DaemonAdmits (P : ι → Platform D) (json : ConfJson) (typeName : StdString)
    (s : Daemons ι D) (n : ι) (ev : DaemonEvent D) : Prop where
  session : ∀ i job, ev = .spawn i job → job.IsSession
  keeps : ∀ op, ev = .sync op → ¬ op.Drops json typeName
  readable : ∀ data state, (s.pool n).nextMark ev = some (.messageOut typeName data) →
    (s.pool n).mem.shared.mStates[typeName]? = some state → Readable P n state
  heard : ∀ i task data addr, (s.pool n).Runs i task →
    (s.pool n).nextMark ev = some (.messageIn typeName data) → task.job.Peer task.trace addr →
    ∃ packet ∈ s.sent, packet.typeName = typeName ∧ packet.data = data ∧
      packet.sender.Reaches (P n).host n addr

/-- The event can happen. -/
def Daemons.Admits (P : ι → Platform D) (json : ConfJson) (typeName : StdString)
    (s : Daemons ι D) : DaemonsEvent ι D → Prop
  | .daemon n ev => s.DaemonAdmits P json typeName n ev
  | .commandLine n op conf typeName' data =>
      typeName' = typeName → CommandLineSends (P n) op conf typeName data ∧
        Readable P n (insertSlice conf (P n).host.authorPlaceOlder op.members)

/-- Every event of the run can happen when it does. -/
def Daemons.Admitted (P : ι → Platform D) (json : ConfJson) (typeName : StdString)
    (s : Daemons ι D) (evs : List (DaemonsEvent ι D)) : Prop :=
  ∀ pre ev, pre ++ [ev] <+: evs → (run (Daemons.step P json) s pre).Admits P json typeName ev

lemma admitted_cons {P : ι → Platform D} {json : ConfJson} {typeName : StdString}
    {s : Daemons ι D} {ev : DaemonsEvent ι D} {evs : List (DaemonsEvent ι D)} :
    s.Admitted P json typeName (ev :: evs) ↔ s.Admits P json typeName ev ∧
      (s.step P json ev).Admitted P json typeName evs := by
  constructor
  · intro h
    exact ⟨h [] ev (List.prefix_append [ev] evs),
      fun pre ev' hpre => h (ev :: pre) ev' (List.cons_prefix_cons.mpr ⟨rfl, hpre⟩)⟩
  · rintro ⟨hev, hevs⟩ pre ev' hpre
    cases pre with
    | nil =>
        obtain ⟨rfl, -⟩ := List.cons_prefix_cons.mp hpre
        exact hev
    | cons ev₀ pre =>
        obtain ⟨rfl, hrest⟩ := List.cons_prefix_cons.mp hpre
        exact hevs pre ev' hrest

/-! ### The network behind the daemons -/

/-- The sender of the message in the network. -/
def Sender.Sends (msg : Message ι D) : Sender ι → Prop
  | .daemon _ => ∃ state, msg = .snapshot state
  | .commandLine n => ∃ slice, msg = .cli n slice

/-- The packet is the message. -/
structure Packet.Carries (P : ι → Platform D) (packet : Packet ι) (msg : Message ι D) : Prop where
  sends : packet.sender.Sends msg
  slice : ∀ n, (P n).toStateSlice packet.data = msg.slice

/-- The network has the stores of the daemons and the messages of the type. -/
structure Matches (P : ι → Platform D) (typeName : StdString) (s : Daemons ι D)
    (net : Network ι D) : Prop where
  store : ∀ n, (s.pool n).mem.shared.mStates[typeName]? = some (net.store n)
  sent : ∀ packet ∈ s.sent, packet.typeName = typeName → ∃ msg ∈ net.sent, packet.Carries P msg

/-- And the coroutines meet their obligations, and what they have received was sent. -/
structure Refines (P : ι → Platform D) (typeName : StdString) (s : Daemons ι D)
    (net : Network ι D) : Prop extends Matches P typeName s net where
  owes : ∀ n, (guardInvariant (SessionWrites (P n)) (SessionMarks (P n))).Holds (s.pool n)
  heard : ∀ n i task data addr, (s.pool n).tasks i = some task →
    Received task.job task.trace typeName data addr →
    ∃ packet ∈ s.sent, packet.typeName = typeName ∧ packet.data = data ∧
      packet.sender.Reaches (P n).host n addr

/-- Inserts and bleaches. -/
def Event.isLocal : Event ι D → Bool
  | .insert _ _ | .bleach _ _ => true
  | .send _ | .deliver _ _ => false

/-- What the event publishes or bleaches: a bleach by at least a second, called while no
coroutine of the daemon runs. -/
def DaemonsEvent.local (typeName : StdString) (s : Daemons ι D) :
    DaemonsEvent ι D → Option (DataTypeConf × Event ι D)
  | .daemon n (.sync (.bleach typeName' times _)) =>
      if typeName' = typeName ∧ 1 ≤ times ∧ (s.pool n).idle then
        some (DataTypeConf.initial, .bleach n times)
      else none
  | .daemon _ _ => none
  | .commandLine n op conf typeName' _ =>
      if typeName' = typeName then some (conf, .insert n op.members) else none

/-- What a run publishes and bleaches, in its order. -/
def Daemons.locals (P : ι → Platform D) (json : ConfJson) (typeName : StdString) :
    Daemons ι D → List (DaemonsEvent ι D) → List (DataTypeConf × Event ι D)
  | _, [] => []
  | s, ev :: evs => (ev.local typeName s).toList ++ locals P json typeName (s.step P json ev) evs

section Step

variable {P : ι → Platform D} {json : ConfJson} {typeName : StdString} {s : Daemons ι D}
  {net : Network ι D}

omit [DecidableEq ι] [BEq D] in
/-- What is received after one more step was received before, or with it. -/
lemma Received.of_concat {job : Job D} {t : Trace D} {i : Step D} {data : StdString}
    {addr : SockAddr} (h : Received job (t ++ [i]) typeName data addr) :
    Received job t typeName data addr ∨
      i = .marked (.messageIn typeName data) ∧ job.Peer t addr := by
  obtain ⟨t₁, t₂, heq, hpeer⟩ := h
  rcases List.eq_nil_or_concat t₂ with rfl | ⟨t₂, i', rfl⟩
  · obtain ⟨rfl, hi⟩ := List.append_inj' heq rfl
    exact Or.inr ⟨(List.cons.inj hi).1, hpeer⟩
  · rw [List.concat_eq_append, ← List.cons_append, ← List.append_assoc] at heq
    obtain ⟨rfl, -⟩ := List.append_inj' heq rfl
    exact Or.inl ⟨t₁, t₂, rfl, hpeer⟩

/-- **A step of a daemon**: what is left to show is where its store and its messages are in
the network. -/
lemma Refines.daemon (h : Refines P typeName s net) {n : ι} {ev : DaemonEvent D}
    (hev : s.DaemonAdmits P json typeName n ev) {net' : Network ι D}
    (hstore : ((s.pool n).step (Job.body (P n)) (SyncOp.effect json)
      ev).mem.shared.mStates[typeName]? = some (net'.store n))
    (hothers : ∀ m, m ≠ n → net'.store m = net.store m)
    (hsent : ∀ msg ∈ net.sent, msg ∈ net'.sent)
    (hnew : ∀ packet ∈ messageSent (s.pool n) n ev, packet.typeName = typeName →
      ∃ msg ∈ net'.sent, packet.Carries P msg) :
    Refines P typeName (s.step P json (.daemon n ev)) net' where
  store := by
    intro m
    by_cases hm : m = n
    · subst hm
      simpa only [Daemons.step, Function.update_self] using hstore
    · simpa only [Daemons.step, Function.update_of_ne hm, hothers m hm] using h.store m
  sent := by
    intro packet hmem htype
    rcases List.mem_append.mp hmem with hmem | hmem
    · obtain ⟨msg, hmsg, hcarries⟩ := h.sent packet hmem htype
      exact ⟨msg, hsent msg hmsg, hcarries⟩
    · exact hnew packet hmem htype
  owes := by
    intro m
    by_cases hm : m = n
    · subst hm
      simp only [Daemons.step, Function.update_self]
      exact (h.owes m).step (fun i job hspawn => guarded_session (hev.session i job hspawn))
        fun _ _ _ _ _ => trivial
    · simpa only [Daemons.step, Function.update_of_ne hm] using h.owes m
  heard := by
    intro m i task data addr htask hreceived
    have hold : ∀ m i task, (s.pool m).tasks i = some task →
        Received task.job task.trace typeName data addr →
        ∃ packet ∈ (s.step P json (.daemon n ev)).sent, packet.typeName = typeName ∧
          packet.data = data ∧ packet.sender.Reaches (P m).host m addr := by
      intro m i task htask hreceived
      obtain ⟨packet, hmem, hpacket⟩ := h.heard m i task data addr htask hreceived
      exact ⟨packet, List.mem_append_left _ hmem, hpacket⟩
    by_cases hm : m = n
    · subst hm
      simp only [Daemons.step, Function.update_self] at htask
      rcases step_task htask with ⟨htrace, -⟩ |
        ⟨task₀, htask₀, hjob, htrace | ⟨item, htrace, hmark⟩⟩
      · obtain ⟨t₁, t₂, heq, -⟩ := hreceived
        rw [htrace] at heq
        cases t₁ <;> cases heq
      · rw [hjob, htrace] at hreceived
        exact hold m i task₀ htask₀ hreceived
      · rw [hjob, htrace] at hreceived
        rcases hreceived.of_concat with hreceived | ⟨rfl, hpeer⟩
        · exact hold m i task₀ htask₀ hreceived
        · obtain ⟨hnext, hruns⟩ := hmark _ rfl
          obtain ⟨packet, hmem, hpacket⟩ := hev.heard i task₀ data addr hruns hnext hpeer
          exact ⟨packet, List.mem_append_left _ hmem, hpacket⟩
    · simp only [Daemons.step, Function.update_of_ne hm] at htask
      exact hold m i task htask hreceived

/-- **A command line's message**: what is left to show is where it is in the network. -/
lemma Refines.commandLine (h : Refines P typeName s net) {n : ι} {op : ClientOp D}
    {conf : DataTypeConf} {typeName' data : StdString} {net' : Network ι D}
    (hstore : net'.store = net.store) (hsent : ∀ msg ∈ net.sent, msg ∈ net'.sent)
    (hnew : typeName' = typeName →
      ∃ msg ∈ net'.sent, Packet.Carries P ⟨.commandLine n, typeName', data⟩ msg) :
    Refines P typeName (s.step P json (.commandLine n op conf typeName' data)) net' where
  store := by
    rw [hstore]
    exact h.store
  sent := by
    intro packet hmem htype
    rcases List.mem_append.mp hmem with hmem | hmem
    · obtain ⟨msg, hmsg, hcarries⟩ := h.sent packet hmem htype
      exact ⟨msg, hsent msg hmsg, hcarries⟩
    · obtain rfl := List.mem_singleton.mp hmem
      exact hnew htype
  owes := h.owes
  heard := by
    intro m i task data addr htask hreceived
    obtain ⟨packet, hmem, hpacket⟩ := h.heard m i task data addr htask hreceived
    exact ⟨packet, List.mem_append_left _ hmem, hpacket⟩

/-- A message that a command line sends of the type is an insert. -/
lemma Refines.insert (h : Refines P typeName s net) {n : ι} {op : ClientOp D}
    {conf : DataTypeConf} {data : StdString} (hsends : CommandLineSends (P n) op conf typeName data)
    (hread : Readable P n (insertSlice conf (P n).host.authorPlaceOlder op.members)) :
    Refines P typeName (s.step P json (.commandLine n op conf typeName data))
      (net.step conf (hostnames P) (.insert n op.members)) := by
  refine h.commandLine rfl (fun _ hmsg => List.mem_append_left _ hmsg) fun _ => ?_
  refine ⟨_, List.mem_append_right _ (List.mem_singleton_self _), ⟨_, rfl⟩, fun m => ?_⟩
  rw [commandLineSends_data hsends]
  exact hread m

/-- The network receives a message as the daemon merges the packet. -/
lemma Packet.Carries.receive {packet : Packet ι} {msg : Message ι D} (h : packet.Carries P msg)
    {n : ι} {addr : SockAddr} (hreaches : packet.sender.Reaches (P n).host n addr)
    (store : StateMap D) :
    Network.receive (hostnames P) n store msg
      = mergeState (P n).host.authorPlaceOlder (!(P n).host.isLoopbackNet addr) store
        ((P n).toStateSlice packet.data) := by
  have hsends := h.sends
  rw [h.slice n]
  cases hsender : packet.sender with
  | daemon m =>
      rw [hsender] at hsends hreaches
      obtain ⟨state, rfl⟩ := hsends
      rw [show (P n).host.isLoopbackNet addr = false from hreaches]
      rfl
  | commandLine m =>
      rw [hsender] at hsends hreaches
      obtain ⟨slice, rfl⟩ := hsends
      rw [hreaches.2]
      exact if_pos hreaches.1

omit [DecidableEq ι] [BEq D] in
lemma messageSent_of_ne {p : DaemonPool D} {n : ι} {ev : DaemonEvent D}
    (h : ∀ typeName data, p.nextMark ev ≠ some (.messageOut typeName data)) :
    messageSent p n ev = [] := by
  rw [messageSent]
  split
  · rename_i typeName data hmark
    exact absurd hmark (h typeName data)
  · rfl

omit [DecidableEq ι] [BEq D] in
/-- The other events of a daemon publish and bleach nothing. -/
lemma local_eq_none {n : ι} {ev : DaemonEvent D}
    (h : ¬ ∃ times errbub, ev = .sync (.bleach typeName times errbub) ∧ 1 ≤ times ∧
      (s.pool n).idle) :
    (DaemonsEvent.daemon n ev).local typeName s = none := by
  cases ev with
  | sync op =>
      cases op with
      | bleach typeName' times errbub =>
          refine if_neg ?_
          rintro ⟨rfl, htimes, hidle⟩
          exact h ⟨times, errbub, rfl, htimes, hidle⟩
      | _ => rfl
  | _ => rfl

/-- A step of a daemon with which it sends no message. -/
lemma Refines.daemon_silent (h : Refines P typeName s net) {n : ι} {ev : DaemonEvent D}
    (hev : s.DaemonAdmits P json typeName n ev)
    (hsilent : ∀ typeName data, (s.pool n).nextMark ev ≠ some (.messageOut typeName data)) :
    ∃ nevs, Refines P typeName (s.step P json (.daemon n ev))
        (run (Network.stepWith (hostnames P)) net nevs) ∧
      (nevs.filter fun ev => ev.2.isLocal)
        = ((DaemonsEvent.daemon n ev).local typeName s).toList := by
  have hnew : ∀ (net' : Network ι D), ∀ packet ∈ messageSent (s.pool n) n ev,
      packet.typeName = typeName → ∃ msg ∈ net'.sent, packet.Carries P msg := by
    intro net' packet hmem
    rw [messageSent_of_ne hsilent] at hmem
    cases hmem
  by_cases hbleach : ∃ times errbub, ev = .sync (.bleach typeName times errbub) ∧ 1 ≤ times ∧
      (s.pool n).idle
  · obtain ⟨times, errbub, rfl, htimes, hidle⟩ := hbleach
    refine ⟨[(DataTypeConf.initial, .bleach n times)], ?_, ?_⟩
    · change Refines P typeName _ (net.step DataTypeConf.initial (hostnames P) (.bleach n times))
      rw [Network.step, if_neg (not_lt.mpr htimes)]
      refine h.daemon hev ?_ (fun m hm => Network.setStore_store_of_ne hm _) (fun _ hmsg => hmsg)
        (hnew _)
      rw [step_bleach hidle htimes (h.store n), Network.setStore_store_self]
    · rw [DaemonsEvent.local, if_pos ⟨rfl, htimes, hidle⟩]
      rfl
  rw [local_eq_none hbleach]
  rcases state_step (h.owes n) hev.keeps (h.store n) with hsame | ⟨i, task, data, addr, hruns,
    hreceived, hmerge⟩ | ⟨times, errbub, rfl, htimes, hidle, -⟩
  · exact ⟨[], h.daemon hev hsame (fun _ _ => rfl) (fun _ hmsg => hmsg) (hnew _), rfl⟩
  · -- the merge of a message that was sent: the network delivers it
    obtain ⟨packet, hmem, htype, rfl, hreaches⟩ := h.heard n i task data addr hruns.task hreceived
    obtain ⟨msg, hmsg, hcarries⟩ := h.sent packet hmem htype
    obtain ⟨j, hj⟩ := List.getElem?_of_mem hmsg
    have hstep : Network.step DataTypeConf.initial (hostnames P) net
        (.deliver n j) = net.setStore n (Network.receive (hostnames P) n
          (net.store n) msg) := Network.step_deliver hj
    refine ⟨[(DataTypeConf.initial, .deliver n j)], ?_, rfl⟩
    change Refines P typeName _ (net.step DataTypeConf.initial (hostnames P) (.deliver n j))
    rw [hstep]
    refine h.daemon hev ?_ (fun m hm => Network.setStore_store_of_ne hm _) (fun _ hmsg => hmsg)
      (hnew _)
    rw [hmerge, Network.setStore_store_self, hcarries.receive hreaches]
  · exact absurd ⟨times, errbub, rfl, htimes, hidle⟩ hbleach

/-- A step with which a daemon sends a message: of the type, the network sends it. -/
lemma Refines.daemon_sends (h : Refines P typeName s net) {n : ι} {ev : DaemonEvent D}
    (hev : s.DaemonAdmits P json typeName n ev) {typeName' data : StdString}
    (hmark : (s.pool n).nextMark ev = some (.messageOut typeName' data)) :
    ∃ nevs, Refines P typeName (s.step P json (.daemon n ev))
        (run (Network.stepWith (hostnames P)) net nevs) ∧
      (nevs.filter fun ev => ev.2.isLocal)
        = ((DaemonsEvent.daemon n ev).local typeName s).toList := by
  have hlocal : (DaemonsEvent.daemon n ev).local typeName s = none := by
    refine local_eq_none ?_
    rintro ⟨times, errbub, rfl, -⟩
    cases hmark
  have hmem : ((s.pool n).step (Job.body (P n)) (SyncOp.effect json) ev).mem
      = (s.pool n).mem := step_mem_of_nextMark hmark
  have hstore := h.store n
  rw [← hmem] at hstore
  have hsent : messageSent (s.pool n) n ev = [⟨.daemon n, typeName', data⟩] := by
    rw [messageSent, hmark]
  rw [hlocal]
  by_cases htype : typeName' = typeName
  · subst htype
    refine ⟨[(DataTypeConf.initial, .send n)], ?_, rfl⟩
    change Refines P typeName' _ (net.step DataTypeConf.initial (hostnames P) (.send n))
    refine h.daemon hev hstore (fun _ _ => rfl) (fun _ hmsg => List.mem_append_left _ hmsg) ?_
    intro packet hpacket _
    rw [hsent] at hpacket
    obtain rfl := List.mem_singleton.mp hpacket
    refine ⟨_, List.mem_append_right _ (List.mem_singleton_self _), ⟨_, rfl⟩, fun m => ?_⟩
    obtain ⟨i, task, -, hdata⟩ := nextMark_of_guarded (h.owes n) hmark
    have hdata : data = _ := hdata
    rw [h.store n, Option.getD_some] at hdata
    rw [hdata]
    exact hev.readable data _ hmark (h.store n) m
  · refine ⟨[], h.daemon hev hstore (fun _ _ => rfl) (fun _ hmsg => hmsg) ?_, rfl⟩
    intro packet hpacket hpacketType
    rw [hsent] at hpacket
    obtain rfl := List.mem_singleton.mp hpacket
    exact absurd hpacketType htype

/-- **A step of the daemons** is a step of the network, or none. -/
theorem Refines.step (h : Refines P typeName s net) {ev : DaemonsEvent ι D}
    (hev : s.Admits P json typeName ev) :
    ∃ nevs, Refines P typeName (s.step P json ev)
        (run (Network.stepWith (hostnames P)) net nevs) ∧
      (nevs.filter fun ev => ev.2.isLocal) = (ev.local typeName s).toList := by
  cases ev with
  | commandLine n op conf typeName' data =>
      by_cases htype : typeName' = typeName
      · subst htype
        refine ⟨[(conf, .insert n op.members)], h.insert (hev rfl).1 (hev rfl).2, ?_⟩
        rw [DaemonsEvent.local, if_pos rfl]
        rfl
      · rw [DaemonsEvent.local, if_neg htype]
        exact ⟨[], h.commandLine rfl (fun _ hmsg => hmsg) fun heq => absurd heq htype, rfl⟩
  | daemon n ev =>
      by_cases hsends : ∃ typeName' data,
        (s.pool n).nextMark ev = some (.messageOut typeName' data)
      · obtain ⟨typeName', data, hmark⟩ := hsends
        exact h.daemon_sends hev hmark
      · exact h.daemon_silent hev fun typeName' data hmark => hsends ⟨typeName', data, hmark⟩

end Step

/-! ### Runs -/

/-- The daemons before anything has happened. -/
def Daemons.start (m : ι → Process D) : Daemons ι D := { pool := fun n => { mem := m n } }

/-- The run behind a run. -/
lemma Refines.run {P : ι → Platform D} {json : ConfJson} {typeName : StdString} {s : Daemons ι D}
    {net : Network ι D} (h : Refines P typeName s net) {evs : List (DaemonsEvent ι D)}
    (hevs : s.Admitted P json typeName evs) :
    ∃ nevs, Refines P typeName (Machine.run (Daemons.step P json) s evs)
        (Machine.run (Network.stepWith (hostnames P)) net nevs) ∧
      (nevs.filter fun ev => ev.2.isLocal) = s.locals P json typeName evs := by
  induction evs generalizing s net with
  | nil => exact ⟨[], h, rfl⟩
  | cons ev evs ih =>
      obtain ⟨hev, hevs⟩ := admitted_cons.mp hevs
      obtain ⟨nevs₁, h₁, hlocal₁⟩ := h.step hev
      obtain ⟨nevs₂, h₂, hlocal₂⟩ := ih h₁ hevs
      refine ⟨nevs₁ ++ nevs₂, ?_, ?_⟩
      · rw [run_append]
        exact h₂
      · rw [List.filter_append, hlocal₁, hlocal₂, Daemons.locals]

omit [DecidableEq ι] in
lemma refines_start {P : ι → Platform D} {typeName : StdString} {m : ι → Process D}
    {init : ι → StateMap D} (hinit : ∀ n, (m n).shared.mStates[typeName]? = some (init n)) :
    Refines P typeName (Daemons.start m) ⟨init, []⟩ where
  store := hinit
  sent := by rintro packet ⟨⟩
  owes := fun n => TaskInvariant.holds_of_none fun _ => rfl
  heard := by rintro n i task data addr ⟨⟩

/-- **Refinement**: whatever the interleavings inside and between the daemons, their stores
of a type are those of a run of the network of nodes, which inserts and bleaches exactly what
they do, in the same order. -/
theorem daemons_refine (P : ι → Platform D) (json : ConfJson) (typeName : StdString)
    (m : ι → Process D) (init : ι → StateMap D)
    (hinit : ∀ n, (m n).shared.mStates[typeName]? = some (init n)) (evs : List (DaemonsEvent ι D))
    (hevs : (Daemons.start m).Admitted P json typeName evs) :
    ∃ nevs : List (DataTypeConf × Event ι D),
      Matches P typeName (run (Daemons.step P json) (Daemons.start m) evs)
        (run (Network.stepWith (hostnames P)) ⟨init, []⟩ nevs) ∧
      (nevs.filter fun ev => ev.2.isLocal) = (Daemons.start m).locals P json typeName evs := by
  obtain ⟨nevs, hrefines, hlocal⟩ := (refines_start hinit).run hevs
  exact ⟨nevs, hrefines.toMatches, hlocal⟩

/-- A command line of the run has published the data of the entry under the key on the host
of its author, and the TTL is at most the one it was given there. -/
def PublishedBy (P : ι → Platform D) (typeName : StdString) (evs : List (DaemonsEvent ι D))
    (k : StateKey) (e : StateEntry D) : Prop :=
  ∃ n op conf data, DaemonsEvent.commandLine n op conf typeName data ∈ evs ∧
    hostnames P n = e.mAuthor ∧ insertedValue op.members k = some e.mData ∧
    1 ≤ e.mTtl ∧ e.mTtl ≤ conf.insertTtl

omit [DecidableEq ι] [BEq D] in
lemma mem_local_insert {typeName : StdString} {s : Daemons ι D} {ev : DaemonsEvent ι D}
    {conf : DataTypeConf} {n : ι} {members : List (StdString × D)}
    (h : ev.local typeName s = some (conf, .insert n members)) :
    ∃ op data, op.members = members ∧ ev = .commandLine n op conf typeName data := by
  cases ev with
  | commandLine n' op conf' typeName' data =>
      rw [DaemonsEvent.local] at h
      split_ifs at h with htype
      subst htype
      obtain ⟨rfl, hinsert⟩ := Prod.mk.inj (Option.some.inj h)
      obtain ⟨rfl, hmembers⟩ := Event.insert.inj hinsert
      exact ⟨op, data, hmembers, rfl⟩
  | daemon n' ev =>
      cases ev with
      | sync op =>
          cases op with
          | bleach typeName' times errbub =>
              rw [DaemonsEvent.local] at h
              split_ifs at h
              cases (Prod.mk.inj (Option.some.inj h)).2
          | _ => cases h
      | _ => cases h

lemma mem_locals_insert {P : ι → Platform D} {json : ConfJson} {typeName : StdString}
    {s : Daemons ι D} {evs : List (DaemonsEvent ι D)} {conf : DataTypeConf} {n : ι}
    {members : List (StdString × D)}
    (h : (conf, Event.insert n members) ∈ s.locals P json typeName evs) :
    ∃ op data, op.members = members ∧
      DaemonsEvent.commandLine n op conf typeName data ∈ evs := by
  induction evs generalizing s with
  | nil => cases h
  | cons ev evs ih =>
      rcases List.mem_append.mp h with h | h
      · obtain ⟨op, data, hmembers, rfl⟩ := mem_local_insert (Option.mem_toList.mp h)
        exact ⟨op, data, hmembers, List.mem_cons_self⟩
      · obtain ⟨op, data, hmembers, hmem⟩ := ih h
        exact ⟨op, data, hmembers, List.mem_cons_of_mem _ hmem⟩

/-- **Provenance, down to the coroutines**: whatever the interleavings, an entry that a
daemon holds or has sent was published by a command line on the host of its author, and
has a positive TTL that is no longer than it was given. -/
theorem daemons_provenance (P : ι → Platform D) (json : ConfJson) (typeName : StdString)
    (m : ι → Process D) (hinit : ∀ n, (m n).shared.mStates[typeName]? = some ∅)
    (evs : List (DaemonsEvent ι D)) (hevs : (Daemons.start m).Admitted P json typeName evs)
    (hpos : ∀ n op conf data, .commandLine n op conf typeName data ∈ evs → 1 ≤ conf.insertTtl) :
    let s := run (Daemons.step P json) (Daemons.start m) evs
    (∀ n tState k e, (s.pool n).mem.shared.mStates[typeName]? = some tState →
      tState[k]? = some e → PublishedBy P typeName evs k e) ∧
    ∀ packet ∈ s.sent, packet.typeName = typeName → ∀ n k e,
      ((P n).toStateSlice packet.data)[k]? = some e → PublishedBy P typeName evs k e := by
  intro s
  obtain ⟨nevs, hrefines, hlocal⟩ := (refines_start hinit).run hevs
  have hall : (run (Network.stepWith (hostnames P)) ⟨fun _ => ∅, []⟩ nevs).AllEntries
      (PublishedBy P typeName evs) := by
    refine Network.AllEntries.run (Network.allEntries_empty _) nevs ?_ ?_
    · rintro k e times htimes hlt ⟨n, op, conf, data, hmem, hauthor, hvalue, -, hle⟩
      exact ⟨n, op, conf, data, hmem, hauthor, hvalue, by dsimp only; omega, by dsimp only; omega⟩
    · intro conf n members hmem k e he
      have hfilter : (conf, Event.insert n members) ∈ nevs.filter fun ev => ev.2.isLocal :=
        List.mem_filter.mpr ⟨hmem, rfl⟩
      rw [hlocal] at hfilter
      obtain ⟨op, data, rfl, hev⟩ := mem_locals_insert hfilter
      rw [insertSlice_getElem?] at he
      obtain ⟨d, hd, rfl⟩ := Option.map_eq_some_iff.mp he
      exact ⟨n, op, conf, data, hev, rfl, hd, hpos n op conf data hev, le_rfl⟩
  refine ⟨fun n tState k e hstate he => ?_, fun packet hmem htype n k e he => ?_⟩
  · obtain rfl := Option.some.inj (hstate.symm.trans (hrefines.store n))
    exact hall.store n k e he
  · obtain ⟨msg, hmsg, hcarries⟩ := hrefines.sent packet hmem htype
    rw [hcarries.slice n] at he
    exact hall.sent msg hmsg k e he

/-! ### An insert, and a session of two daemons -/

/-- The addresses a session may know its peer by. -/
def Job.peers : Job D → Trace D → List SockAddr
  | .syncWithPeer _ peerAddr _, _ => [peerAddr]
  | .handleReqSyncConnection _ _, t => t.filterMap fun i =>
      match i with
      | .called _ (.getpeername _) (.ok addr) => some addr
      | _ => none
  | .merge _ _ _ _, _ => []
  | .insert _ _ _, _ => []

omit [DecidableEq ι] [BEq D] in
lemma Job.Peer.mem_peers {job : Job D} {t : Trace D} {addr : SockAddr} (h : job.Peer t addr) :
    addr ∈ job.peers t := by
  cases job with
  | syncWithPeer dataTypeName peerAddr errbub => exact List.mem_singleton.mpr h
  | handleReqSyncConnection pSocket errbub =>
      obtain ⟨m, fd, hmem⟩ := h
      exact List.mem_filterMap.mpr ⟨_, hmem, rfl⟩
  | merge dataTypeName stateSlice peerAddr errbub => exact h.elim
  | insert typeName jsonInput localInstanceAddr => exact h.elim

instance (host : Host) (n : ι) (addr : SockAddr) (sender : Sender ι) :
    Decidable (sender.Reaches host n addr) :=
  match sender with
  | .daemon _ => inferInstanceAs (Decidable (host.isLoopbackNet addr = false))
  | .commandLine n' => inferInstanceAs (Decidable (n' = n ∧ host.isLoopbackNet addr = true))

/-- Two hosts, on which the empty address is loopback. -/
def twoPlatforms (n : Bool) : Platform ℕ :=
  { samplePlatform (twoHosts n) with host := ⟨twoHosts n, List.isEmpty⟩ }

/-- The event can happen, in a run in which the daemons send and receive nothing but the
sample slice. -/
def Daemons.admitsSample (s : Daemons Bool ℕ) (n : Bool) : DaemonEvent ℕ → Bool
  | .spawn _ (.syncWithPeer _ _ _) | .spawn _ (.handleReqSyncConnection _ _) => true
  | .sync (.bleach _ _ _) => true
  | .advance answer =>
      match (s.pool n).nextMark (.advance answer : DaemonEvent ℕ) with
      | some (.messageOut _ _) =>
          (s.pool n).mem.shared.mStates[bytes "A"]?.map Std.ExtTreeMap.toList
            = some sampleSlice.toList
      | some (.messageIn typeName data) =>
          ((s.pool n).running.bind (s.pool n).tasks).all fun task =>
            (task.job.peers task.trace).all fun addr => s.sent.any fun packet =>
              packet.typeName = typeName && packet.data = data &&
                packet.sender.Reaches (twoPlatforms n).host n addr
      | _ => true
  | _ => false

def Daemons.admitsSamples : Daemons Bool ℕ → List (Bool × DaemonEvent ℕ) → Bool
  | _, [] => true
  | s, ev :: evs => s.admitsSample ev.1 ev.2 &&
      admitsSamples (s.step twoPlatforms twoDocuments (.daemon ev.1 ev.2)) evs

lemma readable_sample (n : Bool) : Readable twoPlatforms n sampleSlice := by
  intro m
  have htext : (twoPlatforms n).fromStateSlice sampleSlice = sampleText := by
    cases n <;> decide +kernel
  rw [htext]
  exact if_pos rfl

lemma admits_of_admitsSample {s : Daemons Bool ℕ} {n : Bool} {ev : DaemonEvent ℕ}
    (h : s.admitsSample n ev) : s.DaemonAdmits twoPlatforms twoDocuments (bytes "A") n ev := by
  cases ev with
  | spawn i job =>
      refine ⟨?_, by rintro op ⟨⟩, by rintro data state ⟨⟩, by rintro i task data addr - ⟨⟩⟩
      rintro i job ⟨⟩
      cases job with
      | syncWithPeer dataTypeName peerAddr errbub => trivial
      | handleReqSyncConnection pSocket errbub => trivial
      | merge dataTypeName stateSlice peerAddr errbub => cases h
      | insert typeName jsonInput localInstanceAddr => cases h
  | advance answer =>
      refine ⟨by rintro i job ⟨⟩, by rintro op ⟨⟩, ?_, ?_⟩
      · intro data state hmark hstate
        rw [Daemons.admitsSample, hmark] at h
        simp only [hstate, Option.map_some, decide_eq_true_eq, Option.some_inj] at h
        rw [Std.ExtTreeMap.toList_inj.mp h]
        exact readable_sample n
      · intro i task data addr hruns hmark hpeer
        rw [Daemons.admitsSample, hmark] at h
        simp only [hruns.running, Option.bind_some, hruns.task, Option.all_some] at h
        obtain ⟨packet, hmem, hpacket⟩ :=
          List.any_eq_true.mp (List.all_eq_true.mp h addr hpeer.mem_peers)
        simp only [Bool.and_eq_true, decide_eq_true_eq] at hpacket
        exact ⟨packet, hmem, hpacket.1.1, hpacket.1.2, hpacket.2⟩
  | sync op =>
      refine ⟨by rintro i job ⟨⟩, ?_, by rintro data state ⟨⟩, by rintro i task data addr - ⟨⟩⟩
      rintro op ⟨⟩
      cases op with
      | bleach typeName times errbub => exact id
      | _ => cases h
  | resume i => cases h

lemma admitted_of_admitsSamples {s : Daemons Bool ℕ} {evs : List (Bool × DaemonEvent ℕ)}
    (h : s.admitsSamples evs) :
    s.Admitted twoPlatforms twoDocuments (bytes "A") (evs.map fun ev => .daemon ev.1 ev.2) := by
  induction evs generalizing s with
  | nil => exact fun pre ev hpre => absurd (List.prefix_nil.mp hpre) (by simp)
  | cons ev evs ih =>
      obtain ⟨hev, hevs⟩ := Bool.and_eq_true_iff.mp h
      exact admitted_cons.mpr ⟨admits_of_admitsSample hev, ih hevs⟩

/-- Steps of the coroutine that runs, whose peer has the given address and sends the given
bytes. -/
def receiving (n : Bool) (peer : SockAddr) (chunks : List (ℕ × StdString)) :
    List (Bool × DaemonEvent ℕ) :=
  chunks.flatMap fun chunk => List.replicate chunk.1 ⟨n, .advance fun c =>
    match c with
    | .getpeername _ => .ok peer
    | .recv _ len => .ok ⟨chunk.2.take len, List.length_take_le _ _⟩
    | c => quietAnswer c⟩

/-- With this configuration an insert of `1` under `k` makes the sample slice. -/
def briefConf : DataTypeConf := ⟨bytes "A", bytes "c", 3, 5⟩

/-- The frame of the sample slice, field by field. -/
def sampleFrame (lastRead : ℕ) : List (ℕ × StdString) :=
  [(4, [1]), (2, bytes "A"), (2, [0, 0, 0, 95]), (lastRead, sampleText)]

/-- The daemon of `a` serves an insert, asks `b`, which answers, and bleaches. -/
def exchangeSessions : List (Bool × DaemonEvent ℕ) :=
  ⟨true, .spawn 0 (.handleReqSyncConnection 0 .storage)⟩ ::
    receiving true [] ([(4, [0, 0, 0, 1]), (5, [1, 0, 0, 0])] ++ sampleFrame 2 ++
      [(38, [0, 0, 0, 101])]) ++
  ⟨true, .spawn 1 (.syncWithPeer (bytes "A") (bytes "b") .storage)⟩ ::
    receiving true [] [(29, [0, 0, 0, 1])] ++
  ⟨false, .spawn 0 (.handleReqSyncConnection 0 .storage)⟩ ::
    receiving false (bytes "a") ([(4, [0, 0, 0, 1]), (5, [1, 0, 0, 0])] ++ sampleFrame 21) ++
  receiving true [] ((2, [0, 0, 0, 101]) :: sampleFrame 22) ++
  [⟨true, .sync (.bleach (bytes "A") 4 .storage)⟩]

/-- The insert of a command line on the host of `a`, and the sessions. -/
def exchange : List (DaemonsEvent Bool ℕ) :=
  .commandLine true (.insert (some [(bytes "k", 1)])) briefConf (bytes "A") sampleText ::
    exchangeSessions.map fun ev => .daemon ev.1 ev.2

lemma insertSlice_sample :
    insertSlice briefConf (twoHosts true) [(bytes "k", (1 : ℕ))] = sampleSlice := by
  have hkey : cString (bytes "k") = bytes "k" := by decide +kernel
  have hauthor : twoHosts true = bytes "a" := by decide +kernel
  rw [insertSlice, List.foldl_cons, List.foldl_nil, hkey, hauthor]
  rfl

lemma commandLineSends_sample :
    CommandLineSends (twoPlatforms true) (.insert (some [(bytes "k", 1)])) briefConf (bytes "A")
      sampleText := by
  let m : Process ℕ :=
    { shared := (⟨∅, ∅, false⟩ : SharedState ℕ).reloaded
        ((∅ : OrdMap StdString DataTypeConf).insert (bytes "A") briefConf) }
  have hconf : m.shared.mTypeConf[bytes "A"]? = some briefConf :=
    Std.ExtTreeMap.getElem?_insert_self
  refine ⟨StdString, readySocket, serverStream [], m, fun _ => [], [], ?_, hconf,
    readySocket_alone trivial _ _ _, ?_⟩
  · refine (reloaded_getElem? _ _ _).trans ?_
    rw [Std.ExtTreeMap.getElem?_insert_self]
    rfl
  · decide +kernel

lemma exchange_admitted :
    (Daemons.start fun _ => sampleProcess ∅).Admitted twoPlatforms twoDocuments (bytes "A")
      exchange := by
  refine admitted_cons.mpr ⟨fun _ => ⟨commandLineSends_sample, ?_⟩,
    admitted_of_admitsSamples (by decide +kernel)⟩
  have hslice : insertSlice briefConf (twoPlatforms true).host.authorPlaceOlder
      [(bytes "k", (1 : ℕ))] = sampleSlice := insertSlice_sample
  rw [ClientOp.members, hslice]
  exact readable_sample true

theorem daemons_refine_exchange :
    ∃ nevs : List (DataTypeConf × Event Bool ℕ),
      Matches twoPlatforms (bytes "A")
        (run (Daemons.step twoPlatforms twoDocuments) (Daemons.start fun _ => sampleProcess ∅)
          exchange)
        (run (Network.stepWith (hostnames twoPlatforms)) ⟨fun _ => ∅, []⟩ nevs) ∧
      (nevs.filter fun ev => ev.2.isLocal) = (Daemons.start fun _ => sampleProcess ∅).locals
        twoPlatforms twoDocuments (bytes "A") exchange :=
  daemons_refine twoPlatforms twoDocuments (bytes "A") (fun _ => sampleProcess ∅) (fun _ => ∅)
    (fun _ => Std.ExtTreeMap.getElem?_insert_self) exchange exchange_admitted

/-- The daemon of `b` holds the entry that was published on `a`. -/
theorem daemons_provenance_exchange :
    ∃ tState : StateMap ℕ, ((run (Daemons.step twoPlatforms twoDocuments)
        (Daemons.start fun _ => sampleProcess ∅) exchange).pool
          false).mem.shared.mStates[bytes "A"]? = some tState ∧
      tState[bytes "k"]? = some ⟨bytes "a", 9, 1⟩ ∧
      PublishedBy twoPlatforms (bytes "A") exchange (bytes "k") ⟨bytes "a", 9, 1⟩ := by
  have hentry : (((run (Daemons.step twoPlatforms twoDocuments)
      (Daemons.start fun _ => sampleProcess ∅) exchange).pool
        false).mem.shared.mStates[bytes "A"]?.bind fun tState => tState[bytes "k"]?)
      = some ⟨bytes "a", 9, 1⟩ := by decide +kernel
  obtain ⟨tState, hstate, he⟩ := Option.bind_eq_some_iff.mp hentry
  refine ⟨tState, hstate, he, (daemons_provenance twoPlatforms twoDocuments (bytes "A")
    (fun _ => sampleProcess ∅) (fun _ => Std.ExtTreeMap.getElem?_insert_self) exchange
    exchange_admitted ?_).1 false tState _ _ hstate he⟩
  intro n op conf data hmem
  rcases List.mem_cons.mp hmem with heq | hmem
  · obtain ⟨-, -, rfl, -⟩ := DaemonsEvent.commandLine.inj heq
    decide
  · obtain ⟨_, -, ⟨⟩⟩ := List.mem_map.mp hmem

end SharedStateAsync
