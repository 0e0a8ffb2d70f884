/-
The reference a client session holds while it connects.

`SharedState::syncWithPeer` takes a reference to the state of its type, connects,
shakes hands, and only then reads the state to build its request. At every point
where it gives way in between, `bleachDataLoop` may reload the configuration, and a
reload erases the states of the types that are no longer in the file.

* `Unrequested`, `HoldsState`: before its request a session has always found the
  type there;
* `syncWithPeer_holdsState`: so it is if the others do not erase it;
* `Connecting`, `ReferencesHold`: while a session waits that has not built its
  request its type is there, and no session reads a state that is gone;
* `SyncOp.Drops`, `references_hold`: this holds in every interleaving in which no
  reload drops the type of such a session.
-/
import SharedStateAsync.Config.Race
import SharedStateAsync.Daemon.Jobs

namespace SharedStateAsync

open Coro Machine ByteOrder

variable {D : Type}

/-! ### One session -/

/-- The type has a state. -/
abbrev Process.Has (m : Process D) (typeName : StdString) : Prop :=
  m.shared.mStates[typeName]?.isSome

/-- The session has not built its request. -/
def Unrequested (t : Trace D) : Prop := ∀ typeName data, .messageOut typeName data ∉ marks t

/-- Before the request the type is there at every call and around every wait, and the
state is not read when it is gone. -/
def HoldsState (typeName : StdString) : Rely SysCall Ans (Process D) Mark
  | t, .called m _ _ => Unrequested t → m.Has typeName
  | t, .resumed m m' => Unrequested t → m.Has typeName ∧ m'.Has typeName
  | _, .marked e => e ≠ .danglingState typeName

/-- While the session waits, before its request, the others do not erase the type. -/
def KeptByOthers (typeName : StdString) : Rely SysCall Ans (Process D) Mark
  | t, .resumed m m' => Unrequested t → m.Has typeName → m'.Has typeName
  | _, _ => True

section Session

variable {typeName : StdString} {m : Process D} {t : Trace D}

lemma Unrequested.concat (h : Unrequested t) {i : Step D}
    (hi : ∀ t' data, i ≠ .marked (.messageOut t' data)) : Unrequested (t ++ [i]) := by
  intro t' data hmem
  rcases List.mem_append.mp (mem_marks.mp hmem) with hmem | hmem
  · exact h t' data (mem_marks.mpr hmem)
  · exact hi t' data (List.mem_singleton.mp hmem).symm

lemma Unrequested.of_concat {i : Step D} (h : Unrequested (t ++ [i])) : Unrequested t := by
  intro t' data hmem
  refine h t' data ?_
  rw [marks_append]
  exact List.mem_append_left _ hmem

/-- A session before its request: its type is there. -/
structure BeforeRequest (typeName : StdString) (m : Process D) (t : Trace D) : Prop where
  has : m.Has typeName
  unrequested : Unrequested t
  holds : Meets (HoldsState typeName) [] t

/-- A session after its request. -/
structure AfterRequest (typeName : StdString) (t : Trace D) : Prop where
  requested : ¬ Unrequested t
  holds : Meets (HoldsState typeName) [] t

lemma BeforeRequest.concat (h : BeforeRequest typeName m t) {m' : Process D} {i : Step D}
    (hm' : m'.Has typeName) (hi : ∀ t' data, i ≠ .marked (.messageOut t' data))
    (hstep : HoldsState typeName t i) : BeforeRequest typeName m' (t ++ [i]) :=
  ⟨hm', h.unrequested.concat hi, meets_append.mpr ⟨h.holds, hstep, trivial⟩⟩

lemma BeforeRequest.request (h : BeforeRequest typeName m t) {data : StdString} :
    AfterRequest typeName (t ++ [.marked (.messageOut typeName data)]) := by
  refine ⟨fun hun => hun typeName data ?_, meets_append.mpr ⟨h.holds, by rintro ⟨⟩, trivial⟩⟩
  rw [marks_append]
  exact List.mem_append_right _ (List.mem_singleton_self _)

/-- After the request nothing is asked of the memory. -/
lemma AfterRequest.concat (h : AfterRequest typeName t) {i : Step D}
    (hi : i ≠ .marked (.danglingState typeName)) : AfterRequest typeName (t ++ [i]) := by
  refine ⟨fun hun => h.requested hun.of_concat, meets_append.mpr ⟨h.holds, ?_, trivial⟩⟩
  cases i with
  | called m c a => exact fun hun => absurd hun h.requested
  | resumed m m' => exact fun hun => absurd hun h.requested
  | marked e => exact fun he => hi (congrArg _ he)

lemma framed_beforeRequest :
    Framed (KeptByOthers typeName) (fun _ t => Meets (HoldsState typeName) [] t)
      (BeforeRequest (D := D) typeName) where
  called := fun m t c a h _ => h.concat h.has (by rintro t' data ⟨⟩) fun _ => h.has
  resumed := fun m m' t h hR =>
    h.concat (hR h.unrequested h.has) (by rintro t' data ⟨⟩)
      fun _ => ⟨h.has, hR h.unrequested h.has⟩
  marked := fun m t e he h =>
    h.concat h.has (by rintro t' data ⟨⟩; cases he) (by rintro rfl; cases he)
  written := fun m m' t hm h => by
    refine ⟨?_, h.unrequested, h.holds⟩
    rw [Process.Has, show m'.shared = m.shared from hm]
    exact h.has
  exited := fun _ _ h => h.holds

lemma framed_afterRequest {R : Rely SysCall Ans (Process D) Mark} :
    Framed R (fun _ t => Meets (HoldsState typeName) [] t) fun _ => AfterRequest typeName :=
  framed_of_trace (fun t i hi h => h.concat (by rintro rfl; cases hi)) fun _ h => h.holds

variable [BEq D] {P : Platform D} {peerAddr : SockAddr} {errbub : ErrBub}

lemma mergeSlice_afterRequest {R : Rely SysCall Ans (Process D) Mark} {t' : StdString}
    {stateSlice : StateMap D} (h : AfterRequest typeName t) :
    wp R (fun _ t => Meets (HoldsState typeName) [] t)
      (mergeSlice P t' stateSlice peerAddr errbub) (fun _ _ => AfterRequest typeName) m t := by
  refine wp_mergeSlice (fun changes shared _ => ?_) (fun c _ _ => ?_) (fun c _ => ?_)
    fun _ changes => ?_
  · exact h.concat (by rintro ⟨⟩)
  · exact h.holds
  · exact h.concat (by rintro ⟨⟩)
  · exact (h.concat (by rintro ⟨⟩)).concat (by rintro ⟨⟩)

/-- **A session whose type is not erased while it waits** finds it at every call, around
every wait, and when it reads its state. -/
theorem syncWithPeer_holdsState (m : Process D) :
    wp (KeptByOthers typeName) (fun _ t => Meets (HoldsState typeName) [] t)
      (syncWithPeer P typeName peerAddr errbub)
      (fun _ _ t => Meets (HoldsState typeName) [] t) m [] := by
  by_cases hhas : m.Has typeName
  · let phases : ClientPhases P typeName peerAddr errbub (KeptByOthers typeName)
        (fun _ t => Meets (HoldsState typeName) [] t)
        (fun _ t => Meets (HoldsState typeName) [] t) := {
      idle := BeforeRequest typeName
      asked := fun _ => AfterRequest typeName
      refused := fun _ => AfterRequest typeName
      merged := fun _ _ _ => AfterRequest typeName
      notified := fun _ _ => AfterRequest typeName
      framed_idle := framed_beforeRequest
      framed_asked := framed_afterRequest
      framed_refused := framed_afterRequest
      framed_merged := fun _ _ => framed_afterRequest
      framed_notified := fun _ => framed_afterRequest
      request := by
        intro m t h
        obtain ⟨tState, htState⟩ := Option.isSome_iff_exists.mp h.has
        rw [afterReference, htState]
        exact h.request
      merge := fun t' data m t tick h _ =>
        wp_mono (mergeSlice_afterRequest ((h.concat (by rintro ⟨⟩)).concat (by rintro ⟨⟩)))
          fun _ _ _ h' => Or.inr h'
      notify := fun t' _ m t h _ _ => h.concat (by rintro ⟨⟩)
      done_idle := fun _ _ h => h.holds
      done_asked := fun _ _ h => h.holds
      done_refused := fun _ _ h => h.holds
      done_merged := fun _ _ _ _ h => h.holds
      done_notified := fun _ _ _ h => h.holds }
    exact phases.wp_syncWithPeer ⟨hhas, by rintro t' data ⟨⟩, trivial⟩
  · -- there is no reference to take, and the session ends at once
    have hcontains : (!m.shared.mStates.contains typeName) = true := by
      rw [Std.ExtTreeMap.contains_eq_isSome_getElem?, Bool.not_eq_true', ← Bool.not_eq_true]
      exact hhas
    rw [syncWithPeer, wp_bind, wp_memory, if_pos hcontains]
    cases errbub with
    | null => trivial
    | storage => exact ⟨by rintro ⟨⟩, trivial⟩

end Session

/-! ### All sessions of a process -/

/-- The coroutines of a daemon. -/
abbrev DaemonPool (D : Type) : Type := Pool SysCall Ans (Process D) Mark (Job D)

/-- What can happen to them. -/
abbrev DaemonEvent (D : Type) : Type := PoolEvent SysCall Ans (Job D) SyncOp

/-- A session of the type waits that has not built its request. -/
def Connecting (p : DaemonPool D) (typeName : StdString) : Prop :=
  ∃ i task peerAddr errbub, p.tasks i = some task ∧ p.running ≠ some i ∧
    task.job = .syncWithPeer typeName peerAddr errbub ∧ Unrequested task.trace

/-- While a session waits that has not built its request its type is there, and no
session has read a state that is gone. -/
structure ReferencesHold (p : DaemonPool D) : Prop where
  held : ∀ typeName, Connecting p typeName → p.mem.Has typeName
  read : ∀ i task typeName peerAddr errbub, p.tasks i = some task →
    task.job = .syncWithPeer typeName peerAddr errbub →
    .danglingState typeName ∉ marks task.trace

/-- The text parses to a configuration without the type. -/
def ConfJson.Lacks (json : ConfJson) (typeName : StdString) (file : Option StdString) : Prop :=
  ∃ text conf mOk, file = some text ∧ json.load text = some (conf, mOk) ∧
    (conf[typeName]? : Option DataTypeConf) = none

/-- The function reads a configuration without the type. -/
def SyncOp.Drops (json : ConfJson) (typeName : StdString) : SyncOp → Prop
  | .loadRegisteredTypes _ file _ => json.Lacks typeName file
  | .registerDataType dir _ _ _ _ _ => json.Lacks typeName dir.content
  | .bleach _ _ _ => False

section Functions

variable {json : ConfJson} {typeName : StdString} {s s' : SharedState D}

/-- A reload keeps a type that is in the file. -/
lemma reloaded_has {text : StdString} {mTypeConf : OrdMap StdString DataTypeConf} {mOk : Bool}
    (htext : json.load text = some (mTypeConf, mOk)) (hfile : ¬ json.Lacks typeName (some text)) :
    (s.reloaded mTypeConf).mStates[typeName]?.isSome := by
  rw [reloaded_getElem?, Option.isSome_map]
  cases hconf : mTypeConf[typeName]? with
  | none => exact absurd ⟨text, mTypeConf, mOk, rfl, htext, hconf⟩ hfile
  | some conf => rfl

lemma afterRegister_has {dir : ConfDir} {t typeScope : StdString} {updateInterval TTL : ℤ}
    (hfile : ¬ json.Lacks typeName dir.content) (hs : s.mStates[typeName]?.isSome) :
    (s.afterRegister json dir t typeScope updateInterval TTL).mStates[typeName]?.isSome := by
  obtain ⟨s₁, hs₁, hafter⟩ := afterRegister_cases json dir s t typeScope updateInterval TTL
  have h₁ : s₁.mStates[typeName]?.isSome := by
    rcases hs₁ with rfl | ⟨text, mTypeConf, mOk, hcontent, htext, rfl⟩
    · exact hs
    · rw [hcontent] at hfile
      exact reloaded_has htext hfile
  rcases hafter with hafter | ⟨conf, hafter⟩
  · rw [hafter]
    exact h₁
  · rw [hafter]
    exact h₁

lemma setState_isSome {t : StdString} {tState : StateMap D} (hs : s.mStates[typeName]?.isSome) :
    (s.setState t tState).mStates[typeName]?.isSome := by
  rw [SharedState.setState_getElem?]
  split_ifs
  · rfl
  · exact hs

/-- **A function that does not read a configuration without the type** does not erase
it. -/
theorem SyncOp.onShared_has {op : SyncOp} (hop : ¬ op.Drops json typeName)
    (hs : s.mStates[typeName]?.isSome) (h : op.onShared json s = some s') :
    s'.mStates[typeName]?.isSome := by
  rcases op.onShared_cases h with rfl | ⟨errno, text, errbub, mTypeConf, mOk, rfl, htext, rfl⟩ |
    ⟨dir, t, typeScope, updateInterval, TTL, errbub, rfl, rfl⟩ | ⟨dataTypeName, tState, -, rfl⟩
  · exact hs
  · exact reloaded_has htext hop
  · exact afterRegister_has hop hs
  · exact setState_isSome hs

end Functions

/-! ### Interleavings -/

section Interleavings

variable [BEq D] {P : Platform D} {json : ConfJson} {p : DaemonPool D}

/-- The coroutines never erase a type. -/
def KeepsTypes (m m' : Process D) : Prop := ∀ typeName, m.Has typeName → m'.Has typeName

omit [BEq D] in
lemma insertMembers_isSome {s : SharedState D} {typeName : StdString}
    (hs : s.mStates[typeName]?.isSome) (authorPlaceOlder t : StdString)
    (members : List (StdString × D)) :
    (s.insertMembers authorPlaceOlder t members).mStates[typeName]?.isSome := by
  induction members using List.reverseRecOn with
  | nil => exact hs
  | append_singleton members member ih =>
      rw [SharedState.insertMembers, List.foldl_append]
      rw [SharedState.insertMembers] at ih
      simp only [List.foldl_cons, List.foldl_nil, SharedState.insertMember]
      rw [OrdMap.getElem?_insert_eq]
      split_ifs
      · rfl
      · exact ih

lemma jobWrites_keepsTypes : JobWrites P KeepsTypes where
  keepsShared := fun m m' hm typeName h => by
    rw [Process.Has, show m'.shared = m.shared from hm]
    exact h
  merge := fun m t stateSlice peerAddr changes s hmerge typeName h => by
    obtain ⟨-, tState, rfl⟩ := SharedState.merge_ok hmerge
    exact setState_isSome h
  insert := fun m t members _ typeName h => insertMembers_isSome h _ t members

/-- What a coroutine may ask of the others. -/
def Job.rely : Job D → Rely SysCall Ans (Process D) Mark
  | .syncWithPeer typeName _ _ => KeptByOthers typeName
  | _ => fun _ _ => True

/-- What is known of its record in return. -/
def Job.record : Job D → Trace D → Prop
  | .syncWithPeer typeName _ _ => Meets (HoldsState typeName) []
  | _ => fun _ => True

omit [BEq D] in
lemma Job.rely_called (job : Job D) (t : Trace D) (m : Process D) (c : SysCall) (a : Ans c) :
    job.rely t (.called m c a) := by
  cases job with
  | syncWithPeer typeName peerAddr errbub => trivial
  | _ => trivial

omit [BEq D] in
lemma Job.rely_resumed_self (job : Job D) (t : Trace D) (m : Process D) :
    job.rely t (.resumed m m) := by
  cases job with
  | syncWithPeer typeName peerAddr errbub => exact fun _ h => h
  | _ => trivial

omit [BEq D] in
lemma Job.record_of_concat (job : Job D) (t : Trace D) (i : Step D)
    (h : job.record (t ++ [i])) : job.record t := by
  cases job with
  | syncWithPeer typeName peerAddr errbub => exact (meets_append.mp h).1
  | _ => trivial

/-- All coroutines of the pool keep to their record as long as the others keep to what
they rely on. -/
def recordInvariant (D : Type) :
    TaskInvariant SysCall Ans (Process D) Mark (Job D) fun job t m m' =>
      job.rely t (.resumed m m') :=
  wpInvariant Job.rely (fun job _ => job.record) Job.rely_called

lemma body_record (job : Job D) (m : Process D) :
    wp job.rely (fun _ => job.record) (job.body P) (fun _ _ => job.record) m [] := by
  cases job with
  | syncWithPeer typeName peerAddr errbub =>
      rw [Job.body, wp_bind]
      exact wp_mono (syncWithPeer_holdsState m) fun _ _ _ h => h
  | _ => exact wp_true _

omit [BEq D] in
/-- What is known of a coroutine's record, whether it runs or waits. -/
lemma recordInvariant_record (h : (recordInvariant D).Holds p) {i : ℕ}
    {task : Task SysCall Ans (Process D) Mark (Job D)} (htask : p.tasks i = some task) :
    task.job.record task.trace ∧ (p.running ≠ some i →
      task.job.record (task.trace ++ [.resumed task.left task.left])) := by
  have hpartial : ∀ {m : Process D} {t : Trace D},
      wp task.job.rely (fun _ => task.job.record) task.code (fun _ _ => task.job.record) m t →
      task.job.record t :=
    wp_partial (task.job.record_of_concat)
      (fun t m c => ⟨quietAnswer c, task.job.rely_called t m c _⟩)
      fun t m => ⟨m, task.job.rely_resumed_self t m⟩
  have hwaits : p.running ≠ some i →
      task.job.record (task.trace ++ [.resumed task.left task.left]) := fun hne =>
    hpartial ((h i task htask).2 hne task.left (task.job.rely_resumed_self _ _))
  refine ⟨?_, hwaits⟩
  by_cases hrunning : p.running = some i
  · exact hpartial ((h i task htask).1 hrunning)
  · exact task.job.record_of_concat _ _ (hwaits hrunning)

/-- The invariant of the interleavings: the coroutines erase no types, keep to their
records, and the types of the sessions that connect are there. -/
structure PoolInvariant (p : DaemonPool D) : Prop where
  writes : (writesInvariant KeepsTypes).Holds p
  records : (recordInvariant D).Holds p
  held : ∀ typeName, Connecting p typeName → p.mem.Has typeName

omit [BEq D] in
/-- A session that waits before its request left its type there. -/
lemma PoolInvariant.left_has (h : (recordInvariant D).Holds p) {i : ℕ}
    {task : Task SysCall Ans (Process D) Mark (Job D)} {typeName : StdString}
    {peerAddr : SockAddr} {errbub : ErrBub} (htask : p.tasks i = some task)
    (hwaits : p.running ≠ some i) (hjob : task.job = .syncWithPeer typeName peerAddr errbub)
    (hun : Unrequested task.trace) : task.left.Has typeName := by
  have hrecord := (recordInvariant_record h htask).2 hwaits
  rw [hjob] at hrecord
  exact ((meets_singleton.mp (meets_append.mp hrecord).2) hun).1

/-- A step keeps what is known of the records: a session that runs again finds its type
there. -/
lemma PoolInvariant.records_step (h : PoolInvariant p) (P : Platform D) (json : ConfJson)
    (ev : DaemonEvent D) :
    (recordInvariant D).Holds (p.step (Job.body P) (SyncOp.effect json) ev) := by
  refine h.records.step (fun i job _ => body_record job p.mem) fun i task _ hrunning htask => ?_
  cases hjob : task.job with
  | syncWithPeer typeName peerAddr errbub =>
      intro hun _
      exact h.held typeName ⟨i, task, peerAddr, errbub, htask, by rw [hrunning]; nofun, hjob, hun⟩
  | _ => trivial

/-- **A step of the interleaving** that is no reload without the type of a session that
connects. -/
theorem PoolInvariant.step (h : PoolInvariant p) {ev : DaemonEvent D}
    (hev : ∀ op, ev = .sync op → ∀ typeName, Connecting p typeName → ¬ op.Drops json typeName) :
    PoolInvariant (p.step (Job.body P) (SyncOp.effect json) ev) := by
  have hwrites : (writesInvariant KeepsTypes).Holds
      (p.step (Job.body P) (SyncOp.effect json) ev) :=
    h.writes.step (fun i job _ => job_writes jobWrites_keepsTypes job p.mem)
      fun _ _ _ _ _ => trivial
  have hrecords := h.records_step P json ev
  refine ⟨hwrites, hrecords, ?_⟩
  rintro typeName ⟨i, task, peerAddr, errbub, htask, hwaits, hjob, hun⟩
  rcases Pool.step_waiting htask hwaits with ⟨htask', hwaits'⟩ | ⟨hleft, hmem⟩
  · -- it waited before, and the type was there
    have hconnecting : Connecting p typeName :=
      ⟨i, task, peerAddr, errbub, htask', hwaits', hjob, hun⟩
    have hhas := h.held typeName hconnecting
    rcases h.writes.step_mem (Job.body P) (SyncOp.effect json) ev with hsame | hkeeps |
      ⟨op, hop, heff⟩
    · rw [hsame]
      exact hhas
    · exact hkeeps typeName hhas
    · obtain ⟨s', hs', hmem'⟩ := Option.map_eq_some_iff.mp heff
      rw [← hmem']
      exact SyncOp.onShared_has (hev op hop typeName hconnecting) hhas hs'
  · -- it has just given way, and left the type there
    rw [hmem, ← hleft]
    exact PoolInvariant.left_has hrecords htask hwaits hjob hun

omit [BEq D] in
lemma PoolInvariant.referencesHold (h : PoolInvariant p) : ReferencesHold p := by
  refine ⟨h.held, ?_⟩
  intro i task typeName peerAddr errbub htask hjob hmem
  have hrecord := (recordInvariant_record h.records htask).1
  rw [hjob] at hrecord
  obtain ⟨t, ht⟩ := Meets.exists_of_mem hrecord (mem_marks.mp hmem)
  exact ht rfl

/-- **The reference of a session.** In every interleaving, at their suspension points, of
sessions with reloads of any files, bleaches, merges and inserts: as long as no reload
that comes while a session waits that has not built its request reads a configuration
without its type, the type of every such session is there all the time, and no session
reads a state that is gone. -/
theorem references_hold (P : Platform D) (json : ConfJson) (m : Process D)
    (evs : List (DaemonEvent D))
    (hevs : ∀ pre op, pre ++ [.sync op] <+: evs → ∀ typeName,
      Connecting (run (Pool.step (Job.body P) (SyncOp.effect json)) { mem := m } pre) typeName →
      ¬ op.Drops json typeName) :
    Throughout (Pool.step (Job.body P) (SyncOp.effect json)) ReferencesHold
      ({ mem := m } : DaemonPool D) evs := by
  have hinvariant : ∀ pre, pre <+: evs → PoolInvariant
      (run (Pool.step (Job.body P) (SyncOp.effect json)) ({ mem := m } : DaemonPool D) pre) := by
    refine run_induction ⟨?_, ?_, ?_⟩ fun pre ev hpre h => ?_
    · exact TaskInvariant.holds_of_none fun _ => rfl
    · exact TaskInvariant.holds_of_none fun _ => rfl
    · rintro typeName ⟨i, task, -, -, htask, -⟩
      cases htask
    · rw [run_concat]
      refine h.step fun op hop => ?_
      subst hop
      exact hevs pre op hpre
  exact fun pre hpre => (hinvariant pre hpre).referencesHold

end Interleavings

/-! ### A reload while a session connects -/

/-- The system while a connection is under way. -/
def connectPending : (c : SysCall) → Ans c
  | .connect _ _ => .error .einprogress
  | c => quietAnswer c

/-- The system once the server has answered the handshake. -/
def handShakeAnswered : (c : SysCall) → Ans c
  | .recv _ len => .ok ⟨(toBytes WIRE_PROTO_VERSION).take len, List.length_take_le _ _⟩
  | c => quietAnswer c

/-- A session of `t` that waits for its connection while the file is reloaded, and goes
on to its request. -/
def reloadWhileConnecting (file : StdString) : List (DaemonEvent ℕ) :=
  .spawn 0 (.syncWithPeer (bytes "t") [] .storage) ::
    (List.replicate 12 (.advance connectPending) ++
      [.sync (.loadRegisteredTypes (.other 0) (some file) .null), .resume 0] ++
      List.replicate 12 (.advance handShakeAnswered))

/-- The daemon of `oneType` after these events. -/
abbrev afterReload (evs : List (DaemonEvent ℕ)) : DaemonPool ℕ :=
  run (Pool.step (Job.body (samplePlatform (bytes "a"))) (SyncOp.effect twoDocuments))
    { mem := { shared := oneTypeDaemon } } evs

lemma spawn_mem_reload {file : StdString} {i : ℕ} {job : Job ℕ}
    (h : .spawn i job ∈ reloadWhileConnecting file) :
    job = .syncWithPeer (bytes "t") [] .storage := by
  have h' : i = 0 ∧ job = .syncWithPeer (bytes "t") [] .storage := by
    simpa [reloadWhileConnecting, List.mem_replicate] using h
  exact h'.2

lemma sync_mem_reload {file : StdString} {op : SyncOp}
    (h : .sync op ∈ reloadWhileConnecting file) :
    op = .loadRegisteredTypes (.other 0) (some file) .null := by
  simpa [reloadWhileConnecting, List.mem_replicate] using h

/-- A reload of a file that still has the type. -/
theorem references_hold_reload :
    Throughout (Pool.step (Job.body (samplePlatform (bytes "a"))) (SyncOp.effect twoDocuments))
      ReferencesHold ({ mem := { shared := oneTypeDaemon } } : DaemonPool ℕ)
      (reloadWhileConnecting oneTypeDocument) := by
  refine references_hold (samplePlatform (bytes "a")) twoDocuments _ _ ?_
  rintro pre op hpre typeName ⟨i, task, peerAddr, errbub, htask, -, hjob, -⟩
  have hspawn := spawn_mem_reload (((List.prefix_append _ _).trans hpre).subset
    (Pool.spawn_mem htask))
  rw [hjob] at hspawn
  obtain ⟨rfl, -, -⟩ := Job.syncWithPeer.inj hspawn
  rw [sync_mem_reload (hpre.subset (List.mem_append_right _ (List.mem_singleton_self _)))]
  rintro ⟨text, conf, mOk, htext, hconf, hnone⟩
  have hload := twoDocuments_faithful.load_print
  rw [twoDocuments_print, Option.some.inj htext, hconf] at hload
  obtain ⟨rfl, -⟩ := Prod.mk.inj (Option.some.inj hload)
  simp [oneType] at hnone

/-- A reload of a file without the type, while its session connects: the session then
reads the state through a reference to nothing. -/
theorem reference_dangles :
    let p := afterReload (reloadWhileConnecting emptyDocument)
    (∃ task, p.tasks 0 = some task ∧ .danglingState (bytes "t") ∈ marks task.trace) ∧
      ¬ ReferencesHold p := by
  intro p
  have hmarks : (p.tasks 0).map (fun task => marks task.trace)
      = some [.registered 0, .danglingState (bytes "t"), .messageOut (bytes "t") emptyText] := by
    decide +kernel
  obtain ⟨task, htask, htrace⟩ := Option.map_eq_some_iff.mp hmarks
  have hdangling : .danglingState (bytes "t") ∈ marks task.trace := by
    rw [htrace]
    simp
  refine ⟨⟨task, htask, hdangling⟩, fun hholds => ?_⟩
  exact hholds.read 0 task (bytes "t") [] .storage htask (spawn_mem_reload (Pool.spawn_mem htask))
    hdangling

end SharedStateAsync
