/-
The sessions as a sequence of phases.

A session changes the store at its merge and is otherwise transport, bookkeeping
and commands. What is to be shown of a whole session is therefore shown phase by
phase: each phase has an invariant that the transport, the other coroutines and
the commands keep, and a few steps lead from one phase to the next.

* `Mark.isMinor`: the marks that are no milestones of a session;
* `Framed`: an invariant that everything but the milestones keeps;
* `ClientStart`, `ClientStart.wp_syncWithPeer`: a client up to its merge;
* `ClientPhases`, `ClientPhases.wp_syncWithPeer`: the phases of a client;
* `ServerPhases`, `ServerPhases.wp_handleReqSyncConnection`: the phases of a
  server.
-/
import SharedStateAsync.Session.Handlers

namespace SharedStateAsync

open Coro

variable {D α : Type}

/-! ### Invariants of a phase -/

/-- The marks that are no milestones of a session. -/
def Mark.isMinor : Mark → Bool
  | .accepting | .bubbled _ | .requeued | .registered _ => true
  | _ => false

/-- The marks of an answer: a message came in, or a merge returned. -/
def Mark.isAnswer : Mark → Bool
  | .messageIn _ _ | .merged _ _ => true
  | _ => false

/-- Writes that leave the store alone. -/
def KeepsShared (m m' : Process D) : Prop := m'.shared = m.shared

/-- The invariant `J` is kept by every call, by the others, by minor marks and by
writes that leave the store alone, and is all that is asked where the process
ends. -/
structure Framed (R : Rely SysCall Ans (Process D) Mark) (X : Process D → Trace D → Prop)
    (J : Process D → Trace D → Prop) : Prop where
  called : ∀ m t c a, J m t → R t (.called m c a) → J m (t ++ [.called m c a])
  resumed : ∀ m m' t, J m t → R t (.resumed m m') → J m' (t ++ [.resumed m m'])
  marked : ∀ m t e, e.isMinor → J m t → J m (t ++ [.marked e])
  written : ∀ m m' t, KeepsShared m m' → J m t → J m' t
  exited : ∀ m t, J m t → X m t

/-- A step that is no milestone. -/
def Step.IsMinor : Step D → Prop
  | .called _ _ _ | .resumed _ _ => True
  | .marked e => e.isMinor

/-- An invariant of the record alone. -/
lemma framed_of_trace {R : Rely SysCall Ans (Process D) Mark} {T T' : Trace D → Prop}
    (hT : ∀ t i, Step.IsMinor i → T t → T (t ++ [i])) (hT' : ∀ t, T t → T' t) :
    Framed R (fun _ => T') fun _ => T where
  called := fun _ t _ _ h _ => hT t _ trivial h
  resumed := fun _ _ t h _ => hT t _ trivial h
  marked := fun _ t e he h => hT t (.marked e) he h
  written := fun _ _ _ _ h => h
  exited := fun _ t h => hT' t h

section Minor

lemma manages_minor :
    Manages (D := D) (fun _ => True) (fun e => e.isMinor) KeepsShared True where
  fcntlGetFl := fun _ => trivial
  fcntlSetFl := fun _ _ => trivial
  epollAdd := fun _ => trivial
  epollDel := fun _ => trivial
  close := fun _ => trivial
  bubbled := fun _ => rfl
  registered := fun _ => rfl
  register := fun _ _ => rfl
  release := fun _ _ _ => rfl
  exits := trivial

lemma runsCommands_minor :
    RunsCommands (D := D) (fun _ => True) (fun e => e.isMinor) KeepsShared True where
  toManages := manages_minor
  pipe := trivial
  fork := fun _ => trivial
  pidfdOpen := fun _ => trivial
  kill := fun _ => trivial
  waitpid := fun _ => trivial
  write := fun _ _ => trivial
  requeued := rfl
  setObject := fun _ _ _ => rfl

lemma talks_minor : Talks (fun _ => True) fun e => e.isMinor where
  recv := fun _ _ => trivial
  send := fun _ _ => trivial
  steadyClock := trivial
  bubbled := fun _ => rfl

lemma keepsStats_minor : KeepsStats (fun _ => True) fun e => e.isMinor where
  steadyClock := trivial
  openFile := fun _ => trivial
  flock := fun _ _ => trivial
  close := fun _ => trivial
  readFile := fun _ => trivial
  writeFile := fun _ _ => trivial
  bubbled := fun _ => rfl

end Minor

section Framed

variable {R : Rely SysCall Ans (Process D) Mark} {X : Process D → Trace D → Prop}
  {J J' : Process D → Trace D → Prop} {m : Process D} {t : Trace D} {errbub : ErrBub}

lemma Framed.exists {ι : Type} {J : ι → Process D → Trace D → Prop} (hJ : ∀ i, Framed R X (J i)) :
    Framed R X fun m t => ∃ i, J i m t where
  called := fun m t c a ⟨i, h⟩ hR => ⟨i, (hJ i).called m t c a h hR⟩
  resumed := fun m m' t ⟨i, h⟩ hR => ⟨i, (hJ i).resumed m m' t h hR⟩
  marked := fun m t e he ⟨i, h⟩ => ⟨i, (hJ i).marked m t e he h⟩
  written := fun m m' t hm ⟨i, h⟩ => ⟨i, (hJ i).written m m' t hm h⟩
  exited := fun m t ⟨i, h⟩ => (hJ i).exited m t h

lemma Framed.and_left {p : Prop} (hJ : Framed R X J) : Framed R X fun m t => p ∧ J m t where
  called := fun m t c a h hR => ⟨h.1, hJ.called m t c a h.2 hR⟩
  resumed := fun m m' t h hR => ⟨h.1, hJ.resumed m m' t h.2 hR⟩
  marked := fun m t e he h => ⟨h.1, hJ.marked m t e he h.2⟩
  written := fun m m' t hm h => ⟨h.1, hJ.written m m' t hm h.2⟩
  exited := fun m t h => hJ.exited m t h.2

/-- A coroutine without milestones keeps the invariant. -/
lemma Framed.wp {C : SysCall → Prop} {p : Io D α} (hJ : Framed R X J)
    (hp : p.Uses C (fun e => e.isMinor) KeepsShared True) (h : J m t) :
    wp R X p (fun _ => J) m t := by
  refine wp_of_uses hp ?_ ?_ ?_ ?_ (fun _ => hJ.exited) h
  · exact fun m t c a _ => hJ.called m t c a
  · exact hJ.resumed
  · exact hJ.marked
  · exact hJ.written

/-- Giving up: the socket is closed. -/
lemma Framed.wp_giveUp {Q : Process D → Trace D → Prop} {aFD : Option ObjId} {b : Bool}
    (hJ : Framed R X J) (hQ : ∀ m t, J m t → Q m t) (h : J m t) :
    Coro.wp R X (do let _ ← closeAFD aFD; pure b) (fun _ => Q) m t := by
  rw [wp_bind]
  refine wp_mono (hJ.wp (uses_closeAFD manages_minor aFD .null) h) fun _ m' t' h' => ?_
  exact (wp_pure _).mpr (hQ m' t' h')

/-- The common end of both sides' sessions: the socket is closed, the statistics
are kept, and the hooks are notified. -/
lemma Framed.wp_finish {Q : Process D → Trace D → Prop} {P : Platform D} {aFD : Option ObjId}
    {netStats : NetworkStats} {typeName : StdString} {changes : ℤ} (hJ : Framed R X J)
    (hJ' : Framed R X J')
    (hnotify : ∀ m t, J m t → m.shared.isPeer → 0 < changes →
      J' m (t ++ [.marked (.notifyHooks typeName)]))
    (hQ : ∀ m t, J m t → Q m t) (hQ' : ∀ m t, J' m t → Q m t) (h : J m t) :
    Coro.wp R X (do
      let _ ← closeAFD aFD
      let collected ← collectStat P netStats errbub
      if !collected then return false
      let m ← memory
      if m.shared.isPeer ∧ changes > 0 then notifyHooks P typeName errbub
      else return true) (fun _ => Q) m t := by
  rw [wp_bind]
  refine wp_mono (hJ.wp (uses_closeAFD manages_minor aFD .null) h) fun _ m₁ t₁ h₁ => ?_
  rw [wp_bind]
  refine wp_mono (hJ.wp (uses_collectStat keepsStats_minor P netStats fun _ => trivial) h₁)
    fun collected m₂ t₂ h₂ => ?_
  split_ifs
  · exact (wp_pure _).mpr (hQ m₂ t₂ h₂)
  rw [wp_bind, wp_memory]
  split_ifs with hpeer
  · obtain ⟨body, hbody, heq⟩ := notifyHooks_eq runsCommands_minor (fun _ => trivial)
      (fun _ => trivial) trivial P typeName errbub
    rw [heq, wp_bind, wp_event]
    exact wp_mono (hJ'.wp hbody (hnotify m₂ t₂ h₂ hpeer.1 hpeer.2)) fun _ => hQ'
  · exact (wp_pure _).mpr (hQ m₂ t₂ h₂)

end Framed

/-! ### The client -/

/-- The record once a client has read its state through the reference. -/
def afterReference (dataTypeName : StdString) (m : Process D) (t : Trace D) : Trace D :=
  match m.shared.mStates[dataTypeName]? with
  | some _ => t
  | none => t ++ [.marked (.danglingState dataTypeName)]

lemma wp_referencedState {R : Rely SysCall Ans (Process D) Mark}
    {X : Process D → Trace D → Prop} (dataTypeName : StdString)
    {Q : StateMap D → Process D → Trace D → Prop} {m : Process D} {t : Trace D} :
    wp R X (referencedState dataTypeName) Q m t ↔
      Q (m.shared.mStates[dataTypeName]?.getD ∅) m (afterReference dataTypeName m t) := by
  rw [referencedState, afterReference, wp_bind, wp_memory]
  cases m.shared.mStates[dataTypeName]? with
  | none => exact Iff.rfl
  | some tState => exact Iff.rfl

section Client

variable [BEq D]

/-- What a client does once its merge has returned. -/
def syncAfterMerge (P : Platform D) (aFD : Option ObjId) (netStats : NetworkStats)
    (typeName : StdString) (changes : ℤ) (errbub : ErrBub) : Io D Bool := do
  if changes = -1 then
    let _ ← closeAFD aFD
    return false
  let _ ← sysCall .steadyClock
  let _ ← closeAFD aFD
  let collected ← collectStat P netStats errbub
  if !collected then return false
  let m ← memory
  if m.shared.isPeer ∧ changes > 0 then notifyHooks P typeName errbub
  else return true

/-- The phases of a client before and after it has built its request, and what is shown of the
rest of its session. -/
structure ClientStart (P : Platform D) (dataTypeName : StdString) (peerAddr : SockAddr)
    (errbub : ErrBub) (R : Rely SysCall Ans (Process D) Mark) (X Q : Process D → Trace D → Prop)
    where
  idle : Process D → Trace D → Prop
  asked : Process D → Trace D → Prop
  framed_idle : Framed R X idle
  framed_asked : Framed R X asked
  request : ∀ m t, idle m t → asked m (afterReference dataTypeName m t
    ++ [.marked (.messageOut dataTypeName
      (P.fromStateSlice (m.shared.mStates[dataTypeName]?.getD ∅)))])
  /-- From the answer to the merge the session does not give way. -/
  merge : ∀ typeName data m t tick, asked m t →
    R (t ++ [.marked (.messageIn typeName data)]) (.called m .steadyClock tick) →
    ∀ aFD netStats, wp R X (mergeSlice P typeName (P.toStateSlice data) peerAddr errbub)
      (fun changes =>
        wp R X (syncAfterMerge P aFD netStats typeName changes errbub) fun _ => Q) m
      (t ++ [.marked (.messageIn typeName data)] ++ [.called m .steadyClock tick])
  done_idle : ∀ m t, idle m t → Q m t
  done_asked : ∀ m t, asked m t → Q m t

/-- The phases of a client: before and after it has built its request, after a
merge that was refused and after one that went through, and after the call of the
hooks. Each phase is enough for what is asked at the end. -/
structure ClientPhases (P : Platform D) (dataTypeName : StdString) (peerAddr : SockAddr)
    (errbub : ErrBub) (R : Rely SysCall Ans (Process D) Mark) (X Q : Process D → Trace D → Prop)
    where
  idle : Process D → Trace D → Prop
  asked : Process D → Trace D → Prop
  refused : Process D → Trace D → Prop
  merged : StdString → ℤ → Process D → Trace D → Prop
  notified : StdString → Process D → Trace D → Prop
  framed_idle : Framed R X idle
  framed_asked : Framed R X asked
  framed_refused : Framed R X refused
  framed_merged : ∀ typeName changes, Framed R X (merged typeName changes)
  framed_notified : ∀ typeName, Framed R X (notified typeName)
  request : ∀ m t, idle m t → asked m (afterReference dataTypeName m t
    ++ [.marked (.messageOut dataTypeName
      (P.fromStateSlice (m.shared.mStates[dataTypeName]?.getD ∅)))])
  /-- From the answer to the merge the session does not give way. -/
  merge : ∀ typeName data m t tick, asked m t →
    R (t ++ [.marked (.messageIn typeName data)]) (.called m .steadyClock tick) →
    wp R X (mergeSlice P typeName (P.toStateSlice data) peerAddr errbub)
      (fun changes m' t' => changes = -1 ∧ refused m' t' ∨ merged typeName changes m' t') m
      (t ++ [.marked (.messageIn typeName data)] ++ [.called m .steadyClock tick])
  notify : ∀ typeName changes m t, merged typeName changes m t → m.shared.isPeer → 0 < changes →
    notified typeName m (t ++ [.marked (.notifyHooks typeName)])
  done_idle : ∀ m t, idle m t → Q m t
  done_asked : ∀ m t, asked m t → Q m t
  done_refused : ∀ m t, refused m t → Q m t
  done_merged : ∀ typeName changes m t, merged typeName changes m t → Q m t
  done_notified : ∀ typeName m t, notified typeName m t → Q m t

variable {P : Platform D} {dataTypeName : StdString} {peerAddr : SockAddr} {errbub : ErrBub}
  {R : Rely SysCall Ans (Process D) Mark} {X Q : Process D → Trace D → Prop} {m : Process D}
  {t : Trace D}

/-- **The session of a client, up to its merge.** -/
theorem ClientStart.wp_syncWithPeer (h : ClientStart P dataTypeName peerAddr errbub R X Q)
    (hidle : h.idle m t) :
    wp R X (syncWithPeer P dataTypeName peerAddr errbub) (fun _ => Q) m t := by
  rw [syncWithPeer, wp_bind, wp_memory]
  split_ifs
  · rw [wp_bind]
    exact wp_mono (h.framed_idle.wp (manages_minor.uses_bubble _ errbub) hidle)
      fun _ m' t' h' => (wp_pure _).mpr (h.done_idle m' t' h')
  rw [wp_bind]
  refine wp_mono (h.framed_idle.wp (uses_connect manages_minor (fun _ => trivial) _ _) hidle) ?_
  intro connected m₁ t₁ h₁
  cases connected with
  | none => exact (wp_pure _).mpr (h.done_idle m₁ t₁ h₁)
  | some tSocket =>
      simp only
      rw [wp_bind]
      refine wp_mono (h.framed_idle.wp (uses_clientHandShake talks_minor _ _ _ fun _ => trivial)
        h₁) ?_
      rintro ⟨handShaken, netStats₂⟩ m₂ t₂ h₂
      simp only
      split_ifs
      · exact h.framed_idle.wp_giveUp h.done_idle h₂
      rw [wp_bind, wp_referencedState, wp_bind, wp_event, wp_bind]
      refine wp_mono (h.framed_asked.wp (uses_sendNetworkMessage talks_minor _ _ _ _
        fun _ => trivial) (h.request m₂ t₂ h₂)) ?_
      rintro ⟨totalSent, netStats₄⟩ m₄ t₄ h₄
      simp only
      split_ifs
      · exact h.framed_asked.wp_giveUp h.done_asked h₄
      rw [wp_bind]
      refine wp_mono (h.framed_asked.wp (uses_receiveNetworkMessage talks_minor _ _ _
        fun _ => trivial) h₄) ?_
      rintro ⟨totalReceived, netMessage, netStats₅⟩ m₅ t₅ h₅
      simp only
      split_ifs
      · exact h.framed_asked.wp_giveUp h.done_asked h₅
      rw [wp_bind, wp_event, wp_bind, wp_call]
      intro tick htick
      rw [wp_bind]
      exact h.merge netMessage.mTypeName netMessage.mData m₅ t₅ tick h₅ htick (some tSocket)
        netStats₅

/-- **The session of a client, phase by phase.** -/
theorem ClientPhases.wp_syncWithPeer (h : ClientPhases P dataTypeName peerAddr errbub R X Q)
    (hidle : h.idle m t) :
    wp R X (syncWithPeer P dataTypeName peerAddr errbub) (fun _ => Q) m t := by
  let start : ClientStart P dataTypeName peerAddr errbub R X Q := {
    idle := h.idle
    asked := h.asked
    framed_idle := h.framed_idle
    framed_asked := h.framed_asked
    request := h.request
    merge := by
      intro typeName data m₅ t₅ tick h₅ htick aFD netStats
      refine wp_mono (h.merge typeName data m₅ t₅ tick h₅ htick) ?_
      rintro changes m₆ t₆ (⟨rfl, h₆⟩ | h₆)
      · rw [syncAfterMerge, if_pos rfl]
        exact h.framed_refused.wp_giveUp h.done_refused h₆
      rw [syncAfterMerge]
      split_ifs
      · exact (h.framed_merged _ _).wp_giveUp (h.done_merged _ _) h₆
      rw [wp_bind]
      refine wp_mono ((h.framed_merged _ _).wp (C := fun _ => True) (uses_call trivial) h₆)
        fun _ m₇ t₇ h₇ => ?_
      exact (h.framed_merged _ _).wp_finish (h.framed_notified typeName)
        (h.notify typeName changes) (h.done_merged _ _) (h.done_notified _) h₇
    done_idle := h.done_idle
    done_asked := h.done_asked }
  exact start.wp_syncWithPeer hidle

/-- One invariant for all phases: it is kept by every mark but those of a message
that came in and of a merge, and by what happens from that message to the
merge. -/
def ClientPhases.ofInvariant {J : Process D → Trace D → Prop} (hJ : Framed R J J)
    (hmark : ∀ m t e, e.isAnswer = false → J m t → J m (t ++ [.marked e]))
    (hmerge : ∀ typeName data m t tick, J m t →
      R (t ++ [.marked (.messageIn typeName data)]) (.called m .steadyClock tick) →
      wp R J (mergeSlice P typeName (P.toStateSlice data) peerAddr errbub) (fun _ => J) m
        (t ++ [.marked (.messageIn typeName data)] ++ [.called m .steadyClock tick])) :
    ClientPhases P dataTypeName peerAddr errbub R J J where
  idle := J
  asked := J
  refused := J
  merged := fun _ _ => J
  notified := fun _ => J
  framed_idle := hJ
  framed_asked := hJ
  framed_refused := hJ
  framed_merged := fun _ _ => hJ
  framed_notified := fun _ => hJ
  request := by
    intro m t h
    rw [afterReference]
    cases m.shared.mStates[dataTypeName]? with
    | none => exact hmark m _ _ rfl (hmark m t _ rfl h)
    | some tState => exact hmark m t _ rfl h
  merge := fun typeName data m t tick h hR =>
    wp_mono (hmerge typeName data m t tick h hR) fun _ _ _ h' => Or.inr h'
  notify := fun typeName _ m t h _ _ => hmark m t _ rfl h
  done_idle := fun _ _ h => h
  done_asked := fun _ _ h => h
  done_refused := fun _ _ h => h
  done_merged := fun _ _ _ _ h => h
  done_notified := fun _ _ _ h => h

end Client

/-! ### The server -/

section Server

variable [BEq D]

/-- The phases of a server: before and after it knows its peer, after a merge that
was refused and after one that went through, after it has built its answer, and
after the call of the hooks. -/
structure ServerPhases (P : Platform D) (errbub : ErrBub)
    (R : Rely SysCall Ans (Process D) Mark) (X Q : Process D → Trace D → Prop) where
  idle : Process D → Trace D → Prop
  connected : SockAddr → Process D → Trace D → Prop
  refused : Process D → Trace D → Prop
  merged : StdString → ℤ → Process D → Trace D → Prop
  answered : StdString → ℤ → Process D → Trace D → Prop
  notified : StdString → Process D → Trace D → Prop
  framed_idle : Framed R X idle
  framed_connected : ∀ peerAddr, Framed R X (connected peerAddr)
  framed_refused : Framed R X refused
  framed_merged : ∀ typeName changes, Framed R X (merged typeName changes)
  framed_answered : ∀ typeName changes, Framed R X (answered typeName changes)
  framed_notified : ∀ typeName, Framed R X (notified typeName)
  meet : ∀ m t fd peerAddr, idle m t → R t (.called m (.getpeername fd) (.ok peerAddr)) →
    connected peerAddr m (t ++ [.called m (.getpeername fd) (.ok peerAddr)])
  /-- From the request to the merge the session does not give way. -/
  merge : ∀ typeName data peerAddr m t tick, connected peerAddr m t →
    R (t ++ [.marked (.messageIn typeName data)]) (.called m .steadyClock tick) →
    wp R X (mergeSlice P typeName (P.toStateSlice data) peerAddr errbub)
      (fun changes m' t' => changes = -1 ∧ refused m' t' ∨ merged typeName changes m' t') m
      (t ++ [.marked (.messageIn typeName data)] ++ [.called m .steadyClock tick])
  answer : ∀ typeName changes m t, merged typeName changes m t → changes ≠ -1 →
    answered typeName changes { m with shared := m.shared.touch typeName }
      (t ++ [.marked (.messageOut typeName
        (P.fromStateSlice ((m.shared.touch typeName).mStates[typeName]?.getD ∅)))])
  notify : ∀ typeName changes m t, answered typeName changes m t → m.shared.isPeer →
    0 < changes → notified typeName m (t ++ [.marked (.notifyHooks typeName)])
  done_connected : ∀ peerAddr m t, connected peerAddr m t → Q m t
  done_refused : ∀ m t, refused m t → Q m t
  done_merged : ∀ typeName m t, merged typeName (-1) m t → Q m t
  done_answered : ∀ typeName changes m t, answered typeName changes m t → Q m t
  done_notified : ∀ typeName m t, notified typeName m t → Q m t

variable {P : Platform D} {errbub : ErrBub} {R : Rely SysCall Ans (Process D) Mark}
  {X Q : Process D → Trace D → Prop} {m : Process D} {t : Trace D}

/-- **The session of a server, phase by phase.** -/
theorem ServerPhases.wp_handleReqSyncConnection (h : ServerPhases P errbub R X Q)
    {pSocket : ObjId} (hidle : h.idle m t) :
    wp R X (handleReqSyncConnection P pSocket errbub) (fun _ => Q) m t := by
  rw [handleReqSyncConnection, wp_bind]
  intro peer hpeer
  cases peer with
  | error e => exact h.framed_idle.exited _ _ (h.framed_idle.called m t _ _ hidle hpeer)
  | ok peerAddr =>
      have h₁ := h.meet m t _ peerAddr hidle hpeer
      change wp R X (serverHandShake _ _ _ _ >>= _) _ m _
      rw [wp_bind]
      refine wp_mono (wp_returns ((h.framed_connected peerAddr).wp (uses_serverHandShake talks_minor
        _ _ _ fun _ => trivial) h₁) (serverHandShake_mPeer _ _ _ _)) ?_
      rintro ⟨handShaken, netStats₂⟩ m₂ t₂ ⟨h₂, hpeer₂⟩
      simp only
      split_ifs
      · exact (h.framed_connected peerAddr).wp_giveUp (h.done_connected peerAddr) h₂
      rw [wp_bind]
      refine wp_mono (wp_returns ((h.framed_connected peerAddr).wp (uses_receiveNetworkMessage
        talks_minor _ _ _) h₂) (receiveNetworkMessage_mPeer _ _ _ _)) ?_
      rintro ⟨totalReceived, networkMessage, netStats₃⟩ m₃ t₃ ⟨h₃, hpeer₃⟩
      have hpeerAddr : netStats₃.mPeer = peerAddr := hpeer₃.trans hpeer₂
      simp only
      split_ifs
      · exact (h.framed_connected peerAddr).wp_giveUp (h.done_connected peerAddr) h₃
      rw [wp_bind, wp_event, wp_bind, wp_call]
      intro tick htick
      rw [wp_bind, hpeerAddr]
      refine wp_mono (h.merge networkMessage.mTypeName networkMessage.mData peerAddr m₃ t₃ tick h₃
        htick) ?_
      rintro changes m₄ t₄ (⟨rfl, h₄⟩ | h₄)
      · rw [if_pos rfl]
        exact h.framed_refused.wp_giveUp h.done_refused h₄
      split_ifs with hchanges
      · subst hchanges
        exact (h.framed_merged _ _).wp_giveUp (h.done_merged _) h₄
      rw [wp_bind, wp_call]
      intro tick' htick'
      have h₅ := (h.framed_merged _ _).called m₄ t₄ _ tick' h₄ htick'
      rw [wp_bind, wp_stateOf, wp_bind, wp_event, wp_bind]
      refine wp_mono ((h.framed_answered networkMessage.mTypeName changes).wp
        (uses_sendNetworkMessage talks_minor _ _ _ _ fun _ => trivial)
        (h.answer _ _ m₄ _ h₅ hchanges)) ?_
      rintro ⟨totalSent, netStats₆⟩ m₆ t₆ h₆
      simp only
      split_ifs
      · exact (h.framed_answered _ _).wp_giveUp (h.done_answered _ _) h₆
      · exact (h.framed_answered _ _).wp_finish (h.framed_notified networkMessage.mTypeName)
          (h.notify networkMessage.mTypeName changes) (h.done_answered _ _) (h.done_notified _) h₆

end Server

/-! ### Hooks and merges -/

/-- No hook was called. -/
def NoHooks (t : Trace D) : Prop := ∀ typeName, .notifyHooks typeName ∉ marks t

/-- Hooks were called after a merge of their type with significant changes only. -/
def HooksFollowMerges (t : Trace D) : Prop :=
  ∀ typeName, .notifyHooks typeName ∈ marks t →
    ∃ changes, 0 < changes ∧ .merged typeName changes ∈ marks t

section Hooks

variable {R : Rely SysCall Ans (Process D) Mark} {m : Process D} {t : Trace D}

lemma NoHooks.concat (ht : NoHooks t) {i : Step D} (hi : ∀ U, i ≠ .marked (.notifyHooks U)) :
    NoHooks (t ++ [i]) := by
  intro typeName hmem
  rcases List.mem_append.mp (mem_marks.mp hmem) with hmem | hmem
  · exact ht typeName (mem_marks.mpr hmem)
  · exact hi typeName (List.mem_singleton.mp hmem).symm

lemma NoHooks.hooksFollowMerges (ht : NoHooks t) : HooksFollowMerges t :=
  fun typeName hmem => absurd hmem (ht typeName)

/-- A step that is no call of the hooks. -/
lemma HooksFollowMerges.concat (ht : HooksFollowMerges t) {i : Step D}
    (hi : ∀ U, i ≠ .marked (.notifyHooks U)) : HooksFollowMerges (t ++ [i]) := by
  intro typeName hmem
  rw [marks_append] at hmem ⊢
  rcases List.mem_append.mp hmem with hmem | hmem
  · obtain ⟨changes, hpos, hmerged⟩ := ht typeName hmem
    exact ⟨changes, hpos, List.mem_append_left _ hmerged⟩
  · exact absurd (List.mem_singleton.mp (mem_marks.mp hmem)).symm (hi typeName)

lemma HooksFollowMerges.notify {typeName : StdString} {changes : ℤ} (ht : NoHooks t)
    (hpos : 0 < changes) (hmerged : .merged typeName changes ∈ marks t) :
    HooksFollowMerges (t ++ [.marked (.notifyHooks typeName)]) := by
  intro typeName' hmem
  rw [marks_append] at hmem ⊢
  rcases List.mem_append.mp hmem with hmem | hmem
  · exact absurd hmem (ht typeName')
  · obtain ⟨⟩ := List.mem_singleton.mp hmem
    exact ⟨changes, hpos, List.mem_append_left _ hmerged⟩

lemma Step.IsMinor.ne_notifyHooks {i : Step D} (hi : Step.IsMinor i) (U : StdString) :
    i ≠ .marked (.notifyHooks U) := by
  rintro rfl
  cases hi

lemma framed_noHooks : Framed R (fun _ => HooksFollowMerges) fun _ => NoHooks :=
  framed_of_trace (fun _ _ hi ht => ht.concat hi.ne_notifyHooks)
    fun _ ht => ht.hooksFollowMerges

lemma framed_hooksFollowMerges :
    Framed R (fun _ => HooksFollowMerges) fun _ => HooksFollowMerges :=
  framed_of_trace (fun _ _ hi ht => ht.concat hi.ne_notifyHooks) fun _ ht => ht

/-- A merge went through, and no hook was called yet. -/
def MergedUntold (typeName : StdString) (changes : ℤ) (t : Trace D) : Prop :=
  NoHooks t ∧ .merged typeName changes ∈ marks t

lemma MergedUntold.concat {typeName : StdString} {changes : ℤ}
    (ht : MergedUntold typeName changes t) {i : Step D} (hi : ∀ U, i ≠ .marked (.notifyHooks U)) :
    MergedUntold typeName changes (t ++ [i]) := by
  refine ⟨ht.1.concat hi, ?_⟩
  rw [marks_append]
  exact List.mem_append_left _ ht.2

lemma framed_mergedUntold (typeName : StdString) (changes : ℤ) :
    Framed R (fun _ => HooksFollowMerges) fun _ => MergedUntold typeName changes :=
  framed_of_trace (fun _ _ hi ht => ht.concat hi.ne_notifyHooks)
    fun _ ht => ht.1.hooksFollowMerges

variable [BEq D] {P : Platform D} {errbub : ErrBub}

lemma mergeSlice_untold {typeName : StdString} {stateSlice : StateMap D} {peerAddr : SockAddr}
    (ht : NoHooks t) :
    wp R (fun _ => HooksFollowMerges) (mergeSlice P typeName stateSlice peerAddr errbub)
      (fun changes _ t' => changes = -1 ∧ NoHooks t' ∨ MergedUntold typeName changes t') m t := by
  have hmerged : ∀ (changes : ℤ) {t : Trace D}, NoHooks t →
      MergedUntold typeName changes (t ++ [.marked (.merged typeName changes)]) := by
    intro changes t ht
    refine ⟨ht.concat (by rintro U ⟨⟩), ?_⟩
    rw [marks_append]
    exact List.mem_append_right _ (List.mem_singleton_self _)
  refine wp_mergeSlice (fun changes shared _ => ?_) (fun c _ _ => ?_) (fun c _ => ?_)
    fun _ changes => ?_
  · exact Or.inr (hmerged changes ht)
  · exact ht.hooksFollowMerges
  · exact Or.inl ⟨rfl, ht.concat (by rintro U ⟨⟩)⟩
  · exact Or.inr (hmerged changes (ht.concat (by rintro U ⟨⟩)))

/-- The hooks a client calls are those of a type it has merged. -/
theorem syncWithPeer_hooks {dataTypeName : StdString} {peerAddr : SockAddr} (ht : NoHooks t) :
    wp R (fun _ => HooksFollowMerges) (syncWithPeer P dataTypeName peerAddr errbub)
      (fun _ _ => HooksFollowMerges) m t := by
  let phases : ClientPhases P dataTypeName peerAddr errbub R (fun _ => HooksFollowMerges)
      (fun _ => HooksFollowMerges) := {
    idle := fun _ => NoHooks
    asked := fun _ => NoHooks
    refused := fun _ => NoHooks
    merged := fun typeName changes _ => MergedUntold typeName changes
    notified := fun _ _ => HooksFollowMerges
    framed_idle := framed_noHooks
    framed_asked := framed_noHooks
    framed_refused := framed_noHooks
    framed_merged := framed_mergedUntold
    framed_notified := fun _ => framed_hooksFollowMerges
    request := by
      intro m t ht
      rw [afterReference]
      cases m.shared.mStates[dataTypeName]? with
      | none => exact (ht.concat (by rintro U ⟨⟩)).concat (by rintro U ⟨⟩)
      | some tState => exact ht.concat (by rintro U ⟨⟩)
    merge := fun _ _ _ _ _ ht _ =>
      mergeSlice_untold ((ht.concat (by rintro U ⟨⟩)).concat (by rintro U ⟨⟩))
    notify := fun _ _ _ _ ht _ hpos => .notify ht.1 hpos ht.2
    done_idle := fun _ _ ht => ht.hooksFollowMerges
    done_asked := fun _ _ ht => ht.hooksFollowMerges
    done_refused := fun _ _ ht => ht.hooksFollowMerges
    done_merged := fun _ _ _ _ ht => ht.1.hooksFollowMerges
    done_notified := fun _ _ _ ht => ht }
  exact phases.wp_syncWithPeer ht

/-- The hooks a server calls are those of a type it has merged. -/
theorem handleReqSyncConnection_hooks {pSocket : ObjId} (ht : NoHooks t) :
    wp R (fun _ => HooksFollowMerges) (handleReqSyncConnection P pSocket errbub)
      (fun _ _ => HooksFollowMerges) m t := by
  let phases : ServerPhases P errbub R (fun _ => HooksFollowMerges)
      (fun _ => HooksFollowMerges) := {
    idle := fun _ => NoHooks
    connected := fun _ _ => NoHooks
    refused := fun _ => NoHooks
    merged := fun typeName changes _ => MergedUntold typeName changes
    answered := fun typeName changes _ => MergedUntold typeName changes
    notified := fun _ _ => HooksFollowMerges
    framed_idle := framed_noHooks
    framed_connected := fun _ => framed_noHooks
    framed_refused := framed_noHooks
    framed_merged := framed_mergedUntold
    framed_answered := framed_mergedUntold
    framed_notified := fun _ => framed_hooksFollowMerges
    meet := fun _ _ _ _ ht _ => ht.concat (by rintro U ⟨⟩)
    merge := fun _ _ _ _ _ _ ht _ =>
      mergeSlice_untold ((ht.concat (by rintro U ⟨⟩)).concat (by rintro U ⟨⟩))
    answer := fun _ _ _ _ ht _ => ht.concat (by rintro U ⟨⟩)
    notify := fun _ _ _ _ ht _ hpos => .notify ht.1 hpos ht.2
    done_connected := fun _ _ _ ht => ht.hooksFollowMerges
    done_refused := fun _ _ ht => ht.hooksFollowMerges
    done_merged := fun _ _ _ ht => ht.1.hooksFollowMerges
    done_answered := fun _ _ _ _ ht => ht.1.hooksFollowMerges
    done_notified := fun _ _ _ ht => ht }
  exact phases.wp_handleReqSyncConnection ht

end Hooks

end SharedStateAsync
