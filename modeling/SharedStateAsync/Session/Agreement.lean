/-
What two nodes hold after a session between them.

A session is two merges by different hosts, the second of a state the first has
just changed. Key by key, the two nodes end up with the same entry unless one of
them guards an entry of its own against a copy with a higher TTL; and then both
keep what they had.

* `Locked`: the keys that stay apart;
* `exchange_agrees`: the two merges, key by key;
* `Alone`: no other coroutine touches the store meanwhile;
* `ServerDone`, `ClientDone`: what a session of each side does to the store, in
  terms of the messages it receives and sends;
* `CompleteSession.exchanged`: a complete session is two merges;
* `session_agreement`: two sessions whose messages are delivered leave the same
  entries exactly for the keys that are not locked.
-/
import SharedStateAsync.Io.Transfer
import SharedStateAsync.Session.Phases

namespace SharedStateAsync

open Coro

variable {D α σ σ' : Type}

/-! ### Two merges -/

/-- Both nodes hold the key, and one of them guards a copy of its own with the
lower TTL: the client `a`, or the server `b`. -/
def Locked (a b : StdString) (stateA stateB : StateMap D) (k : StateKey) : Prop :=
  ∃ e f, stateA[k]? = some e ∧ stateB[k]? = some f ∧
    (e.mAuthor = a ∧ e.mTtl < f.mTtl ∨ f.mAuthor = b ∧ f.mTtl < e.mTtl)

section Exchange

variable {a b : StdString} {stateA stateB : StateMap D} {k : StateKey}

lemma not_locked_of_none_left (h : stateA[k]? = none) : ¬ Locked a b stateA stateB k := by
  rintro ⟨e, f, he, -, -⟩
  rw [h] at he
  cases he

lemma not_locked_of_none_right (h : stateB[k]? = none) : ¬ Locked a b stateA stateB k := by
  rintro ⟨e, f, -, hf, -⟩
  rw [h] at hf
  cases hf

lemma locked_iff {e f : StateEntry D} (he : stateA[k]? = some e) (hf : stateB[k]? = some f) :
    Locked a b stateA stateB k ↔
      e.mAuthor = a ∧ e.mTtl < f.mTtl ∨ f.mAuthor = b ∧ f.mTtl < e.mTtl := by
  refine ⟨?_, fun h => ⟨e, f, he, hf, h⟩⟩
  rintro ⟨e', f', he', hf', h⟩
  obtain rfl := Option.some.inj (he.symm.trans he')
  obtain rfl := Option.some.inj (hf.symm.trans hf')
  exact h

/-- What the server `b` and then the client `a` hold for a key. -/
def AgreeUnlessLocked (a b : StdString) (stateA stateB stateA' stateB' : StateMap D)
    (k : StateKey) : Prop :=
  (stateA'[k]? = stateB'[k]? ↔ ¬ Locked a b stateA stateB k) ∧
    (Locked a b stateA stateB k → stateA'[k]? = stateA[k]? ∧ stateB'[k]? = stateB[k]?)

lemma agree_of_eq {stateA' stateB' : StateMap D} (h : stateA'[k]? = stateB'[k]?)
    (hfree : ¬ Locked a b stateA stateB k) :
    AgreeUnlessLocked a b stateA stateB stateA' stateB' k :=
  ⟨iff_of_true h hfree, fun hlocked => absurd hlocked hfree⟩

lemma agree_of_locked {stateA' stateB' : StateMap D} (hA : stateA'[k]? = stateA[k]?)
    (hB : stateB'[k]? = stateB[k]?) (hne : stateA[k]? ≠ stateB[k]?)
    (hlocked : Locked a b stateA stateB k) :
    AgreeUnlessLocked a b stateA stateB stateA' stateB' k := by
  refine ⟨iff_of_false ?_ (not_not.mpr hlocked), fun _ => ⟨hA, hB⟩⟩
  rw [hA, hB]
  exact hne

/-- Both have a copy: the server resolves them, and then the client. -/
lemma agree_of_resolve [BEq D] {e f : StateEntry D} {stateA' stateB' : StateMap D}
    (he : stateA[k]? = some e) (hf : stateB[k]? = some f)
    (hB : stateB'[k]? = some (resolve b true (some f) e))
    (hA : stateA'[k]? = some (resolve a true (some e) (resolve b true (some f) e))) :
    AgreeUnlessLocked a b stateA stateB stateA' stateB' k := by
  rcases lt_trichotomy e.mTtl f.mTtl with hlt | heq | hgt
  · -- the server keeps its copy; the client takes it unless its own is guarded
    rw [resolve_of_lt hlt] at hB hA
    by_cases hown : e.mAuthor = a
    · rw [resolve_of_gt_own hown hlt] at hA
      refine agree_of_locked (hA.trans he.symm) (hB.trans hf.symm) ?_
        ((locked_iff he hf).mpr (Or.inl ⟨hown, hlt⟩))
      rw [he, hf]
      rintro ⟨⟩
      exact lt_irrefl _ hlt
    · rw [resolve_of_gt_foreign hown hlt] at hA
      refine agree_of_eq (hA.trans hB.symm) fun hlocked => ?_
      rcases (locked_iff he hf).mp hlocked with h | h
      · exact hown h.1
      · omega
  · rw [resolve_of_eq heq.symm] at hB hA
    rw [resolve_self] at hA
    refine agree_of_eq (hA.trans hB.symm) fun hlocked => ?_
    rcases (locked_iff he hf).mp hlocked with h | h
    · omega
    · omega
  · -- the client keeps its copy; the server takes it unless its own is guarded
    by_cases hown : f.mAuthor = b
    · rw [resolve_of_gt_own hown hgt] at hB hA
      rw [resolve_of_lt hgt] at hA
      refine agree_of_locked (hA.trans he.symm) (hB.trans hf.symm) ?_
        ((locked_iff he hf).mpr (Or.inr ⟨hown, hgt⟩))
      rw [he, hf]
      rintro ⟨⟩
      exact lt_irrefl _ hgt
    · rw [resolve_of_gt_foreign hown hgt] at hB hA
      rw [resolve_self] at hA
      refine agree_of_eq (hA.trans hB.symm) fun hlocked => ?_
      rcases (locked_iff he hf).mp hlocked with h | h
      · omega
      · exact hown h.1

/-- **Two merges in a row**: the server merges the client's state, and the client
what the server then holds. -/
theorem exchange_agrees [BEq D] (a b : StdString) (stateA stateB : StateMap D) (k : StateKey) :
    AgreeUnlessLocked a b stateA stateB
      (mergeState a true stateA (mergeState b true stateB stateA))
      (mergeState b true stateB stateA) k := by
  cases he : stateA[k]? with
  | none =>
      have hfree : ¬ Locked a b stateA stateB k := not_locked_of_none_left he
      have hB : (mergeState b true stateB stateA)[k]? = stateB[k]? :=
        mergeState_getElem?_of_none he
      refine agree_of_eq ?_ hfree
      cases hf : stateB[k]? with
      | none =>
          rw [hf] at hB
          rw [mergeState_getElem?_of_none hB, hB, he]
      | some f =>
          rw [hf] at hB
          rw [mergeState_getElem?_of_some hB, hB, he, resolve_none]
  | some e =>
      have hB : (mergeState b true stateB stateA)[k]? = some (resolve b true stateB[k]? e) :=
        mergeState_getElem?_of_some he
      have hA : (mergeState a true stateA (mergeState b true stateB stateA))[k]?
          = some (resolve a true stateA[k]? (resolve b true stateB[k]? e)) :=
        mergeState_getElem?_of_some hB
      rw [he] at hA
      cases hf : stateB[k]? with
      | none =>
          rw [hf, resolve_none] at hB hA
          refine agree_of_eq ?_ (not_locked_of_none_right hf)
          rw [hA, hB, resolve_self]
      | some f =>
          rw [hf] at hB hA
          exact agree_of_resolve he hf hB hA

end Exchange

/-! ### The news of a run -/

/-- No other coroutine touches the store, and the peers that connect are as
`far` says. -/
def Alone (far : SockAddr → Prop) : Rely SysCall Ans (Process D) Mark
  | _, .resumed m m' => m'.shared = m.shared
  | _, .called _ (.getpeername _) (.ok peerAddr) => far peerAddr
  | _, _ => True

/-- A message, or a merge. -/
def Mark.isNews : Mark → Bool
  | .messageIn _ _ | .messageOut _ _ | .merged _ _ => true
  | _ => false

/-- The messages and merges of a run. -/
def newsOf (t : Trace D) : List Mark := (marks t).filter Mark.isNews

/-- The store is `s`, and the news so far are `news`. -/
structure Kept (s : SharedState D) (news : List Mark) (m : Process D) (t : Trace D) : Prop where
  shared_eq : m.shared = s
  news_eq : newsOf t = news

section Kept

variable {far : SockAddr → Prop} {s : SharedState D} {news : List Mark} {m : Process D}
  {t : Trace D}

lemma Kept.quiet (h : Kept s news m t) {i : Step D} (hi : newsOf [i] = []) :
    Kept s news m (t ++ [i]) := by
  refine ⟨h.shared_eq, ?_⟩
  rw [newsOf, marks_append, List.filter_append, show (marks [i]).filter Mark.isNews = [] from hi,
    List.append_nil]
  exact h.news_eq

lemma Kept.concat (h : Kept s news m t) (e : Mark) (he : e.isNews) :
    Kept s (news ++ [e]) m (t ++ [.marked e]) := by
  refine ⟨h.shared_eq, ?_⟩
  rw [newsOf, marks_append, List.filter_append, ← h.news_eq, newsOf]
  exact congrArg _ (List.filter_cons_of_pos he)

/-- Everything but the milestones of a session neither touches the store nor makes
news. -/
lemma framed_kept : Framed (Alone far) AnyExit (Kept s news) where
  called := fun m t c a h _ => h.quiet rfl
  resumed := fun m m' t h hm => Kept.quiet ⟨hm.trans h.shared_eq, h.news_eq⟩ rfl
  marked := by
    intro m t e he h
    cases e with
    | accepting => exact h.quiet rfl
    | bubbled c => exact h.quiet rfl
    | requeued => exact h.quiet rfl
    | registered id => exact h.quiet rfl
    | _ => cases he
  written := fun m m' t hm h => ⟨hm.trans h.shared_eq, h.news_eq⟩
  exited := fun _ _ _ => trivial

end Kept

/-! ### One side of a session -/

section Sides

variable [BEq D] {far : SockAddr → Prop} {s : SharedState D} {m : Process D} {t : Trace D}
  {P : Platform D}

/-- A merge of a message took the store from `s` to `s'`; one that throws leaves
it. -/
def MergedTo (P : Platform D) (s : SharedState D) (typeName data : StdString)
    (peerAddr : SockAddr) (changes : ℤ) (s' : SharedState D) : Prop :=
  s.merge P.host typeName (P.toStateSlice data) peerAddr = .ok (changes, s') ∨
    s.merge P.host typeName (P.toStateSlice data) peerAddr = .error .exception ∧ s' = s

lemma MergedTo.of_ok {typeName data : StdString} {peerAddr : SockAddr} {changes changes' : ℤ}
    {s' s'' : SharedState D} (h : MergedTo P s typeName data peerAddr changes s')
    (hok : s.merge P.host typeName (P.toStateSlice data) peerAddr = .ok (changes', s'')) :
    changes = changes' ∧ s' = s'' := by
  rcases h with h | ⟨h, -⟩
  · rw [hok] at h
    obtain ⟨rfl, rfl⟩ := Prod.mk.inj (Except.ok.inj h)
    exact ⟨rfl, rfl⟩
  · rw [hok] at h
    cases h

/-- The merge of a registered type. -/
lemma MergedTo.of_registered {typeName data : StdString} {peerAddr : SockAddr} {changes : ℤ}
    {s' : SharedState D} {tState stateSlice : StateMap D} (hreg : s.Registered typeName)
    (hstate : s.mStates[typeName]? = some tState) (hslice : P.toStateSlice data = stateSlice)
    (h : MergedTo P s typeName data peerAddr changes s') :
    changes = (mergeLoop P.host.authorPlaceOlder (!P.host.isLoopbackNet peerAddr) tState
        stateSlice).significantChanges ∧
      s' = s.setState typeName (mergeState P.host.authorPlaceOlder
        (!P.host.isLoopbackNet peerAddr) tState stateSlice) := by
  obtain ⟨tState', htState, hmerge⟩ := SharedState.merge_eq_ok P.host hreg stateSlice peerAddr
  obtain rfl := Option.some.inj (hstate.symm.trans htState)
  exact h.of_ok (by rw [hslice]; exact hmerge)

/-- The merge of a registered type neither fails nor throws. -/
lemma MergedTo.changes_nonneg {typeName data : StdString} {peerAddr : SockAddr} {changes : ℤ}
    {s' : SharedState D} (hreg : s.Registered typeName)
    (h : MergedTo P s typeName data peerAddr changes s') : 0 ≤ changes := by
  obtain ⟨tState, hstate⟩ := Option.isSome_iff_exists.mp hreg.1
  rw [(h.of_registered hreg hstate rfl).1]
  exact significantChanges_nonneg _ _ _ _

/-- A merge in terms of the store: it leaves the merged store and a mark, or the
store as it was. -/
lemma mergeSlice_kept {news : List Mark} {typeName data : StdString} {peerAddr : SockAddr}
    (h : Kept s news m t) :
    wp (Alone far) AnyExit (mergeSlice P typeName (P.toStateSlice data) peerAddr .storage)
      (fun changes m' t' => changes = -1 ∧ ¬ s.Registered typeName ∧ Kept s news m' t' ∨
        ∃ s', MergedTo P s typeName data peerAddr changes s' ∧
          Kept s' (news ++ [.merged typeName changes]) m' t') m t := by
  refine wp_mergeSlice (fun changes shared hmerge => ?_) nofun (fun c hmerge => ?_)
    fun hmerge changes => ?_
  · have hkept : Kept shared news { m with shared := shared } t := ⟨rfl, h.news_eq⟩
    rw [h.shared_eq] at hmerge
    exact Or.inr ⟨shared, Or.inl hmerge, hkept.concat _ rfl⟩
  · refine Or.inl ⟨rfl, fun hreg => ?_, h.quiet rfl⟩
    obtain ⟨_, -, hok⟩ := SharedState.merge_eq_ok P.host hreg (P.toStateSlice data) peerAddr
    rw [h.shared_eq] at hmerge
    cases hmerge.symm.trans hok
  · rw [h.shared_eq] at hmerge
    exact Or.inr ⟨s, Or.inr ⟨hmerge, rfl⟩, (h.quiet rfl).concat _ rfl⟩

/-- A server that has merged a slice it got from a peer, and sends its state
then. -/
def ServerAnswered (P : Platform D) (far : SockAddr → Prop) (s : SharedState D)
    (typeName : StdString) (changes : ℤ) (m : Process D) (t : Trace D) : Prop :=
  ∃ request peerAddr s', far peerAddr ∧ MergedTo P s typeName request peerAddr changes s' ∧
    Kept (s'.touch typeName) [.messageIn typeName request, .merged typeName changes,
      .messageOut typeName (P.fromStateSlice ((s'.touch typeName).mStates[typeName]?.getD ∅))] m t

/-- How the session of a server ends: it has sent nothing, and received nothing of a
registered type, or it has answered. -/
def ServerDone (P : Platform D) (far : SockAddr → Prop) (s : SharedState D) (m : Process D)
    (t : Trace D) : Prop :=
  ((∀ typeName data, .messageOut typeName data ∉ newsOf t) ∧
    ∀ typeName data, .messageIn typeName data ∈ newsOf t → ¬ s.Registered typeName) ∨
    ∃ typeName changes, ServerAnswered P far s typeName changes m t

lemma Kept.serverDone {s' : SharedState D} {news : List Mark} (h : Kept s' news m t)
    (hout : ∀ typeName data, .messageOut typeName data ∉ news)
    (hin : ∀ typeName data, .messageIn typeName data ∈ news → ¬ s.Registered typeName) :
    ServerDone P far s m t := by
  refine Or.inl ?_
  rw [h.news_eq]
  exact ⟨hout, hin⟩

lemma framed_serverAnswered (typeName : StdString) (changes : ℤ) :
    Framed (Alone far) AnyExit (ServerAnswered P far s typeName changes) :=
  .exists fun _ => .exists fun _ => .exists fun _ => framed_kept.and_left.and_left

/-- **The server's side.** -/
theorem handleReqSyncConnection_done {pSocket : ObjId} (h : Kept s [] m t) :
    wp (Alone far) AnyExit (handleReqSyncConnection P pSocket .storage)
      (fun _ => ServerDone P far s) m t := by
  let phases : ServerPhases P .storage (Alone far) AnyExit (ServerDone P far s) := {
    idle := Kept s []
    connected := fun peerAddr m t => far peerAddr ∧ Kept s [] m t
    refused := fun m t => ∃ typeName request, ¬ s.Registered typeName ∧
      Kept s [.messageIn typeName request] m t
    merged := fun typeName changes m t => ∃ request peerAddr s', far peerAddr ∧
      MergedTo P s typeName request peerAddr changes s' ∧
        Kept s' [.messageIn typeName request, .merged typeName changes] m t
    answered := ServerAnswered P far s
    notified := fun typeName m t => ∃ changes, ServerAnswered P far s typeName changes m t
    framed_idle := framed_kept
    framed_connected := fun _ => framed_kept.and_left
    framed_refused := .exists fun _ => .exists fun _ => framed_kept.and_left
    framed_merged := fun _ _ =>
      .exists fun _ => .exists fun _ => .exists fun _ => framed_kept.and_left.and_left
    framed_answered := framed_serverAnswered
    framed_notified := fun typeName => .exists (framed_serverAnswered typeName)
    meet := fun m t fd peerAddr h hfar => ⟨hfar, h.quiet rfl⟩
    merge := by
      rintro typeName request peerAddr m t tick ⟨hfar, h⟩ -
      have hin := (h.concat (.messageIn typeName request) rfl).quiet
        (i := .called m .steadyClock tick) rfl
      refine wp_mono (mergeSlice_kept hin) ?_
      rintro changes m' t' (⟨rfl, hreg, h'⟩ | ⟨s', hmerged, h'⟩)
      · exact Or.inl ⟨rfl, typeName, request, hreg, h'⟩
      · exact Or.inr ⟨request, peerAddr, s', hfar, hmerged, h'⟩
    answer := by
      rintro typeName changes m t ⟨request, peerAddr, s', hfar, hmerged, h⟩ -
      refine ⟨request, peerAddr, s', hfar, hmerged, ?_⟩
      rw [h.shared_eq]
      exact Kept.concat (m := { m with shared := s'.touch typeName }) ⟨rfl, h.news_eq⟩ _ rfl
    notify := by
      rintro typeName changes m t ⟨request, peerAddr, s', hfar, hmerged, h⟩ - -
      exact ⟨changes, request, peerAddr, s', hfar, hmerged, h.quiet rfl⟩
    done_connected := fun _ m t ⟨_, h⟩ => h.serverDone (by simp) (by simp)
    done_refused := fun m t ⟨_, _, hreg, h⟩ => h.serverDone (by simp) (by simpa using hreg)
    done_merged := by
      rintro typeName m t ⟨request, peerAddr, s', -, hmerged, h⟩
      have hreg : ¬ s.Registered typeName := fun hreg => by
        have hchanges := hmerged.changes_nonneg hreg
        omega
      exact h.serverDone (by simp) (by simpa using hreg)
    done_answered := fun typeName changes m t h => Or.inr ⟨typeName, changes, h⟩
    done_notified := fun typeName m t ⟨changes, h⟩ => Or.inr ⟨typeName, changes, h⟩ }
  exact phases.wp_handleReqSyncConnection h

/-- A client that has sent its state and merged a slice it got then. -/
def ClientMerged (P : Platform D) (dataTypeName : StdString) (peerAddr : SockAddr)
    (s : SharedState D) (typeName : StdString) (changes : ℤ) (m : Process D) (t : Trace D) :
    Prop :=
  ∃ answer s', MergedTo P s typeName answer peerAddr changes s' ∧
    Kept s' [.messageOut dataTypeName (P.fromStateSlice (s.mStates[dataTypeName]?.getD ∅)),
      .messageIn typeName answer, .merged typeName changes] m t

/-- How the session of a client ends: it has merged nothing and sent nothing but
its state, or it has merged an answer. -/
def ClientDone (P : Platform D) (dataTypeName : StdString) (peerAddr : SockAddr)
    (s : SharedState D) (m : Process D) (t : Trace D) : Prop :=
  ((∀ typeName changes, .merged typeName changes ∉ newsOf t) ∧
    ∀ typeName data, .messageOut typeName data ∈ newsOf t →
      typeName = dataTypeName ∧ data = P.fromStateSlice (s.mStates[dataTypeName]?.getD ∅)) ∨
    ∃ typeName changes, ClientMerged P dataTypeName peerAddr s typeName changes m t

lemma Kept.clientDone {dataTypeName : StdString} {peerAddr : SockAddr} {s' : SharedState D}
    {news : List Mark} (h : Kept s' news m t)
    (hmerged : ∀ typeName changes, .merged typeName changes ∉ news)
    (hout : ∀ typeName data, .messageOut typeName data ∈ news →
      typeName = dataTypeName ∧ data = P.fromStateSlice (s.mStates[dataTypeName]?.getD ∅)) :
    ClientDone P dataTypeName peerAddr s m t := by
  refine Or.inl ?_
  rw [h.news_eq]
  exact ⟨hmerged, hout⟩

lemma framed_clientMerged {dataTypeName : StdString} {peerAddr : SockAddr} (typeName : StdString)
    (changes : ℤ) :
    Framed (Alone far) AnyExit (ClientMerged P dataTypeName peerAddr s typeName changes) :=
  .exists fun _ => .exists fun _ => framed_kept.and_left

/-- **The client's side.** -/
theorem syncWithPeer_done {dataTypeName : StdString} {peerAddr : SockAddr} (h : Kept s [] m t) :
    wp (Alone far) AnyExit (syncWithPeer P dataTypeName peerAddr .storage)
      (fun _ => ClientDone P dataTypeName peerAddr s) m t := by
  let ownState := P.fromStateSlice (s.mStates[dataTypeName]?.getD ∅)
  let phases : ClientPhases P dataTypeName peerAddr .storage (Alone far) AnyExit
      (ClientDone P dataTypeName peerAddr s) := {
    idle := Kept s []
    asked := Kept s [.messageOut dataTypeName ownState]
    refused := fun m t => ∃ typeName answer,
      Kept s [.messageOut dataTypeName ownState, .messageIn typeName answer] m t
    merged := ClientMerged P dataTypeName peerAddr s
    notified := fun typeName m t =>
      ∃ changes, ClientMerged P dataTypeName peerAddr s typeName changes m t
    framed_idle := framed_kept
    framed_asked := framed_kept
    framed_refused := .exists fun _ => .exists fun _ => framed_kept
    framed_merged := framed_clientMerged
    framed_notified := fun typeName => .exists (framed_clientMerged typeName)
    request := by
      intro m t h
      rw [afterReference, h.shared_eq]
      cases hstate : s.mStates[dataTypeName]? with
      | none => simpa [ownState, hstate] using (h.quiet rfl).concat (.messageOut _ _) rfl
      | some tState => simpa [ownState, hstate] using h.concat (.messageOut _ _) rfl
    merge := by
      intro typeName answer m t tick h _
      have hin := (h.concat (.messageIn typeName answer) rfl).quiet
        (i := .called m .steadyClock tick) rfl
      refine wp_mono (mergeSlice_kept hin) ?_
      rintro changes m' t' (⟨rfl, -, h'⟩ | ⟨s', hmerged, h'⟩)
      · exact Or.inl ⟨rfl, typeName, answer, h'⟩
      · exact Or.inr ⟨answer, s', hmerged, h'⟩
    notify := fun typeName changes m t ⟨answer, s', hmerged, h⟩ _ _ =>
      ⟨changes, answer, s', hmerged, h.quiet rfl⟩
    done_idle := fun m t h => h.clientDone (by simp) (by simp)
    done_asked := fun m t h => h.clientDone (by simp) (by simp [ownState])
    done_refused := fun m t ⟨_, _, h⟩ => h.clientDone (by simp) (by simp [ownState])
    done_merged := fun typeName changes m t h => Or.inr ⟨typeName, changes, h⟩
    done_notified := fun typeName m t ⟨changes, h⟩ => Or.inr ⟨typeName, changes, h⟩ }
  exact phases.wp_syncWithPeer h

end Sides

/-! ### Both sides -/

/-- Whatever message the second run has received, the first one has sent. -/
def Delivered (t u : Trace D) : Prop :=
  ∀ typeName data, .messageIn typeName data ∈ marks u → .messageOut typeName data ∈ marks t

/-- A session that is complete: both sides return and nobody else touches their
stores meanwhile, messages are delivered as they were sent, and the client has
merged the answer. -/
structure CompleteSession (far : SockAddr → Prop)
    (client : Option Bool × World SysCall Ans (Process D) Mark σ)
    (server : Option Bool × World SysCall Ans (Process D) Mark σ') : Prop where
  clientReturns : client.1 ≠ none
  serverReturns : server.1 ≠ none
  clientAlone : Meets (Alone fun _ => True) [] client.2.trace
  serverAlone : Meets (Alone far) [] server.2.trace
  request : Delivered client.2.trace server.2.trace
  answer : Delivered server.2.trace client.2.trace
  merged : ∃ typeName changes, .merged typeName changes ∈ marks client.2.trace

section Session

variable {s : SharedState D} {typeName : StdString}

lemma mem_newsOf {t : Trace D} {e : Mark} (he : e.isNews) : e ∈ newsOf t ↔ e ∈ marks t := by
  rw [newsOf, List.mem_filter]
  exact and_iff_left he

lemma Kept.mem_marks {news : List Mark} {m : Process D} {t : Trace D} {e : Mark}
    (h : Kept s news m t) (he : e.isNews) : e ∈ marks t ↔ e ∈ news := by
  rw [← mem_newsOf he, h.news_eq]

/-- What the two runs of a complete session have done: the server has merged the
client's state, and the client the state the server had then. -/
structure Exchanged [BEq D] (a b : StdString) (remoteA remoteB : Bool) (typeName : StdString)
    (stateA stateB : StateMap D) (sA sB : SharedState D)
    (client : World SysCall Ans (Process D) Mark σ)
    (server : World SysCall Ans (Process D) Mark σ') : Prop where
  server_shared : server.mem.shared = sB.setState typeName (mergeState b remoteB stateB stateA)
  client_shared : client.mem.shared = sA.setState typeName
    (mergeState a remoteA stateA (mergeState b remoteB stateB stateA))
  server_merged : ∀ t changes, .merged t changes ∈ marks server.trace ↔
    t = typeName ∧ changes = (mergeLoop b remoteB stateB stateA).significantChanges
  client_merged : ∀ t changes, .merged t changes ∈ marks client.trace ↔
    t = typeName ∧ changes = (mergeLoop a remoteA stateA
      (mergeState b remoteB stateB stateA)).significantChanges

/-- The messages of a complete session: the server has merged what the client sent
of its state, and the client what the server sent of its own then. -/
lemma CompleteSession.merges [BEq D] {far : SockAddr → Prop} {platA platB : Platform D}
    {typeName : StdString} {peerAddr : SockAddr} {sA sB : SharedState D}
    {client : Option Bool × World SysCall Ans (Process D) Mark σ}
    {server : Option Bool × World SysCall Ans (Process D) Mark σ'}
    (h : CompleteSession far client server)
    (hclient : ClientDone platA typeName peerAddr sA client.2.mem client.2.trace)
    (hserver : ServerDone platB far sB server.2.mem server.2.trace) :
    ∃ addr changesA changesB sA' sB', far addr ∧
      MergedTo platB sB typeName (platA.fromStateSlice (sA.mStates[typeName]?.getD ∅)) addr
        changesB sB' ∧
      MergedTo platA sA typeName (platB.fromStateSlice
        ((sB'.touch typeName).mStates[typeName]?.getD ∅)) peerAddr changesA sA' ∧
      (client.2.mem.shared = sA' ∧ ∀ t changes, .merged t changes ∈ marks client.2.trace ↔
        t = typeName ∧ changes = changesA) ∧
      server.2.mem.shared = sB'.touch typeName ∧ ∀ t changes,
        .merged t changes ∈ marks server.2.trace ↔ t = typeName ∧ changes = changesB := by
  -- the client has merged an answer, so the server has sent one
  obtain ⟨t₀, n₀, hmerged₀⟩ := h.merged
  rcases hclient with ⟨hnone, -⟩ | ⟨typeA, changesA, answer, sA', hmergedA, hkeptA⟩
  · exact absurd ((mem_newsOf rfl).mpr hmerged₀) (hnone t₀ n₀)
  have hout := h.answer typeA answer ((hkeptA.mem_marks rfl).mpr (by simp))
  rcases hserver with ⟨hnone, -⟩ | ⟨typeB, changesB, request, addr, sB', hfar, hmergedB, hkeptB⟩
  · exact absurd ((mem_newsOf rfl).mpr hout) (hnone typeA answer)
  -- the answer is that of the server, and the request that of the client
  have houtB := (hkeptB.mem_marks rfl).mp hout
  obtain ⟨rfl, rfl⟩ : typeA = typeB ∧ answer = platB.fromStateSlice
      ((sB'.touch typeB).mStates[typeB]?.getD ∅) := by simpa using houtB
  have houtA := (hkeptA.mem_marks rfl).mp
    (h.request typeA request ((hkeptB.mem_marks rfl).mpr (by simp)))
  obtain ⟨rfl, rfl⟩ : typeA = typeName ∧ request = platA.fromStateSlice
      (sA.mStates[typeName]?.getD ∅) := by simpa using houtA
  refine ⟨addr, changesA, changesB, sA', sB', hfar, hmergedB, hmergedA, ⟨hkeptA.shared_eq, ?_⟩,
    hkeptB.shared_eq, ?_⟩
  · intro t changes
    rw [hkeptA.mem_marks rfl]
    simp
  · intro t changes
    rw [hkeptB.mem_marks rfl]
    simp

/-- **A complete session is two merges.** -/
theorem CompleteSession.exchanged [BEq D] {platA platB : Platform D}
    {envA : Env SysCall Ans (Process D) σ} {envB : Env SysCall Ans (Process D) σ'} {stA : σ}
    {stB : σ'} {mA mB : Process D} {pSocket : ObjId} {typeName : StdString} {peerAddr : SockAddr}
    {stateA stateB : StateMap D} {localB : Bool} (hregA : mA.shared.Registered typeName)
    (hA : mA.shared.mStates[typeName]? = some stateA) (hregB : mB.shared.Registered typeName)
    (hB : mB.shared.mStates[typeName]? = some stateB)
    (hrequest : platB.toStateSlice (platA.fromStateSlice stateA) = stateA)
    (hanswer : platA.toStateSlice (platB.fromStateSlice
        (mergeState platB.host.authorPlaceOlder (!localB) stateB stateA))
      = mergeState platB.host.authorPlaceOlder (!localB) stateB stateA)
    (hsession : CompleteSession (fun addr => platB.host.isLoopbackNet addr = localB)
      ((syncWithPeer platA typeName peerAddr .storage).exec envA ⟨stA, mA, []⟩)
      ((handleReqSyncConnection platB pSocket .storage).exec envB ⟨stB, mB, []⟩)) :
    Exchanged platA.host.authorPlaceOlder platB.host.authorPlaceOlder
      (!platA.host.isLoopbackNet peerAddr) (!localB) typeName stateA stateB mA.shared mB.shared
      ((syncWithPeer platA typeName peerAddr .storage).exec envA ⟨stA, mA, []⟩).2
      ((handleReqSyncConnection platB pSocket .storage).exec envB ⟨stB, mB, []⟩).2 := by
  obtain ⟨-, -, hserver⟩ := exec_returns (handleReqSyncConnection_done ⟨rfl, rfl⟩)
    hsession.serverAlone hsession.serverReturns
  obtain ⟨-, -, hclient⟩ := exec_returns (syncWithPeer_done ⟨rfl, rfl⟩)
    hsession.clientAlone hsession.clientReturns
  obtain ⟨addr, changesA, changesB, sA', sB', hlocal, hmergedB, hmergedA, ⟨hsharedA, hmarksA⟩,
    hsharedB, hmarksB⟩ := hsession.merges hclient hserver
  -- the merge of the server
  rw [hA, Option.getD_some] at hmergedB
  obtain ⟨rfl, rfl⟩ := hmergedB.of_registered hregB hB hrequest
  rw [hlocal] at *
  have hstateB := SharedState.setState_getElem?_self mB.shared typeName (mergeState
    platB.host.authorPlaceOlder (!localB) stateB stateA)
  -- the merge of the client
  rw [touch_of_some hstateB, hstateB, Option.getD_some] at hmergedA
  obtain ⟨rfl, rfl⟩ := hmergedA.of_registered hregA hA hanswer
  exact {
    server_shared := by rw [hsharedB, touch_of_some hstateB]
    client_shared := hsharedA
    server_merged := hmarksB
    client_merged := hmarksA }

/-- **Agreement after a session.** Whatever the system does to the two runs, after
a complete session over addresses that are not local the nodes hold the same entry
for every key that is not locked, and for a locked one each what it had. -/
theorem session_agreement [BEq D] (platA platB : Platform D)
    (envA : Env SysCall Ans (Process D) σ) (envB : Env SysCall Ans (Process D) σ') (stA : σ)
    (stB : σ') (mA mB : Process D) (pSocket : ObjId) (typeName : StdString) (peerAddr : SockAddr)
    (stateA stateB : StateMap D) (hregA : mA.shared.Registered typeName)
    (hA : mA.shared.mStates[typeName]? = some stateA) (hregB : mB.shared.Registered typeName)
    (hB : mB.shared.mStates[typeName]? = some stateB)
    (hremote : platA.host.isLoopbackNet peerAddr = false)
    (hrequest : platB.toStateSlice (platA.fromStateSlice stateA) = stateA)
    (hanswer : platA.toStateSlice (platB.fromStateSlice
        (mergeState platB.host.authorPlaceOlder true stateB stateA))
      = mergeState platB.host.authorPlaceOlder true stateB stateA) :
    let client := (syncWithPeer platA typeName peerAddr .storage).exec envA ⟨stA, mA, []⟩
    let server := (handleReqSyncConnection platB pSocket .storage).exec envB ⟨stB, mB, []⟩
    CompleteSession (fun addr => platB.host.isLoopbackNet addr = false) client server →
      ∃ stateA' stateB', client.2.mem.shared.mStates[typeName]? = some stateA' ∧
        server.2.mem.shared.mStates[typeName]? = some stateB' ∧
        ∀ k, AgreeUnlessLocked platA.host.authorPlaceOlder platB.host.authorPlaceOlder
          stateA stateB stateA' stateB' k := by
  intro client server hsession
  have hexchanged := hsession.exchanged hregA hA hregB hB hrequest (by exact hanswer)
  rw [hremote, Bool.not_false] at hexchanged
  refine ⟨_, _, ?_, ?_, exchange_agrees platA.host.authorPlaceOlder platB.host.authorPlaceOlder
    stateA stateB⟩
  · rw [hexchanged.client_shared, SharedState.setState_getElem?_self]
  · rw [hexchanged.server_shared, SharedState.setState_getElem?_self]

end Session

/-- The runs on a socket that is always ready are undisturbed. -/
lemma readySocket_alone {far : SockAddr → Prop} (hfar : far []) (p : Io D α) (stream : StdString)
    (m : Process D) : Meets (Alone far) [] (p.exec readySocket ⟨stream, m, []⟩).2.trace := by
  have hcall : ∀ (w : World SysCall Ans (Process D) Mark StdString) (c : SysCall), True →
      Alone far w.trace (.called w.mem c (readySocket.answer w.env w.mem c).1) ∧ True := by
    rintro w c -
    cases c with
    | getpeername fd => exact ⟨hfar, trivial⟩
    | _ => exact ⟨trivial, trivial⟩
  obtain ⟨items, htrace, hmeets⟩ := exec_meets (R := Alone far) (J := fun _ => True) hcall
    (fun w _ => ⟨rfl, trivial⟩) (fun _ _ _ => trivial) (fun w e _ => ⟨trivial, trivial⟩) p
    (w := ⟨stream, m, []⟩) trivial
  rw [htrace]
  exact hmeets

/-- Two runs on sockets that are always ready, by their marks. -/
lemma completeSession_readySocket {far : SockAddr → Prop} (hfar : far []) {p q : Io D Bool}
    {streamA streamB : StdString} {mA mB : Process D} (marksA marksB : List Mark)
    (hclient : (p.exec readySocket ⟨streamA, mA, []⟩).1.isSome ∧
      marks (p.exec readySocket ⟨streamA, mA, []⟩).2.trace = marksA)
    (hserver : (q.exec readySocket ⟨streamB, mB, []⟩).1.isSome ∧
      marks (q.exec readySocket ⟨streamB, mB, []⟩).2.trace = marksB)
    (hrequest : ∀ typeName data, .messageIn typeName data ∈ marksB →
      .messageOut typeName data ∈ marksA)
    (hanswer : ∀ typeName data, .messageIn typeName data ∈ marksA →
      .messageOut typeName data ∈ marksB)
    (hmerged : ∃ typeName changes, .merged typeName changes ∈ marksA) :
    CompleteSession far (p.exec readySocket ⟨streamA, mA, []⟩)
      (q.exec readySocket ⟨streamB, mB, []⟩) where
  clientReturns := Option.isSome_iff_ne_none.mp hclient.1
  serverReturns := Option.isSome_iff_ne_none.mp hserver.1
  clientAlone := readySocket_alone trivial _ _ _
  serverAlone := readySocket_alone hfar _ _ _
  request := by
    rw [Delivered, hclient.2, hserver.2]
    exact hrequest
  answer := by
    rw [Delivered, hclient.2, hserver.2]
    exact hanswer
  merged := by
    rw [hclient.2]
    exact hmerged

/-- The session of a client that brings an entry to a server without it. -/
lemma sampleSession_complete : CompleteSession (fun _ => false = false)
    ((syncWithPeer (samplePlatform (bytes "a")) (bytes "A") [] .storage).exec readySocket
      ⟨serverStream sampleText, sampleProcess sampleSlice, []⟩)
    ((handleReqSyncConnection (samplePlatform (bytes "b")) 0 .storage).exec readySocket
      ⟨clientStream (acknowledgement sampleText), sampleProcess ∅, []⟩) :=
  completeSession_readySocket (by rfl)
    [.registered 1, .messageOut (bytes "A") sampleText, .messageIn (bytes "A") sampleText,
      .merged (bytes "A") 0, .bubbled .ioError]
    [.messageIn (bytes "A") sampleText, .merged (bytes "A") 1,
      .messageOut (bytes "A") sampleText, .bubbled .ioError, .notifyHooks (bytes "A")]
    (by decide +kernel) (by decide +kernel) (by simp) (by simp) ⟨bytes "A", 0, by simp⟩

/-- A client that brings an entry to a server without it: both hold it then. -/
theorem session_agreement_sample :
    let client := (syncWithPeer (samplePlatform (bytes "a")) (bytes "A") [] .storage).exec
      readySocket ⟨serverStream sampleText, sampleProcess sampleSlice, []⟩
    let server := (handleReqSyncConnection (samplePlatform (bytes "b")) 0 .storage).exec
      readySocket ⟨clientStream (acknowledgement sampleText), sampleProcess ∅, []⟩
    ∃ stateA' stateB', client.2.mem.shared.mStates[bytes "A"]? = some stateA' ∧
      server.2.mem.shared.mStates[bytes "A"]? = some stateB' ∧
      ∀ k, AgreeUnlessLocked (bytes "a") (bytes "b") sampleSlice ∅ stateA' stateB' k :=
  session_agreement (samplePlatform (bytes "a")) (samplePlatform (bytes "b")) readySocket
    readySocket _ _ (sampleProcess sampleSlice) (sampleProcess ∅) 0 (bytes "A") [] sampleSlice ∅
    ⟨by decide +kernel, by decide +kernel⟩ (by decide +kernel)
    ⟨by decide +kernel, by decide +kernel⟩ (by decide +kernel) rfl (by decide +kernel)
    (by decide +kernel) sampleSession_complete

end SharedStateAsync
