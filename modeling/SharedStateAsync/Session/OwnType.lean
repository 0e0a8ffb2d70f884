/-
The types a client session touches.

A client asks for one type, but merges the answer under the name the answer itself
carries, and calls the hooks of that name. What the session writes is therefore up
to the peer.

* `KeepsOthers`, `TouchesOnly`: the session of a type leaves the states and the
  hooks of all others alone;
* `OtherAnswers`: what is asked of an answer that names another type;
* `BringsNothing`, `SelfEqual`: such an answer has nothing the store would take, and nothing
  it would count all the same;
* `syncWithPeer_touchesOnly_iff`: a session touches its own type only, if all such
  answers bring nothing and either count nothing or come to an early end, and only then.
-/
import SharedStateAsync.Session.ClientHooks

namespace SharedStateAsync

open Coro ByteOrder

variable {D σ : Type}

/-- The states of all types but `typeName` are the same. -/
def KeepsOthers (typeName : StdString) (m m' : Process D) : Prop :=
  ∀ t, t ≠ typeName → m'.shared.mStates[t]? = m.shared.mStates[t]?

/-- Of what the run wrote itself, from memory `m` on, all states but that of
`typeName` are left as they were, and no hooks of any other type were called. -/
structure TouchesOnly (typeName : StdString) (m : Process D)
    (w : World SysCall Ans (Process D) Mark σ) : Prop where
  ownWrites : OwnWrites (KeepsOthers typeName) m w.trace w.mem
  noHooks : ∀ t, t ≠ typeName → .notifyHooks t ∉ marks w.trace

/-- Whenever a message of another type than `typeName` has come in, `C` holds of
the store, of that type and of the message. -/
def OtherAnswers (typeName : StdString) (C : SharedState D → StdString → StdString → Prop) :
    Rely SysCall Ans (Process D) Mark
  | t, .called m .steadyClock _ => ∀ t' data, t.getLast? = some (.marked (.messageIn t' data)) →
      t' ≠ typeName → C m.shared t' data
  | _, _ => True

/-- What the slice holds the store does not take: the type has no state or no
configuration, or every entry is known as it is or dropped. -/
def BringsNothing (P : Platform D) (peerAddr : SockAddr) (s : SharedState D)
    (t data : StdString) : Prop :=
  ∀ tState conf, s.mStates[t]? = some tState → s.mTypeConf[t]? = some conf →
    NothingNew P.host.authorPlaceOlder (!P.host.isLoopbackNet peerAddr) tState
      (P.toStateSlice data)

/-- What the slice holds just as it is known has data that are equal to themselves. A merge
counts it otherwise, although nothing changes. -/
def SelfEqual [BEq D] (P : Platform D) (s : SharedState D) (t data : StdString) : Prop :=
  ∀ tState, s.mStates[t]? = some tState → ∀ (k : StateKey) (e : StateEntry D),
    (P.toStateSlice data)[k]? = some e → tState[k]? = some e → e.mData == e.mData

/-- What the code relies on: a type that has a state has a configuration. -/
def Configured (s : SharedState D) (t _data : StdString) : Prop :=
  s.mStates[t]?.isSome → s.mTypeConf[t]?.isSome

section KeepsOthers

variable {typeName : StdString} {m m' m'' : Process D}

lemma KeepsOthers.refl (typeName : StdString) (m : Process D) : KeepsOthers typeName m m :=
  fun _ _ => rfl

lemma KeepsOthers.trans (h : KeepsOthers typeName m m') (h' : KeepsOthers typeName m' m'') :
    KeepsOthers typeName m m'' :=
  fun t ht => (h' t ht).trans (h t ht)

lemma KeepsShared.keepsOthers (h : KeepsShared m m') : KeepsOthers typeName m m' := by
  intro t _
  rw [h]

end KeepsOthers

/-! ### Own writes along a session -/

section OwnWrites

variable {typeName : StdString} {m₀ m m' : Process D} {t : Trace D}

/-- One more call or return from the others, after what was written. -/
lemma ownWrites_called_self {c : SysCall} {a : Ans c} :
    OwnWrites (KeepsOthers typeName) m₀ (t ++ [.called m c a]) m ↔
      OwnWrites (KeepsOthers typeName) m₀ t m := by
  rw [ownWrites_called]
  exact and_iff_left (KeepsOthers.refl typeName m)

lemma ownWrites_resumed_self :
    OwnWrites (KeepsOthers typeName) m₀ (t ++ [.resumed m m']) m' ↔
      OwnWrites (KeepsOthers typeName) m₀ t m := by
  rw [ownWrites_resumed]
  exact and_iff_left (KeepsOthers.refl typeName m')

lemma ownWrites_keepsShared (h : KeepsShared m m') :
    OwnWrites (KeepsOthers typeName) m₀ t m' ↔ OwnWrites (KeepsOthers typeName) m₀ t m := by
  have htrans : ∀ a b c : Process D, KeepsOthers typeName a b → KeepsOthers typeName b c →
      KeepsOthers typeName a c := fun _ _ _ => KeepsOthers.trans
  have hback : KeepsShared m' m := h.symm
  exact ⟨fun hown => hown.trans htrans hback.keepsOthers,
    fun hown => hown.trans htrans h.keepsOthers⟩

end OwnWrites

/-! ### The answer -/

section Answer

variable {typeName : StdString} {m₀ m : Process D} {t : Trace D} {P : Platform D}
  {peerAddr : SockAddr} {errbub : ErrBub}

/-- Putting a state in place keeps the others if it is that of the type itself, or
the one that is there already. -/
lemma keepsOthers_setState_iff {t' : StdString} {tState : StateMap D} :
    KeepsOthers typeName m { m with shared := m.shared.setState t' tState } ↔
      (t' ≠ typeName → m.shared.mStates[t']? = some tState) := by
  constructor
  · intro h hne
    exact (h t' hne).symm.trans (m.shared.setState_getElem?_self t' tState)
  · intro h u hu
    rw [SharedState.setState_getElem?]
    split_ifs with heq
    · subst heq
      exact (h hu).symm
    · rfl

/-- Only the type itself was written so far. -/
def OwnOnly (typeName : StdString) (m₀ m : Process D) (t : Trace D) : Prop :=
  OwnWrites (KeepsOthers typeName) m₀ t m

lemma framed_ownOnly {R : Rely SysCall Ans (Process D) Mark} :
    Framed R (OwnOnly typeName m₀) (OwnOnly typeName m₀) where
  called := fun _ _ _ _ h _ => ownWrites_called_self.mpr h
  resumed := fun _ _ _ h _ => ownWrites_resumed_self.mpr h
  marked := fun _ _ _ _ h => ownWrites_marked.mpr h
  written := fun _ _ _ hm h => (ownWrites_keepsShared hm).mpr h
  exited := fun _ _ h => h

variable [BEq D]

/-- The merge of an answer that brings nothing to another type. -/
lemma mergeSlice_ownOnly {R : Rely SysCall Ans (Process D) Mark} {t' data : StdString}
    (hnothing : t' ≠ typeName → BringsNothing P peerAddr m.shared t' data)
    (h : OwnOnly typeName m₀ m t) :
    wp R (OwnOnly typeName m₀) (mergeSlice P t' (P.toStateSlice data) peerAddr errbub)
      (fun _ => OwnOnly typeName m₀) m t := by
  rw [mergeSlice, wp_bind, wp_memory]
  rcases m.shared.merge_cases P.host t' (P.toStateSlice data) peerAddr with
    ⟨tState, conf, hstate, hconf, hmerge⟩ | ⟨-, hmerge⟩ | ⟨tState, hstate, hconf, hmerge⟩
  · rw [hmerge]
    refine ownWrites_marked.mpr (OwnWrites.trans (fun _ _ _ => KeepsOthers.trans) h ?_)
    refine keepsOthers_setState_iff.mpr fun hne => ?_
    rw [mergeState_eq_self_iff.mpr (hnothing hne tState conf hstate hconf), hstate]
  · rw [hmerge]
    cases errbub with
    | null => exact h
    | storage => exact ownWrites_marked.mpr h
  · rw [hmerge]
    exact fun changes _ => ownWrites_marked.mpr (ownWrites_called_self.mpr h)

/-- A session all of whose answers of other types bring nothing. -/
lemma syncWithPeer_ownOnly (P : Platform D) (typeName : StdString) (peerAddr : SockAddr)
    (errbub : ErrBub) (m : Process D) :
    wp (OtherAnswers typeName (BringsNothing P peerAddr))
      (OwnOnly typeName m) (syncWithPeer P typeName peerAddr errbub)
      (fun _ => OwnOnly typeName m) m [] := by
  refine (ClientPhases.ofInvariant framed_ownOnly ?_ ?_).wp_syncWithPeer ?_
  · exact fun m t e _ h => ownWrites_marked.mpr h
  · intro t' data m t tick h hR
    exact mergeSlice_ownOnly (hR t' data List.getLast?_concat)
      (ownWrites_called_self.mpr (ownWrites_marked.mpr h))
  · exact KeepsOthers.refl typeName m

omit [BEq D] in
/-- After a step that is no message none is waiting for its merge. -/
lemma settled_concat {i : Step D} (hi : ∀ t' data, i ≠ .marked (.messageIn t' data)) :
    ∀ t' data, (t ++ [i]).getLast? ≠ some (.marked (.messageIn t' data)) := by
  intro t' data hlast
  rw [List.getLast?_concat] at hlast
  exact hi t' data (Option.some.inj hlast)

omit [BEq D] in
/-- An answer is in, and the clock is read. -/
lemma meets_answered {C : SharedState D → StdString → StdString → Prop} {t' data : StdString}
    {tick : ℤ} :
    Meets (OtherAnswers typeName C) []
        (t ++ [.marked (.messageIn t' data)] ++ [.called m .steadyClock tick]) ↔
      Meets (OtherAnswers typeName C) [] t ∧ (t' ≠ typeName → C m.shared t' data) := by
  rw [meets_append, meets_append, meets_singleton, meets_singleton, and_assoc]
  refine and_congr_right fun _ => ⟨fun hall => hall.2 t' data ?_, fun hall => ⟨trivial, ?_⟩⟩
  · rw [List.nil_append, List.getLast?_concat]
  · rintro t'' data' hlast
    rw [List.nil_append, List.getLast?_concat] at hlast
    obtain ⟨⟩ := hlast
    exact hall

/-! ### What is counted -/

/-- Merges of other types than `typeName` counted no changes. -/
def OthersUncounted (typeName : StdString) (t : Trace D) : Prop :=
  ∀ t' changes, .merged t' changes ∈ marks t → t' ≠ typeName → changes ≤ 0

omit [BEq D] in
lemma othersUncounted_concat {i : Step D} :
    OthersUncounted typeName (t ++ [i]) ↔ OthersUncounted typeName t ∧
      ∀ t' changes, i = .marked (.merged t' changes) → t' ≠ typeName → changes ≤ 0 := by
  constructor
  · refine fun h => ⟨fun t' changes hmem => h t' changes ?_, fun t' changes hi => h t' changes ?_⟩
    · rw [marks_append]
      exact List.mem_append_left _ hmem
    · rw [hi]
      exact mem_marks.mpr (List.mem_append_right _ (List.mem_singleton_self _))
  · rintro ⟨ht, hi⟩ t' changes hmem
    rcases List.mem_append.mp (mem_marks.mp hmem) with hmem | hmem
    · exact ht t' changes (mem_marks.mpr hmem)
    · exact hi t' changes (List.mem_singleton.mp hmem).symm

/-- So far merges of other types counted changes exactly where data were not equal to
themselves. No answer is waiting for its merge. -/
structure Tally (P : Platform D) (typeName : StdString) (t : Trace D) : Prop where
  uncounted_iff : OthersUncounted typeName t ↔
    Meets (OtherAnswers typeName (SelfEqual P)) [] t
  settled : ∀ t' data, t.getLast? ≠ some (.marked (.messageIn t' data))

/-- A step that is neither a merge nor a message. -/
lemma Tally.concat (h : Tally P typeName t) {i : Step D}
    (hi : ∀ e, i = .marked e → e.isAnswer = false) : Tally P typeName (t ++ [i]) where
  uncounted_iff := by
    have hmerged : ∀ t' changes, i = .marked (.merged t' changes) → t' ≠ typeName →
        changes ≤ 0 := by
      rintro t' changes rfl
      cases hi _ rfl
    have hstep : OtherAnswers typeName (SelfEqual P) t i := by
      cases i with
      | called m c a =>
          cases c with
          | steadyClock => exact fun t' data hlast => absurd hlast (h.settled t' data)
          | _ => trivial
      | _ => trivial
    rw [othersUncounted_concat, meets_append, meets_singleton, h.uncounted_iff]
    exact and_congr_right fun _ => iff_of_true hmerged hstep
  settled := by
    refine settled_concat ?_
    rintro t' data rfl
    cases hi _ rfl

lemma framed_tally {R : Rely SysCall Ans (Process D) Mark} :
    Framed R (fun _ => Tally P typeName) fun _ => Tally P typeName := by
  refine framed_of_trace (fun t i hi h => h.concat ?_) fun _ h => h
  rintro e rfl
  cases e with
  | _ => first | rfl | cases hi

/-- An answer that names `t'` is in, and not counted yet. It is to count no change, if its type is
another one and its data are equal to themselves, and only then. -/
structure TallyDue (P : Platform D) (typeName t' data : StdString) (s : SharedState D)
    (t : Trace D) : Prop where
  uncounted_iff : (OthersUncounted typeName t ∧ (t' ≠ typeName → SelfEqual P s t' data)) ↔
    Meets (OtherAnswers typeName (SelfEqual P)) [] t
  settled : ∀ t'' data', t.getLast? ≠ some (.marked (.messageIn t'' data'))

section TallyDue

variable {t' data : StdString}

/-- Its merge starts. -/
lemma Tally.answered (h : Tally P typeName t) (t' data : StdString) (tick : ℤ) :
    TallyDue P typeName t' data m.shared
      (t ++ [.marked (.messageIn t' data)] ++ [.called m .steadyClock tick]) where
  uncounted_iff := by
    have hunc : OthersUncounted typeName
        (t ++ [.marked (.messageIn t' data)] ++ [.called m .steadyClock tick]) ↔
          OthersUncounted typeName t := by
      rw [othersUncounted_concat, othersUncounted_concat]
      refine (and_iff_left ?_).trans (and_iff_left ?_)
      · rintro _ _ ⟨⟩
      · rintro _ _ ⟨⟩
    rw [hunc, h.uncounted_iff, meets_answered]
  settled := settled_concat (by rintro _ _ ⟨⟩)

/-- A step before the merge returns. -/
lemma TallyDue.called (h : TallyDue P typeName t' data m.shared t) (a : Ans .indeterminate) :
    TallyDue P typeName t' data m.shared (t ++ [.called m .indeterminate a]) where
  uncounted_iff := by
    rw [meets_append, ← h.uncounted_iff, othersUncounted_concat, meets_singleton]
    refine (and_congr_left' (and_iff_left ?_)).trans (and_iff_left trivial).symm
    rintro _ _ ⟨⟩
  settled := settled_concat (by rintro _ _ ⟨⟩)

/-- The merge counts what it is to count. -/
lemma TallyDue.merged {s : SharedState D} (h : TallyDue P typeName t' data s t) {changes : ℤ}
    (hcount : t' ≠ typeName → (changes ≤ 0 ↔ SelfEqual P s t' data)) :
    Tally P typeName (t ++ [.marked (.merged t' changes)]) where
  uncounted_iff := by
    rw [othersUncounted_concat, meets_append, meets_singleton, ← h.uncounted_iff]
    refine (and_congr_right fun _ => Iff.trans ⟨fun hall => hall t' changes rfl, ?_⟩
      (forall_congr' hcount)).trans (and_iff_left trivial).symm
    rintro hle _ _ ⟨⟩
    exact hle
  settled := settled_concat (by rintro _ _ ⟨⟩)

/-- There is nothing to merge it into. -/
lemma TallyDue.tally {s : SharedState D} (h : TallyDue P typeName t' data s t)
    (hstate : s.mStates[t']? = none) : Tally P typeName t where
  uncounted_iff := by
    rw [← h.uncounted_iff]
    refine (and_iff_left fun _ tState hstate' => ?_).symm
    rw [hstate] at hstate'
    cases hstate'
  settled := h.settled

end TallyDue

/-- A merge into a state whose entries the slice leaves as they are: it counts the data that are
not equal to themselves. -/
lemma significantChanges_nonpos_iff {s : SharedState D} {t' data : StdString} {tState : StateMap D}
    (hstate : s.mStates[t']? = some tState)
    (hnew : NothingNew P.host.authorPlaceOlder (!P.host.isLoopbackNet peerAddr) tState
      (P.toStateSlice data)) :
    (mergeLoop P.host.authorPlaceOlder (!P.host.isLoopbackNet peerAddr) tState
      (P.toStateSlice data)).significantChanges ≤ 0 ↔ SelfEqual P s t' data := by
  have hnonneg := significantChanges_nonneg P.host.authorPlaceOlder
    (!P.host.isLoopbackNet peerAddr) tState (P.toStateSlice data)
  rw [le_antisymm_iff.trans (and_iff_left hnonneg) |>.symm, significantChanges_eq_zero_iff hnew]
  refine ⟨fun hdata tState' hstate' => ?_, fun hself => hself tState hstate⟩
  obtain rfl := Option.some.inj (hstate.symm.trans hstate')
  exact hdata

/-- The merge of an answer that brings nothing to another type, which is registered. -/
lemma mergeSlice_tally {R : Rely SysCall Ans (Process D) Mark} {t' data : StdString} {tick : ℤ}
    (hconfigured : t' ≠ typeName → Configured m.shared t' data)
    (hnothing : t' ≠ typeName → BringsNothing P peerAddr m.shared t' data)
    (h : Tally P typeName t) :
    wp R (fun _ => Tally P typeName) (mergeSlice P t' (P.toStateSlice data) peerAddr errbub)
      (fun _ _ => Tally P typeName) m
      (t ++ [.marked (.messageIn t' data)] ++ [.called m .steadyClock tick]) := by
  have hdue := h.answered (m := m) t' data tick
  rw [mergeSlice, wp_bind, wp_memory]
  rcases m.shared.merge_cases P.host t' (P.toStateSlice data) peerAddr with
    ⟨tState, conf, hstate, hconf, hmerge⟩ | ⟨hstate, hmerge⟩ | ⟨tState, hstate, hconf, hmerge⟩
  · rw [hmerge]
    exact hdue.merged fun hne =>
      significantChanges_nonpos_iff hstate (hnothing hne tState conf hstate hconf)
  · have htally := hdue.tally hstate
    rw [hmerge]
    cases errbub with
    | null => exact htally
    | storage => exact htally.concat (by rintro e ⟨⟩; rfl)
  · -- the type of the session itself: another one with a state has a configuration
    have heq : t' = typeName := by
      by_contra hne
      have hsome := hconfigured hne (by rw [hstate]; rfl)
      rw [hconf] at hsome
      cases hsome
    rw [hmerge]
    exact fun changes _ => (hdue.called changes).merged fun hne => absurd heq hne

/-- A session all of whose answers of other types bring nothing. -/
lemma syncWithPeer_tally (P : Platform D) (typeName : StdString) (peerAddr : SockAddr)
    (errbub : ErrBub) (m : Process D) :
    wp (fun t i => OtherAnswers typeName Configured t i ∧
        OtherAnswers typeName (BringsNothing P peerAddr) t i)
      (fun _ => Tally P typeName) (syncWithPeer P typeName peerAddr errbub)
      (fun _ _ => Tally P typeName) m [] := by
  refine (ClientPhases.ofInvariant framed_tally ?_ ?_).wp_syncWithPeer ?_
  · intro m t e he h
    refine h.concat ?_
    rintro e' ⟨⟩
    exact he
  · intro t' data m t tick h hR
    exact mergeSlice_tally (hR.1 t' data List.getLast?_concat)
      (hR.2 t' data List.getLast?_concat) h
  · exact ⟨iff_of_true (by rintro t' changes ⟨⟩) trivial, fun t' data hlast => by cases hlast⟩

/-! ### The converse -/

/-- If only the type itself was written so far, all answers of others brought
nothing. No answer is waiting for its merge. -/
structure Betrays (P : Platform D) (typeName : StdString) (peerAddr : SockAddr)
    (m₀ m : Process D) (t : Trace D) : Prop where
  brings : OwnWrites (KeepsOthers typeName) m₀ t m →
    Meets (OtherAnswers typeName (BringsNothing P peerAddr)) [] t
  settled : ∀ t' data, t.getLast? ≠ some (.marked (.messageIn t' data))

omit [BEq D] in
lemma Betrays.marked (h : Betrays P typeName peerAddr m₀ m t) {e : Mark}
    (he : ∀ t' data, e ≠ .messageIn t' data) :
    Betrays P typeName peerAddr m₀ m (t ++ [.marked e]) where
  brings := fun hown =>
    meets_append.mpr ⟨h.brings (ownWrites_marked.mp hown), trivial, trivial⟩
  settled := settled_concat fun t' data heq => he t' data (Item.marked.inj heq)

omit [BEq D] in
lemma Betrays.called (h : Betrays P typeName peerAddr m₀ m t) {c : SysCall} {a : Ans c} :
    Betrays P typeName peerAddr m₀ m (t ++ [.called m c a]) where
  brings := fun hown => by
    refine meets_append.mpr ⟨h.brings (ownWrites_called_self.mp hown), ?_, trivial⟩
    cases c with
    | steadyClock => exact fun t' data hlast => absurd hlast (h.settled t' data)
    | _ => trivial
  settled := settled_concat (by rintro _ _ ⟨⟩)

omit [BEq D] in
lemma framed_betrays {R : Rely SysCall Ans (Process D) Mark} :
    Framed R (Betrays P typeName peerAddr m₀) (Betrays P typeName peerAddr m₀) where
  called := fun _ _ _ _ h _ => h.called
  resumed := fun _ _ _ h _ =>
    { brings := fun hown =>
        meets_append.mpr ⟨h.brings (ownWrites_resumed_self.mp hown), trivial, trivial⟩
      settled := settled_concat (by rintro _ _ ⟨⟩) }
  marked := fun _ _ e he h => h.marked (by rintro t' data rfl; cases he)
  written := fun _ _ _ hm h =>
    ⟨fun hown => h.brings ((ownWrites_keepsShared hm).mp hown), h.settled⟩
  exited := fun _ _ h => h

omit [BEq D] in
/-- An answer came in, and its merge starts. -/
lemma Betrays.answered (h : Betrays P typeName peerAddr m₀ m t) {t' data : StdString} {tick : ℤ}
    (hbrings : t' ≠ typeName → BringsNothing P peerAddr m.shared t' data) :
    Betrays P typeName peerAddr m₀ m
      (t ++ [.marked (.messageIn t' data)] ++ [.called m .steadyClock tick]) where
  brings := fun hown => by
    have hbefore := h.brings (ownWrites_marked.mp (ownWrites_called_self.mp hown))
    exact meets_answered.mpr ⟨hbefore, hbrings⟩
  settled := settled_concat (by rintro _ _ ⟨⟩)

/-- A merge that leaves all other types alone had nothing for them. -/
lemma mergeSlice_betrays {R : Rely SysCall Ans (Process D) Mark} {t' data : StdString} {tick : ℤ}
    (h : Betrays P typeName peerAddr m₀ m t) :
    wp R (Betrays P typeName peerAddr m₀)
      (mergeSlice P t' (P.toStateSlice data) peerAddr errbub)
      (fun _ => Betrays P typeName peerAddr m₀) m
      (t ++ [.marked (.messageIn t' data)] ++ [.called m .steadyClock tick]) := by
  rw [mergeSlice, wp_bind, wp_memory]
  rcases m.shared.merge_cases P.host t' (P.toStateSlice data) peerAddr with
    ⟨tState, conf, hstate, hconf, hmerge⟩ | ⟨hstate, hmerge⟩ | ⟨tState, hstate, hconf, hmerge⟩
  · rw [hmerge]
    refine Betrays.marked ⟨fun hown => ?_, settled_concat (by rintro _ _ ⟨⟩)⟩
      (by rintro t'' data' ⟨⟩)
    obtain ⟨hbefore, hkeeps⟩ := ownWrites_called.mp hown
    refine (h.answered fun hne tState' conf' hstate' _ => ?_).brings
      (ownWrites_called_self.mpr hbefore)
    obtain rfl := Option.some.inj (hstate.symm.trans hstate')
    have hsame := keepsOthers_setState_iff.mp hkeeps hne
    exact mergeState_eq_self_iff.mp (Option.some.inj (hsame.symm.trans hstate))
  · have hnothing : BringsNothing P peerAddr m.shared t' data := by
      intro tState conf hstate' _
      rw [hstate] at hstate'
      cases hstate'
    rw [hmerge]
    cases errbub with
    | null => exact h.answered fun _ => hnothing
    | storage => exact (h.answered fun _ => hnothing).marked (by rintro t'' data' ⟨⟩)
  · have hnothing : BringsNothing P peerAddr m.shared t' data := by
      intro tState conf _ hconf'
      rw [hconf] at hconf'
      cases hconf'
    rw [hmerge]
    exact fun changes _ => (h.answered fun _ => hnothing).called.marked (by rintro t'' data' ⟨⟩)

lemma syncWithPeer_betrays (P : Platform D) (typeName : StdString) (peerAddr : SockAddr)
    (errbub : ErrBub) (m : Process D) :
    wp (fun _ _ => True) (Betrays P typeName peerAddr m) (syncWithPeer P typeName peerAddr errbub)
      (fun _ => Betrays P typeName peerAddr m) m [] := by
  refine (ClientPhases.ofInvariant framed_betrays ?_ ?_).wp_syncWithPeer ?_
  · intro m t e he h
    refine h.marked ?_
    rintro t' data rfl
    cases he
  · exact fun t' data m t tick h _ => mergeSlice_betrays h
  · exact ⟨fun _ => trivial, fun t' data hlast => by cases hlast⟩

end Answer

/-! ### Sessions -/

/-- **The types a session touches.** Whatever the types, the state and the peer's bytes are, and
whatever the others do in between: a client session leaves the states and the hooks of all
other types alone exactly when every answer that names another type brings nothing to it, and
either its data are equal to themselves or the session ends before the hooks. -/
theorem syncWithPeer_touchesOnly_iff [BEq D] (P : Platform D)
    (env : Env SysCall Ans (Process D) σ) (st : σ) (m : Process D) (typeName : StdString)
    (peerAddr : SockAddr) (errbub : ErrBub) :
    let run := (syncWithPeer P typeName peerAddr errbub).exec env ⟨st, m, []⟩
    Meets (OtherAnswers typeName Configured) [] run.2.trace →
      (TouchesOnly typeName m run.2 ↔
        Meets (OtherAnswers typeName (BringsNothing P peerAddr)) [] run.2.trace ∧
          (Meets (OtherAnswers typeName (SelfEqual P)) [] run.2.trace ∨
            Meets (EndsEarly P errbub) [] run.2.trace)) := by
  intro run hconfigured
  have hhooks : Ends _ _ run :=
    wp_sound_nil (syncWithPeer_hooks_iff P typeName peerAddr errbub m) (meets_true _ _)
  have htally : Meets (OtherAnswers typeName (BringsNothing P peerAddr)) [] run.2.trace →
      Tally P typeName run.2.trace := fun hnothing =>
    (wp_sound_nil (syncWithPeer_tally P typeName peerAddr errbub m)
      (meets_and.mpr ⟨hconfigured, hnothing⟩) : Ends _ _ run).of_same
  constructor
  · intro htouches
    have hbetrays : Ends _ _ run :=
      wp_sound_nil (syncWithPeer_betrays P typeName peerAddr errbub m) (meets_true _ _)
    have hnothing := hbetrays.of_same.brings htouches.ownWrites
    refine ⟨hnothing, or_iff_not_imp_right.mpr fun hlate => ?_⟩
    -- nothing was counted, or the hooks would have been called
    refine (htally hnothing).uncounted_iff.mp fun t' changes hmerged hne => ?_
    by_contra hpos
    exact htouches.noHooks t' hne
      ((hhooks.of_same t').mpr ⟨hlate, changes, not_le.mp hpos, hmerged⟩)
  · rintro ⟨hnothing, hquiet⟩
    have hown : Ends _ _ run :=
      wp_sound_nil (syncWithPeer_ownOnly P typeName peerAddr errbub m) hnothing
    refine ⟨hown.of_same, fun t' hne hmem => ?_⟩
    obtain ⟨hlate, changes, hpos, hmerged⟩ := (hhooks.of_same t').mp hmem
    rcases hquiet with hself | hearly
    · have hle := (htally hnothing).uncounted_iff.mpr hself t' changes hmerged hne
      omega
    · exact hlate hearly

/-! ### A peer that answers with another type -/

/-- A peer with the types `A` and `B`, and nothing of `A`. -/
def twoTypePeer (tState : StateMap ℕ) : Process ℕ where
  shared :=
    { mStates := ((∅ : OrdMap StdString (StateMap ℕ)).insert (bytes "A") ∅).insert (bytes "B")
        tState
      mTypeConf := ((∅ : OrdMap StdString DataTypeConf).insert (bytes "A")
        ⟨bytes "A", bytes "community", 30, 300⟩).insert (bytes "B")
        ⟨bytes "B", bytes "community", 30, 300⟩
      isPeer := true }

/-- A server that acknowledges the empty slice of `A` and answers with one of `B`. -/
def otherAnswer : StdString :=
  toBytes WIRE_PROTO_VERSION ++ acknowledgement emptyText
    ++ (NetworkMessage.mk (bytes "B") sampleText).frame

/-- The store as it was at a call holds the sample entry under `B`. -/
def holdsSample : Step ℕ → Bool
  | .called m _ _ => decide (m.shared.mStates[bytes "B"]? = some sampleSlice) &&
      m.shared.mTypeConf[bytes "B"]?.isSome
  | _ => true

lemma meets_otherAnswers {C : SharedState ℕ → StdString → StdString → Prop} {t items : Trace ℕ}
    (hmarks : ∀ t' data, .messageIn t' data ∈ marks (t ++ items) →
      t' = bytes "B" ∧ data = sampleText)
    (hC : ∀ s : SharedState ℕ, s.mStates[bytes "B"]? = some sampleSlice →
      s.mTypeConf[bytes "B"]?.isSome → C s (bytes "B") sampleText)
    (hitems : items.all holdsSample) : Meets (OtherAnswers (bytes "A") C) t items := by
  induction items generalizing t with
  | nil => trivial
  | cons i items ih =>
      rw [List.all_cons, Bool.and_eq_true] at hitems
      refine ⟨?_, ih (by rwa [List.append_assoc]) hitems.2⟩
      cases i with
      | called m c a =>
          cases c with
          | steadyClock =>
              intro t' data hlast _
              have hmem : .messageIn t' data ∈ marks (t ++ .called m .steadyClock a :: items) := by
                rw [marks_append]
                exact List.mem_append_left _ (mem_marks.mpr (List.mem_of_getLast? hlast))
              obtain ⟨rfl, rfl⟩ := hmarks t' data hmem
              have hstored := hitems.1
              rw [holdsSample, Bool.and_eq_true, decide_eq_true_iff] at hstored
              exact hC m.shared hstored.1 hstored.2
          | _ => trivial
      | resumed m m' => trivial
      | marked e => trivial

/-- A session of `A` that a server answers with an entry of `B` that is known: the
answer is merged, but touches nothing. -/
theorem syncWithPeer_touchesOnly_sample :
    let run := (syncWithPeer (samplePlatform (bytes "a")) (bytes "A") [] .storage).exec
      readySocket ⟨otherAnswer, twoTypePeer sampleSlice, []⟩
    .merged (bytes "B") 0 ∈ marks run.2.trace ∧
      TouchesOnly (bytes "A") (twoTypePeer sampleSlice) run.2 := by
  intro run
  have hrun : marks run.2.trace = [.registered 0, .messageOut (bytes "A") emptyText,
      .messageIn (bytes "B") sampleText, .merged (bytes "B") 0, .bubbled .ioError] := by
    decide +kernel
  have hmarks : ∀ t' data, .messageIn t' data ∈ marks ([] ++ run.2.trace) →
      t' = bytes "B" ∧ data = sampleText := by
    intro t' data hmem
    rw [List.nil_append, hrun] at hmem
    simpa using hmem
  have hitems : run.2.trace.all holdsSample := by decide +kernel
  have hslice : (samplePlatform (bytes "a")).toStateSlice sampleText = sampleSlice := if_pos rfl
  have hconfigured : Meets (OtherAnswers (bytes "A") Configured) [] run.2.trace :=
    meets_otherAnswers hmarks (fun s _ hconf _ => hconf) hitems
  have hself : Meets (OtherAnswers (bytes "A") (SelfEqual (samplePlatform (bytes "a")))) []
      run.2.trace :=
    meets_otherAnswers hmarks (fun _ _ _ _ _ _ _ _ _ => BEq.rfl) hitems
  refine ⟨by rw [hrun]; simp, (syncWithPeer_touchesOnly_iff (samplePlatform (bytes "a"))
    readySocket otherAnswer (twoTypePeer sampleSlice) (bytes "A") [] .storage hconfigured).mpr
    ⟨?_, Or.inl hself⟩⟩
  refine meets_otherAnswers hmarks (fun s hstate _ tState conf hstate' _ k e he => ?_) hitems
  obtain rfl := Option.some.inj (hstate.symm.trans hstate')
  rw [hslice] at he
  exact ⟨e, he, Or.inl rfl⟩

/-- A session of `A` that a server answers with an entry of `B`: the entry is
stored, and the hooks of `B` are called. -/
theorem other_type_touched :
    let run := (syncWithPeer (samplePlatform (bytes "a")) (bytes "A") [] .storage).exec
      readySocket ⟨otherAnswer, twoTypePeer ∅, []⟩
    run.2.mem.shared.mStates[bytes "B"]? = some sampleSlice ∧
      .notifyHooks (bytes "B") ∈ marks run.2.trace ∧
      ¬ TouchesOnly (bytes "A") (twoTypePeer ∅) run.2 := by
  intro run
  have hhooks : .notifyHooks (bytes "B") ∈ marks run.2.trace := by decide +kernel
  refine ⟨by decide +kernel, hhooks, fun htouches => ?_⟩
  exact htouches.noHooks (bytes "B") (by decide +kernel) hhooks

end SharedStateAsync
