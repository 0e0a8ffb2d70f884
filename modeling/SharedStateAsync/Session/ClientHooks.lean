/-
When a client session calls the hooks.

Between the merge and the hooks a session closes its socket and keeps the statistics, and
either can end it. It calls the hooks of the type it has merged if there were significant
changes, the statistics got complete, and the process is a peer; nothing else matters.

* `EndsEarly`: the statistics of a peer do not get complete;
* `HooksIff`: the hooks of the types with significant changes were called, or it was so;
* `Unanswered`, `Unmerged`, `StatsOpen`, `StatsKept`, `Told`: the stages of a session;
* `syncWithPeer_hooks_iff`: every session ends with `HooksIff`.
-/
import SharedStateAsync.Session.Hooks
import SharedStateAsync.Session.Phases
import SharedStateAsync.Session.Statistics

namespace SharedStateAsync

open Coro

variable {D : Type}

/-! ### The end of a session -/

/-- A message has come in. -/
def HasMessage (t : Trace D) : Prop := ∃ typeName data, .messageIn typeName data ∈ marks t

/-- Once a message has come in, no step completes the statistics of a peer: closing the file
after it was unlocked or, without locking, writing it. A file that does not open is no
failure, unless there is no error pointer. -/
def EndsEarly (P : Platform D) (errbub : ErrBub) : Rely SysCall Ans (Process D) Mark
  | t, .called m (.close _) r =>
      P.statFileLocking → HasMessage t → JustUnlocked t → m.shared.isPeer → ¬ r.isOk
  | t, .called m (.writeFile _ _) opened =>
      P.statFileLocking = false → HasMessage t → m.shared.isPeer → opened = false ∧ errbub = .null
  | _, _ => True

lemma HasMessage.concat {t : Trace D} (h : HasMessage t) (i : Step D) : HasMessage (t ++ [i]) := by
  obtain ⟨typeName, data, hmem⟩ := h
  refine ⟨typeName, data, ?_⟩
  rw [marks_append]
  exact List.mem_append_left _ hmem

/-! ### The stages of a session -/

section Stages

variable {typeName U : StdString} {changes : ℤ} {m : Process D} {t : Trace D} {P : Platform D}
  {peerAddr : SockAddr} {errbub : ErrBub}

/-- The hooks of the types with significant changes were called, unless the session has come to
an early end. -/
def HooksIff (P : Platform D) (errbub : ErrBub) (t : Trace D) : Prop :=
  ∀ U, .notifyHooks U ∈ marks t ↔
    ¬ Meets (EndsEarly P errbub) [] t ∧ ∃ changes, 0 < changes ∧ .merged U changes ∈ marks t

/-- A step that does not make this mark. -/
lemma mem_marks_concat {e : Mark} {i : Step D} (hi : i ≠ .marked e) :
    e ∈ marks (t ++ [i]) ↔ e ∈ marks t := by
  rw [mem_marks, mem_marks, List.mem_append, List.mem_singleton]
  exact or_iff_left hi.symm

lemma earlyMeets_concat {i : Step D} :
    Meets (EndsEarly P errbub) [] (t ++ [i]) ↔
      Meets (EndsEarly P errbub) [] t ∧ EndsEarly P errbub t i := by
  rw [meets_append, meets_singleton, List.nil_append]

/-- No message has come in. -/
structure Unanswered (P : Platform D) (errbub : ErrBub) (t : Trace D) : Prop where
  unanswered : ¬ HasMessage t
  noMerge : ∀ U changes, .merged U changes ∉ marks t
  noHooks : NoHooks t
  early : Meets (EndsEarly P errbub) [] t

lemma Unanswered.hooksIff (h : Unanswered P errbub t) : HooksIff P errbub t :=
  fun U => iff_of_false (h.noHooks U) fun hlate => hlate.1 h.early

lemma Unanswered.concat (h : Unanswered P errbub t) {i : Step D}
    (hanswer : ∀ e, i = .marked e → e.isAnswer = false)
    (hhooks : ∀ U, i ≠ .marked (.notifyHooks U)) : Unanswered P errbub (t ++ [i]) where
  unanswered := by
    rintro ⟨U, data, hmem⟩
    refine h.unanswered ⟨U, data, (mem_marks_concat ?_).mp hmem⟩
    rintro rfl
    cases hanswer _ rfl
  noMerge := by
    intro U changes hmem
    refine h.noMerge U changes ((mem_marks_concat ?_).mp hmem)
    rintro rfl
    cases hanswer _ rfl
  noHooks := h.noHooks.concat hhooks
  early := by
    refine earlyMeets_concat.mpr ⟨h.early, ?_⟩
    cases i with
    | called m c a =>
        cases c with
        | close fd => exact fun _ hanswered => absurd hanswered h.unanswered
        | writeFile path content => exact fun _ hanswered => absurd hanswered h.unanswered
        | _ => trivial
    | _ => trivial

lemma Step.IsMinor.isAnswer_eq {i : Step D} (hi : Step.IsMinor i) (e : Mark)
    (he : i = .marked e) : e.isAnswer = false := by
  subst he
  cases e with
  | _ => first | rfl | cases hi

lemma framed_unanswered {R : Rely SysCall Ans (Process D) Mark} :
    Framed R (fun _ => HooksIff P errbub) fun _ => Unanswered P errbub :=
  framed_of_trace (fun _ _ hi h => h.concat hi.isAnswer_eq hi.ne_notifyHooks)
    fun _ h => h.hooksIff

/-- A message has come in, and its merge has not returned. -/
structure Unmerged (P : Platform D) (errbub : ErrBub) (t : Trace D) : Prop where
  answered : HasMessage t
  noMerge : ∀ U changes, .merged U changes ∉ marks t
  noHooks : NoHooks t
  early : Meets (EndsEarly P errbub) [] t

lemma Unmerged.hooksIff (h : Unmerged P errbub t) : HooksIff P errbub t :=
  fun U => iff_of_false (h.noHooks U) fun hlate => hlate.1 h.early

lemma Unmerged.concat (h : Unmerged P errbub t) {i : Step D}
    (hanswer : ∀ e, i = .marked e → e.isAnswer = false) (hearly : EndsEarly P errbub t i)
    (hhooks : ∀ U, i ≠ .marked (.notifyHooks U)) : Unmerged P errbub (t ++ [i]) where
  answered := h.answered.concat i
  noMerge := by
    intro U changes hmem
    refine h.noMerge U changes ((mem_marks_concat ?_).mp hmem)
    rintro rfl
    cases hanswer _ rfl
  noHooks := h.noHooks.concat hhooks
  early := earlyMeets_concat.mpr ⟨h.early, hearly⟩

lemma Unanswered.answered (h : Unanswered P errbub t) (data : StdString) :
    Unmerged P errbub (t ++ [.marked (.messageIn U data)]) where
  answered := ⟨U, data, mem_marks.mpr (List.mem_append_right _ (List.mem_singleton_self _))⟩
  noMerge := by
    intro U' changes hmem
    exact h.noMerge U' changes ((mem_marks_concat (by rintro ⟨⟩)).mp hmem)
  noHooks := h.noHooks.concat (by rintro _ ⟨⟩)
  early := earlyMeets_concat.mpr ⟨h.early, trivial⟩

/-- The merge has returned. -/
structure Untold (P : Platform D) (errbub : ErrBub) (U : StdString) (changes : ℤ) (t : Trace D) :
    Prop where
  answered : HasMessage t
  eq_of_mem : ∀ U' changes', .merged U' changes' ∈ marks t → U' = U ∧ changes' = changes
  mem : 0 < changes → .merged U changes ∈ marks t
  noHooks : NoHooks t

/-- The statistics are not complete. -/
structure StatsOpen (P : Platform D) (errbub : ErrBub) (U : StdString) (changes : ℤ) (t : Trace D) :
    Prop extends Untold P errbub U changes t where
  early : Meets (EndsEarly P errbub) [] t
  settled : ¬ JustUnlocked t

/-- They are, if this is a peer. -/
structure StatsKept (P : Platform D) (errbub : ErrBub) (U : StdString) (changes : ℤ) (m : Process D)
    (t : Trace D) : Prop extends Untold P errbub U changes t where
  early_iff : Meets (EndsEarly P errbub) [] t ↔ ¬ m.shared.isPeer

lemma StatsOpen.hooksIff (h : StatsOpen P errbub U changes t) : HooksIff P errbub t :=
  fun U => iff_of_false (h.noHooks U) fun hlate => hlate.1 h.early

/-- The merge returns. -/
lemma Unmerged.merged (h : Unmerged P errbub t) (changes : ℤ) :
    StatsOpen P errbub U changes (t ++ [.marked (.merged U changes)]) where
  answered := h.answered.concat _
  eq_of_mem := by
    intro U' changes' hmem
    rw [marks_append] at hmem
    rcases List.mem_append.mp hmem with hmem | hmem
    · exact absurd hmem (h.noMerge U' changes')
    · obtain ⟨⟩ := List.mem_singleton.mp hmem
      exact ⟨rfl, rfl⟩
  mem := fun _ => mem_marks.mpr (List.mem_append_right _ (List.mem_singleton_self _))
  noHooks := h.noHooks.concat (by rintro _ ⟨⟩)
  early := earlyMeets_concat.mpr ⟨h.early, trivial⟩
  settled := not_justUnlocked_concat (by rintro _ _ _ ⟨⟩)

/-- It returns an error. -/
lemma Unmerged.refused (h : Unmerged P errbub t) (c : ErrorCondition) :
    StatsOpen P errbub U (-1) (t ++ [.marked (.bubbled c)]) where
  answered := h.answered.concat _
  eq_of_mem := by
    intro U' changes' hmem
    exact absurd ((mem_marks_concat (by rintro ⟨⟩)).mp hmem) (h.noMerge U' changes')
  mem := fun hpos => absurd hpos (by decide)
  noHooks := h.noHooks.concat (by rintro _ ⟨⟩)
  early := earlyMeets_concat.mpr ⟨h.early, trivial⟩
  settled := not_justUnlocked_concat (by rintro _ _ _ ⟨⟩)

lemma Untold.concat (h : Untold P errbub U changes t) {i : Step D} (hi : Step.IsMinor i) :
    Untold P errbub U changes (t ++ [i]) where
  answered := h.answered.concat i
  eq_of_mem := by
    intro U' changes' hmem
    refine h.eq_of_mem U' changes' ((mem_marks_concat ?_).mp hmem)
    rintro rfl
    cases hi
  mem := by
    intro hpos
    rw [marks_append]
    exact List.mem_append_left _ (h.mem hpos)
  noHooks := h.noHooks.concat hi.ne_notifyHooks

lemma StatsOpen.concat (h : StatsOpen P errbub U changes t) {i : Step D} (hi : Step.IsMinor i)
    (hearly : EndsEarly P errbub t i) (hlock : ∀ m fd r, i ≠ .called m (.flock fd false) r) :
    StatsOpen P errbub U changes (t ++ [i]) :=
  ⟨h.toUntold.concat hi, earlyMeets_concat.mpr ⟨h.early, hearly⟩, not_justUnlocked_concat hlock⟩

/-- A call that neither locks a file nor writes one. -/
def SysCall.IsAside : SysCall → Prop
  | .flock _ _ | .writeFile _ _ => False
  | _ => True

lemma StatsOpen.called (h : StatsOpen P errbub U changes t) {c : SysCall} (hc : c.IsAside)
    (a : Ans c) :
    StatsOpen P errbub U changes (t ++ [.called m c a]) := by
  refine h.concat trivial ?_ ?_
  · cases c with
    | close fd => exact fun _ _ hjust => absurd hjust h.settled
    | writeFile path content => exact hc.elim
    | _ => trivial
  · rintro m fd r ⟨⟩
    exact hc

lemma StatsOpen.marked (h : StatsOpen P errbub U changes t) {e : Mark} (he : e.isMinor) :
    StatsOpen P errbub U changes (t ++ [.marked e]) :=
  h.concat he trivial (by rintro _ _ _ ⟨⟩)

/-- A coroutine that neither locks a file nor writes one. -/
lemma StatsOpen.wp {α : Type} {p : Io D α} {W : Process D → Process D → Prop}
    (hp : p.Uses SysCall.IsAside (fun e => e.isMinor) W True) (h : StatsOpen P errbub U changes t) :
    Coro.wp (fun _ _ => True) (fun _ => HooksIff P errbub) p
      (fun _ _ => StatsOpen P errbub U changes) m t := by
  refine wp_of_uses (I := fun _ => StatsOpen P errbub U changes) hp ?_ ?_ ?_ ?_ ?_ h
  · exact fun m t c a hc h _ => h.called hc a
  · exact fun m m' t h _ => h.concat trivial trivial (by rintro _ _ _ ⟨⟩)
  · exact fun m t e he h => h.marked he
  · exact fun m m' t _ h => h
  · exact fun _ m t h => h.hooksIff

/-- The file is written under its lock. -/
lemma StatsOpen.wp_updateStats (h : StatsOpen P errbub U changes t) (hlock : P.statFileLocking)
    (tPeerStr : StdString) (netStat : NetworkStats) :
    Coro.wp (fun _ _ => True) (fun _ => HooksIff P errbub) (updateStats P tPeerStr netStat errbub)
      (fun _ _ => StatsOpen P errbub U changes) m t := by
  rw [updateStats_eq, wp_bind, wp_call]
  intro text _
  have h₁ := h.called (m := m) (c := .readFile SHARED_STATE_NET_STAT_FILE_PATH) trivial text
  rw [wp_bind, wp_call]
  intro opened _
  have h₂ := h₁.concat (i := .called m (.writeFile _ _) opened) trivial
    (fun hunlocked => by rw [hlock] at hunlocked; cases hunlocked) (by rintro _ _ _ ⟨⟩)
  split_ifs
  · exact h₂
  · cases errbub with
    | null => exact h₂.hooksIff
    | storage => exact h₂.marked rfl

/-- Without locking, the statistics are complete once the file is written, or the error stored. -/
lemma StatsOpen.wp_updateStats_unlocked (h : StatsOpen P errbub U changes t)
    (hlock : P.statFileLocking = false) (tPeerStr : StdString) (netStat : NetworkStats) :
    Coro.wp (fun _ _ => True) (fun _ => HooksIff P errbub) (updateStats P tPeerStr netStat errbub)
      (fun _ => StatsKept P errbub U changes) m t := by
  rw [updateStats_eq, wp_bind, wp_call]
  intro text _
  have h₁ := h.called (m := m) (c := .readFile SHARED_STATE_NET_STAT_FILE_PATH) trivial text
  rw [wp_bind, wp_call]
  intro opened _
  have h₂ := h₁.toUntold.concat (i := .called m (.writeFile _ _) opened) trivial
  cases opened with
  | true =>
      refine ⟨h₂, ?_⟩
      rw [earlyMeets_concat, and_iff_right h₁.early]
      exact ⟨fun hearly hpeer => Bool.noConfusion (hearly hlock h₁.answered hpeer).1,
        fun hpeer _ _ hpeer' => absurd hpeer' hpeer⟩
  | false =>
      cases errbub with
      | null =>
          exact (h₁.concat (i := .called m (.writeFile _ _) false) trivial
            (fun _ _ _ => ⟨rfl, rfl⟩) (by rintro _ _ _ ⟨⟩)).hooksIff
      | storage =>
          refine ⟨h₂.concat (i := .marked (.bubbled .ioError)) rfl, ?_⟩
          rw [earlyMeets_concat, earlyMeets_concat, and_iff_right h₁.early]
          refine (and_iff_left trivial).trans ⟨fun hearly hpeer => ?_,
            fun hpeer _ _ hpeer' => absurd hpeer' hpeer⟩
          cases (hearly hlock h₁.answered hpeer).2

/-- What keeping the statistics leaves. -/
def StatsEnd (P : Platform D) (errbub : ErrBub) (U : StdString) (changes : ℤ) :
    Bool → Process D → Trace D → Prop
  | true, m, t => StatsKept P errbub U changes m t
  | false, _, t => StatsOpen P errbub U changes t

/-- A call of it has failed. -/
lemma Untold.wp_reported (h : Untold P errbub U changes t)
    (hearly : Meets (EndsEarly P errbub) [] t) (c : ErrorCondition) :
    Coro.wp (fun _ _ => True) (fun _ => HooksIff P errbub)
      (do
        rs_error_bubble_or_exit c errbub
        pure false : Io D Bool) (StatsEnd P errbub U changes) m t := by
  cases errbub with
  | null => exact fun V => iff_of_false (h.noHooks V) fun hlate => hlate.1 hearly
  | storage =>
      exact ⟨h.concat (i := .marked _) rfl, earlyMeets_concat.mpr ⟨hearly, trivial⟩,
        not_justUnlocked_concat (by rintro _ _ _ ⟨⟩)⟩

/-- The file is written; it is unlocked and closed. -/
lemma StatsOpen.wp_unlock (h : StatsOpen P errbub U changes t) (hlock : P.statFileLocking)
    (openRet : ℤ) :
    Coro.wp (fun _ _ => True) (fun _ => HooksIff P errbub)
      (do
        match ← sysCall (.flock openRet false) with
        | .error e =>
            rs_error_bubble_or_exit (.errno e) errbub
            return false
        | .ok _ =>
            match ← sysCall (.close openRet) with
            | .error e =>
                rs_error_bubble_or_exit (.errno e) errbub
                return false
            | .ok _ => return true : Io D Bool) (StatsEnd P errbub U changes) m t := by
  rw [wp_bind, wp_call]
  intro unlocked _
  have h₁ := h.toUntold.concat (i := .called m (.flock openRet false) unlocked) trivial
  have hearly : Meets (EndsEarly P errbub) [] (t ++ [.called m (.flock openRet false) unlocked]) :=
    earlyMeets_concat.mpr ⟨h.early, trivial⟩
  cases unlocked with
  | error e => exact h₁.wp_reported hearly _
  | ok _ =>
      simp only
      rw [wp_bind, wp_call]
      intro closed _
      have h₂ := h₁.concat (i := .called m (.close openRet) closed) trivial
      have hjust : JustUnlocked (t ++ [.called m (.flock openRet false) (.ok ())]) :=
        ⟨t, m, openRet, _, rfl⟩
      cases closed with
      | error e =>
          exact h₂.wp_reported (earlyMeets_concat.mpr ⟨hearly, fun _ _ _ _ => not_isOk_error e⟩) _
      | ok _ =>
          refine (wp_pure _).mpr ⟨h₂, ?_⟩
          rw [earlyMeets_concat, and_iff_right hearly]
          exact ⟨fun hopen hpeer => hopen hlock h₁.answered hjust hpeer rfl,
            fun hpeer _ _ _ hpeer' => absurd hpeer' hpeer⟩

/-- Keeping the statistics fails, or completes those of a peer. -/
lemma StatsOpen.wp_collectStat (h : StatsOpen P errbub U changes t) (netStat : NetworkStats) :
    Coro.wp (fun _ _ => True) (fun _ => HooksIff P errbub) (collectStat P netStat errbub)
      (StatsEnd P errbub U changes) m t := by
  rw [collectStat, wp_bind, wp_call]
  intro tNow _
  have h₁ := h.called (m := m) (c := .steadyClock) trivial tNow
  cases hlock : P.statFileLocking with
  | false =>
      simp only [Bool.not_false, if_true]
      rw [wp_bind]
      exact wp_mono (h₁.wp_updateStats_unlocked hlock _ _) fun _ _ _ h₂ => (wp_pure _).mpr h₂
  | true =>
      simp only [Bool.not_true, Bool.false_eq_true, if_false]
      rw [wp_bind, wp_call]
      intro openRet _
      have h₂ := h₁.called (m := m) (c := .openFile SHARED_STATE_NET_STAT_FILE_PATH) trivial openRet
      cases openRet with
      | error e => exact h₂.toUntold.wp_reported h₂.early _
      | ok openRet =>
          simp only
          rw [wp_bind, wp_call]
          intro locked _
          have h₃ := h₂.concat (i := .called m (.flock openRet true) locked) trivial trivial
            (by rintro _ _ _ ⟨⟩)
          cases locked with
          | error e => exact h₃.toUntold.wp_reported h₃.early _
          | ok _ =>
              simp only
              rw [wp_bind]
              exact wp_mono (h₃.wp_updateStats hlock _ _) fun _ _ _ h₄ => h₄.wp_unlock hlock openRet

lemma manages_aside : Manages (D := D) SysCall.IsAside (fun e => e.isMinor) (fun _ _ => True)
    True where
  fcntlGetFl := fun _ => trivial
  fcntlSetFl := fun _ _ => trivial
  epollAdd := fun _ => trivial
  epollDel := fun _ => trivial
  close := fun _ => trivial
  bubbled := fun _ => rfl
  registered := fun _ => rfl
  register := fun _ _ => trivial
  release := fun _ _ _ => trivial
  exits := trivial

/-- The hooks were called, and the statistics were complete before. -/
structure Told (P : Platform D) (errbub : ErrBub) (t : Trace D) : Prop where
  hooksIff : HooksIff P errbub t
  late : ¬ Meets (EndsEarly P errbub) [] t

lemma framed_told {R : Rely SysCall Ans (Process D) Mark} :
    Framed R (fun _ => HooksIff P errbub) fun _ => Told P errbub := by
  refine framed_of_trace (fun t i hi h => ?_) fun _ h => h.hooksIff
  have hlate : ¬ Meets (EndsEarly P errbub) [] (t ++ [i]) :=
    fun hearly => h.late (earlyMeets_concat.mp hearly).1
  refine ⟨fun U => ?_, hlate⟩
  have hmerged : ∀ changes, .merged U changes ∈ marks (t ++ [i]) ↔ .merged U changes ∈ marks t :=
    fun changes => mem_marks_concat (by rintro rfl; cases hi)
  rw [mem_marks_concat (hi.ne_notifyHooks U), h.hooksIff U, and_iff_right h.late,
    and_iff_right hlate]
  simp only [hmerged]

/-- The hooks are called. -/
lemma StatsKept.told (h : StatsKept P errbub U changes m t) (hpeer : m.shared.isPeer)
    (hpos : 0 < changes) : Told P errbub (t ++ [.marked (.notifyHooks U)]) := by
  have hlate : ¬ Meets (EndsEarly P errbub) [] (t ++ [.marked (.notifyHooks U)]) :=
    fun hearly => h.early_iff.mp (earlyMeets_concat.mp hearly).1 hpeer
  refine ⟨fun V => ?_, hlate⟩
  have hmerged : ∀ changes',
      .merged V changes' ∈ marks (t ++ [.marked (.notifyHooks U)]) ↔ .merged V changes' ∈ marks t :=
    fun changes' => mem_marks_concat (by rintro ⟨⟩)
  rw [and_iff_right hlate]
  simp only [hmerged]
  constructor
  · intro hmem
    rw [marks_append] at hmem
    rcases List.mem_append.mp hmem with hmem | hmem
    · exact absurd hmem (h.noHooks V)
    · obtain ⟨⟩ := List.mem_singleton.mp hmem
      exact ⟨changes, hpos, h.mem hpos⟩
  · rintro ⟨changes', -, hmem⟩
    obtain ⟨rfl, -⟩ := h.eq_of_mem V changes' hmem
    exact mem_marks.mpr (List.mem_append_right _ (List.mem_singleton_self _))

/-- No hooks are called, for there is no peer or nothing changed. -/
lemma StatsKept.hooksIff (h : StatsKept P errbub U changes m t)
    (hquiet : ¬ (m.shared.isPeer ∧ changes > 0)) : HooksIff P errbub t := by
  refine fun V => iff_of_false (h.noHooks V) ?_
  rintro ⟨hlate, changes', hpos, hmem⟩
  obtain ⟨-, rfl⟩ := h.eq_of_mem V changes' hmem
  exact hlate (h.early_iff.mpr fun hpeer => hquiet ⟨hpeer, hpos⟩)

/-- **The rest of a session** after its merge. -/
theorem StatsOpen.wp_syncAfterMerge (h : StatsOpen P errbub U changes t) (aFD : Option ObjId)
    (netStats : NetworkStats) :
    Coro.wp (fun _ _ => True) (fun _ => HooksIff P errbub)
      (syncAfterMerge P aFD netStats U changes errbub) (fun _ _ => HooksIff P errbub) m t := by
  rw [syncAfterMerge]
  split_ifs with hrefused
  · rw [wp_bind]
    exact wp_mono (h.wp (uses_closeAFD manages_aside aFD .null)) fun _ m' t' h' =>
      (wp_pure _).mpr h'.hooksIff
  rw [wp_bind, wp_call]
  intro tick _
  have h₁ := h.called (m := m) (c := .steadyClock) trivial tick
  rw [wp_bind]
  refine wp_mono (h₁.wp (uses_closeAFD manages_aside aFD .null)) fun _ m₂ t₂ h₂ => ?_
  rw [wp_bind]
  refine wp_mono (h₂.wp_collectStat netStats) fun collected m₃ t₃ h₃ => ?_
  cases collected with
  | false => exact (wp_pure _).mpr h₃.hooksIff
  | true =>
      simp only [Bool.not_true, Bool.false_eq_true, if_false]
      rw [wp_bind, wp_memory]
      split_ifs with hpeer
      · obtain ⟨body, hbody, heq⟩ := notifyHooks_eq runsCommands_minor (fun _ => trivial)
          (fun _ => trivial) trivial P U errbub
        rw [heq, wp_bind, wp_event]
        exact wp_mono (framed_told.wp hbody (StatsKept.told h₃ hpeer.1 hpeer.2)) fun _ _ _ h₄ =>
          h₄.hooksIff
      · exact (wp_pure _).mpr (StatsKept.hooksIff h₃ hpeer)

variable [BEq D]

/-- A merge has returned, and the rest of the session follows. -/
lemma mergeSlice_early {stateSlice : StateMap D} (h : Unanswered P errbub t) (data : StdString)
    (tick : ℤ) :
    Coro.wp (fun _ _ => True) (fun _ => HooksIff P errbub)
      (mergeSlice P U stateSlice peerAddr errbub)
      (fun changes _ => StatsOpen P errbub U changes) m
      (t ++ [.marked (.messageIn U data)] ++ [.called m .steadyClock tick]) := by
  have h₁ := h.answered (U := U) data
  have h₂ := h₁.concat (i := .called m .steadyClock tick) (by rintro _ ⟨⟩) trivial (by rintro _ ⟨⟩)
  refine wp_mergeSlice (fun changes _ _ => h₂.merged changes) (fun _ _ _ => h₂.hooksIff)
    (fun c _ => h₂.refused c) fun _ changes => ?_
  have h₃ := h₂.concat (i := .called m .indeterminate changes) (by rintro _ ⟨⟩) trivial
    (by rintro _ ⟨⟩)
  exact h₃.merged changes

/-- **The hooks a client session calls**, whatever happens: those of the type it has merged with
significant changes, unless it comes to an early end. -/
theorem syncWithPeer_hooks_iff (P : Platform D) (typeName : StdString) (peerAddr : SockAddr)
    (errbub : ErrBub) (m : Process D) :
    Coro.wp (fun _ _ => True) (fun _ => HooksIff P errbub)
      (syncWithPeer P typeName peerAddr errbub) (fun _ _ => HooksIff P errbub) m [] := by
  let start : ClientStart P typeName peerAddr errbub (fun _ _ => True)
      (fun _ => HooksIff P errbub) (fun _ => HooksIff P errbub) := {
    idle := fun _ => Unanswered P errbub
    asked := fun _ => Unanswered P errbub
    framed_idle := framed_unanswered
    framed_asked := framed_unanswered
    request := by
      intro m t h
      rw [afterReference]
      cases m.shared.mStates[typeName]? with
      | none =>
          exact (h.concat (by rintro _ ⟨⟩; rfl) (by rintro _ ⟨⟩)).concat (by rintro _ ⟨⟩; rfl)
            (by rintro _ ⟨⟩)
      | some tState => exact h.concat (by rintro _ ⟨⟩; rfl) (by rintro _ ⟨⟩)
    merge := fun _ data _ _ tick h _ aFD netStats =>
      wp_mono (mergeSlice_early h data tick) fun _ _ _ h' => h'.wp_syncAfterMerge aFD netStats
    done_idle := fun _ _ h => h.hooksIff
    done_asked := fun _ _ h => h.hooksIff }
  exact start.wp_syncWithPeer
    ⟨by rintro ⟨_, _, ⟨⟩⟩, by rintro _ _ ⟨⟩, by rintro _ ⟨⟩, trivial⟩

end Stages

end SharedStateAsync
