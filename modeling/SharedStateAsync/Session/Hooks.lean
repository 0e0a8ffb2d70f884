/-
Whether a session loses a notification.

A session changes the store in its middle and notifies the hooks at its end, so
that whatever fails in between leaves a change nobody is told about. The sessions
of a daemon that is a peer are followed from the merge on, and what has to go
well for the notification to come is shown to be necessary as well.

* `AfterMerge`, `Notified`: what is asked of the steps after a significant merge;
* `Acknowledged`, `StatFileOk`: the acknowledgement of the answer, and the
  locking of the statistics file;
* `Rest`: the steps after a merge, with all that matters about them;
* `sendNetworkMessage_outcome`, `collectStat_outcome`: when the two steps that
  can fail after the merge succeed;
* `sessions_notify_iff`: a session that returns has notified exactly when these
  steps succeeded.
-/
import SharedStateAsync.Session.Handlers
import SharedStateAsync.Io.Transfer

namespace SharedStateAsync

open Coro ByteOrder

variable {D α σ : Type}

/-! ### Merges and notifications in a run -/

/-- What comes after each significant merge of a run is as `C` says of the type,
of what was before and of what comes after. -/
def AfterMerge (C : StdString → Trace D → Trace D → Prop) (t : Trace D) : Prop :=
  ∀ pre typeName changes post, t = pre ++ .marked (.merged typeName changes) :: post →
    0 < changes → C typeName (pre ++ [.marked (.merged typeName changes)]) post

/-- Every significant merge is followed by a notification for its type. -/
def Notified (t : Trace D) : Prop :=
  AfterMerge (fun typeName _ post => .marked (.notifyHooks typeName) ∈ post) t

/-- Nothing was merged. -/
def NoMerge (t : Trace D) : Prop := ∀ typeName changes, .marked (.merged typeName changes) ∉ t

section Merges

variable {C : StdString → Trace D → Trace D → Prop} {t u : Trace D}

lemma NoMerge.append (ht : NoMerge t) (hu : NoMerge u) : NoMerge (t ++ u) := by
  intro typeName changes h
  rcases List.mem_append.mp h with h | h
  · exact ht _ _ h
  · exact hu _ _ h

lemma afterMerge_of_noMerge (ht : NoMerge t) : AfterMerge C t := by
  rintro pre typeName changes post rfl -
  exact absurd (by simp) (ht typeName changes)

/-- The only merge of a run is the one everything is asked after. -/
lemma afterMerge_iff {typeName : StdString} {changes : ℤ} (ht : NoMerge t) (hu : NoMerge u) :
    AfterMerge C (t ++ [.marked (.merged typeName changes)] ++ u) ↔
      (0 < changes → C typeName (t ++ [.marked (.merged typeName changes)]) u) := by
  rw [List.append_assoc, List.singleton_append]
  refine ⟨fun h => h t typeName changes u rfl, fun h pre typeName' changes' post heq => ?_⟩
  rcases List.append_eq_append_iff.mp heq with ⟨a, rfl, ha⟩ | ⟨a, rfl, ha⟩
  · cases a with
    | nil =>
        obtain ⟨⟨rfl, rfl⟩, rfl⟩ := by simpa using ha
        rwa [List.append_nil]
    | cons i a =>
        obtain ⟨-, rfl⟩ := List.cons.inj ha
        exact absurd (by simp) (hu typeName' changes')
  · cases a with
    | nil =>
        obtain ⟨⟨rfl, rfl⟩, rfl⟩ := by simpa using ha
        rwa [List.append_nil] at h
    | cons i a =>
        obtain ⟨rfl, -⟩ := List.cons.inj ha
        exact absurd (by simp) (ht typeName' changes')

end Merges

/-! ### What can go wrong after a merge -/

/-- The others never stop the daemon from being a peer. -/
def PeerStays : Rely SysCall Ans (Process D) Mark
  | _, .resumed m m' => m.shared.isPeer → m'.shared.isPeer
  | _, _ => True

/-- The four bytes that were read, missing ones counting as zero, spell the
number of bytes that were written. -/
def Acknowledged (t : Trace D) : Prop :=
  ofBytes (fill [0, 0, 0, 0] (received t)) = (sent t).length

/-- The last step was to unlock a file. -/
def JustUnlocked (t : Trace D) : Prop := ∃ pre m fd r, t = pre ++ [.called m (.flock fd false) r]

/-- Opening, locking, unlocking and closing the statistics file succeed. -/
def StatFileOk : Rely SysCall Ans (Process D) Mark
  | _, .called _ (.openFile _) r => r.isOk
  | _, .called _ (.flock _ _) r => r.isOk
  | t, .called _ (.close _) r => JustUnlocked t → r.isOk
  | _, _ => True

/-- A call that is none of those. -/
def SysCall.IsPlain : SysCall → Prop
  | .recv _ _ | .send _ _ | .openFile _ | .flock _ _ => False
  | _ => True

def Mark.IsPlain : Mark → Prop
  | .merged _ _ | .notifyHooks _ => False
  | _ => True

def Step.IsPlain : Step D → Prop
  | .called _ c _ => c.IsPlain
  | .resumed _ _ => True
  | .marked e => e.IsPlain

/-- The steps `seg`, taken after `t`: what came in and went out, whether the
transport and the statistics file did their part; no merge and no notification
is among them. -/
structure Rest (t seg : Trace D) (inp out : StdString) (transportOk statOk : Prop) : Prop where
  received_eq : received seg = inp
  sent_eq : sent seg = out
  transport_iff : Meets TransportOk t seg ↔ transportOk
  stat_iff : Meets StatFileOk t seg ↔ statOk
  noMerge : NoMerge seg
  noHooks : ∀ typeName, .marked (.notifyHooks typeName) ∉ seg
  settled : ¬ JustUnlocked (t ++ seg)

/-- The run has gone from `t` to `t'` so. -/
def RestTo (t t' : Trace D) (inp out : StdString) (transportOk statOk : Prop) : Prop :=
  ∃ seg, t' = t ++ seg ∧ Rest t seg inp out transportOk statOk

section Rest

variable {t t' seg seg' : Trace D} {inp inp' out out' : StdString} {p p' q q' : Prop}

lemma Rest.nil (ht : ¬ JustUnlocked t) : Rest t [] [] [] True True where
  received_eq := rfl
  sent_eq := rfl
  transport_iff := Iff.rfl
  stat_iff := Iff.rfl
  noMerge := fun _ _ h => by cases h
  noHooks := fun _ h => by cases h
  settled := by rwa [List.append_nil]

lemma RestTo.refl (ht : ¬ JustUnlocked t) : RestTo t t [] [] True True :=
  ⟨[], (List.append_nil t).symm, Rest.nil ht⟩

lemma Rest.append (h : Rest t seg inp out p q) (h' : Rest (t ++ seg) seg' inp' out' p' q') :
    Rest t (seg ++ seg') (inp ++ inp') (out ++ out') (p ∧ p') (q ∧ q') where
  received_eq := by rw [received_append, h.received_eq, h'.received_eq]
  sent_eq := by rw [sent_append, h.sent_eq, h'.sent_eq]
  transport_iff := by rw [meets_append, h.transport_iff, h'.transport_iff]
  stat_iff := by rw [meets_append, h.stat_iff, h'.stat_iff]
  noMerge := h.noMerge.append h'.noMerge
  noHooks := by
    intro typeName hmem
    rcases List.mem_append.mp hmem with hmem | hmem
    · exact h.noHooks _ hmem
    · exact h'.noHooks _ hmem
  settled := by
    rw [← List.append_assoc]
    exact h'.settled

lemma Rest.congr (h : Rest t seg inp out p q) (hp : p ↔ p') (hq : q ↔ q') :
    Rest t seg inp out p' q' :=
  { h with transport_iff := h.transport_iff.trans hp, stat_iff := h.stat_iff.trans hq }

lemma RestTo.trans {t'' : Trace D} (h : RestTo t t' inp out p q)
    (h' : RestTo t' t'' inp' out' p' q') :
    RestTo t t'' (inp ++ inp') (out ++ out') (p ∧ p') (q ∧ q') := by
  obtain ⟨seg, rfl, hrest⟩ := h
  obtain ⟨seg', rfl, hrest'⟩ := h'
  exact ⟨seg ++ seg', List.append_assoc _ _ _, hrest.append hrest'⟩

lemma RestTo.congr (h : RestTo t t' inp out p q) (hp : p ↔ p') (hq : q ↔ q') :
    RestTo t t' inp out p' q' := by
  obtain ⟨seg, rfl, hrest⟩ := h
  exact ⟨seg, rfl, hrest.congr hp hq⟩

lemma RestTo.settled (h : RestTo t t' inp out p q) : ¬ JustUnlocked t' := by
  obtain ⟨seg, rfl, hrest⟩ := h
  exact hrest.settled

/-- A plain part after any other changes nothing about it. -/
lemma RestTo.trans_plain {t'' : Trace D} (h : RestTo t t' inp out p q)
    (h' : RestTo t' t'' [] [] True True) : RestTo t t'' inp out p q := by
  have hboth := h.trans h'
  rw [List.append_nil, List.append_nil] at hboth
  exact hboth.congr (and_iff_left trivial) (and_iff_left trivial)

/-! ### Single steps -/

lemma not_justUnlocked_concat {i : Step D} (hi : ∀ m fd r, i ≠ .called m (.flock fd false) r) :
    ¬ JustUnlocked (t ++ [i]) := by
  rintro ⟨pre, m, fd, r, h⟩
  obtain ⟨-, hlast⟩ := List.append_inj' h rfl
  exact hi m fd r (List.singleton_inj.mp hlast)

/-- A step that is neither a merge nor a notification, and does not unlock. -/
lemma Rest.singleton {i : Step D} (hmerge : ∀ typeName n, i ≠ .marked (.merged typeName n))
    (hhooks : ∀ typeName, i ≠ .marked (.notifyHooks typeName))
    (hlock : ∀ m fd r, i ≠ .called m (.flock fd false) r) :
    Rest t [i] i.received i.sent (TransportOk t i) (StatFileOk t i) where
  received_eq := received_singleton i
  sent_eq := sent_singleton i
  transport_iff := meets_singleton
  stat_iff := meets_singleton
  noMerge := fun typeName n h => hmerge typeName n (List.mem_singleton.mp h).symm
  noHooks := fun typeName h => hhooks typeName (List.mem_singleton.mp h).symm
  settled := not_justUnlocked_concat hlock

/-- A step that neither merges nor runs hooks nor unlocks the file. -/
lemma Rest.singleton_quiet {i : Step D} (hi : i.IsPlain ∨ i.IsTransport) :
    Rest t [i] i.received i.sent (TransportOk t i) (StatFileOk t i) := by
  refine Rest.singleton ?_ ?_ ?_
  · rintro typeName n rfl
    exact hi.elim id id
  · rintro typeName rfl
    exact hi.elim id id
  · rintro m fd r rfl
    exact hi.elim id id

lemma rest_plain {i : Step D} (hi : i.IsPlain) (ht : ¬ JustUnlocked t) :
    Rest t [i] [] [] True True := by
  have hsingle : Rest t [i] i.received i.sent (TransportOk t i) (StatFileOk t i) :=
    Rest.singleton_quiet (Or.inl hi)
  have hquiet : i.received = [] ∧ i.sent = [] ∧ TransportOk t i ∧ StatFileOk t i := by
    cases i with
    | called m c a =>
        cases c with
        | recv fd len => exact hi.elim
        | send fd buffer => exact hi.elim
        | openFile path => exact hi.elim
        | flock fd exclusive => exact hi.elim
        | close fd => exact ⟨rfl, rfl, trivial, fun h => absurd h ht⟩
        | _ => exact ⟨rfl, rfl, trivial, trivial⟩
    | resumed m m' => exact ⟨rfl, rfl, trivial, trivial⟩
    | marked e => exact ⟨rfl, rfl, trivial, trivial⟩
  rw [hquiet.1, hquiet.2.1] at hsingle
  exact hsingle.congr (iff_of_true hquiet.2.2.1 trivial) (iff_of_true hquiet.2.2.2 trivial)

lemma restTo_plain {i : Step D} (hi : i.IsPlain) (ht : ¬ JustUnlocked t) :
    RestTo t (t ++ [i]) [] [] True True :=
  ⟨[i], rfl, rest_plain hi ht⟩

/-- Talking to the socket has nothing to do with the statistics file. -/
lemma rest_transport {i : Step D} (hi : i.IsTransport) :
    Rest t [i] i.received i.sent (TransportOk t i) True := by
  refine (Rest.singleton_quiet (Or.inr hi)).congr Iff.rfl (iff_of_true ?_ trivial)
  cases i with
  | called m c a =>
      cases c with
      | openFile path => exact hi.elim
      | flock fd exclusive => exact hi.elim
      | close fd => exact hi.elim
      | _ => trivial
  | resumed m m' => trivial
  | marked e => trivial

lemma rest_of_transport (ht : ¬ JustUnlocked t) (hseg : ∀ i ∈ seg, i.IsTransport) :
    Rest t seg (received seg) (sent seg) (Meets TransportOk t seg) True := by
  induction seg generalizing t with
  | nil => exact Rest.nil ht
  | cons i seg ih =>
      have hfirst := rest_transport (t := t) (hseg i List.mem_cons_self)
      have hrest := ih hfirst.settled fun j hj => hseg j (List.mem_cons_of_mem i hj)
      exact (hfirst.append hrest).congr Iff.rfl (and_iff_left trivial)

lemma Progress.restTo {R : Rely SysCall Ans (Process D) Mark} {ok : Prop}
    (h : Progress R t t' inp out ok) (ht : ¬ JustUnlocked t) : RestTo t t' inp out ok True := by
  obtain ⟨seg, rfl, hex, -⟩ := h
  have hrest := rest_of_transport ht hex.transport
  rw [hex.received_eq, hex.sent_eq] at hrest
  exact ⟨seg, rfl, hrest.congr hex.ok_iff Iff.rfl⟩

end Rest

/-! ### Frames -/

/-- Writes that leave alone whether the daemon is a peer. -/
def KeepsPeer (m m' : Process D) : Prop := m'.shared.isPeer = m.shared.isPeer

/-- Nothing was merged yet. -/
structure Before (m : Process D) (t : Trace D) : Prop where
  isPeer : m.shared.isPeer
  noMerge : NoMerge t

lemma Before.concat {m : Process D} {t : Trace D} (h : Before m t) (e : Mark) (he : e.IsPlain) :
    Before m (t ++ [.marked e]) := by
  refine ⟨h.isPeer, h.noMerge.append fun typeName n hmem => ?_⟩
  obtain ⟨⟩ := List.mem_singleton.mp hmem
  exact he

section Frames

variable {C : SysCall → Prop} {E : Mark → Prop} {m : Process D} {t : Trace D} {p : Io D α}

/-- A coroutine that merges nothing. -/
lemma before_frame (hp : p.Uses C Mark.IsPlain KeepsPeer True) (h : Before m t) :
    wp PeerStays AnyExit p (fun _ => Before) m t := by
  have hconcat : ∀ (m : Process D) (t : Trace D) (i : Step D),
      (∀ typeName n, i ≠ .marked (.merged typeName n)) → Before m t → Before m (t ++ [i]) := by
    intro m t i hi h
    refine ⟨h.isPeer, h.noMerge.append fun typeName n hmem => ?_⟩
    exact hi typeName n (List.mem_singleton.mp hmem).symm
  refine wp_of_uses hp ?_ ?_ ?_ ?_ (fun _ _ _ _ => trivial) h
  · exact fun m t c a _ h _ => hconcat m t _ (by rintro _ _ ⟨⟩) h
  · exact fun m m' t h hm => hconcat m' t _ (by rintro _ _ ⟨⟩) ⟨hm h.isPeer, h.noMerge⟩
  · refine fun m t e he h => hconcat m t _ ?_ h
    rintro typeName n ⟨⟩
    exact he
  · exact fun m m' t hm h => ⟨hm.trans h.isPeer, h.noMerge⟩

/-- A coroutine that neither merges nor notifies, and uses neither the socket nor
the statistics file. -/
lemma rest_frame (hp : p.Uses SysCall.IsPlain Mark.IsPlain KeepsPeer True)
    (hpeer : m.shared.isPeer) (ht : ¬ JustUnlocked t) :
    wp PeerStays AnyExit p (fun _ m' t' => m'.shared.isPeer ∧ RestTo t t' [] [] True True) m t := by
  have hconcat : ∀ (t' : Trace D) (i : Step D), i.IsPlain → RestTo t t' [] [] True True →
      RestTo t (t' ++ [i]) [] [] True True :=
    fun t' i hi h => h.trans_plain (restTo_plain hi h.settled)
  refine wp_of_uses (I := fun m' t' => m'.shared.isPeer ∧ RestTo t t' [] [] True True) hp
    ?_ ?_ ?_ ?_ (fun _ _ _ _ => trivial) ⟨hpeer, RestTo.refl ht⟩
  · exact fun m' t' c a hc h _ => ⟨h.1, hconcat t' _ hc h.2⟩
  · exact fun m₁ m₂ t' h hm => ⟨hm h.1, hconcat t' _ trivial h.2⟩
  · exact fun m' t' e he h => ⟨h.1, hconcat t' _ he h.2⟩
  · exact fun m₁ m₂ t' hm h => ⟨hm.trans h.1, h.2⟩

/-- A mark that is neither a merge nor a notification. -/
lemma wp_markAfter {R : Rely SysCall Ans (Process D) Mark} {X : Process D → Trace D → Prop}
    {base : Trace D} {inp out : StdString} {q q' : Prop} {e : Mark}
    {Q : Unit → Process D → Trace D → Prop} (he : e.IsPlain) (h : RestTo base t inp out q q')
    (hQ : ∀ t', RestTo base t' inp out q q' → Q () m t') : wp R X (event e) Q m t :=
  hQ _ (h.trans_plain (restTo_plain (i := .marked e) he h.settled))

/-- A coroutine that leaves alone whether the daemon is a peer. -/
lemma peer_frame (hp : p.Uses C E KeepsPeer True) (hpeer : m.shared.isPeer) :
    wp PeerStays AnyExit p (fun _ m' _ => m'.shared.isPeer) m t := by
  refine wp_of_uses (I := fun m' _ => m'.shared.isPeer) hp ?_ ?_ ?_ ?_
    (fun _ _ _ _ => trivial) hpeer
  · exact fun m t c a _ h _ => h
  · exact fun m m' t h hm => hm h
  · exact fun m t e _ h => h
  · exact fun m m' t hm h => hm.trans h

end Frames

/-! ### Sending the answer -/

section Outcome

variable {R : Rely SysCall Ans (Process D) Mark} {X : Process D → Trace D → Prop}
  {m : Process D} {t : Trace D}

/-- How a run of the sender ended: it succeeds exactly when the transport did and
what was sent is acknowledged. -/
def SendOutcome (R : Rely SysCall Ans (Process D) Mark) (t : Trace D) (ret : ℤ) (t' : Trace D) :
    Prop :=
  ∃ inp out ok, Progress R t t' inp out ok ∧
    (ret ≠ -1 ↔ ok ∧ ofBytes (fill [0, 0, 0, 0] inp) = out.length)

lemma SendOutcome.giveUp {inp out : StdString} {t' : Trace D} (h : Progress R t t' inp out False) :
    SendOutcome R t (-1) t' :=
  ⟨inp, out, False, h, iff_of_false (fun h => h rfl) fun h => h.1⟩

/-- One more field, after the bytes `out`. -/
lemma send_field (hR : ∀ t e, R t (.marked e)) {pSocket : ObjId} {buffer : StdString}
    {t₀ : Trace D} {out : StdString} (h : Progress R t₀ t [] out True)
    {Q : ℤ → Process D → Trace D → Prop}
    (hfail : ∀ m' t', SendOutcome R t₀ (-1) t' → Q (-1) m' t')
    (hok : ∀ (out' : StdString) m' t', Progress R t₀ t' [] (out ++ out') True →
      Q (out'.length : ℤ) m' t') :
    wp R X (send pSocket buffer .storage) Q m t := by
  refine wp_mono (send_spec hR pSocket buffer h.not_woken) ?_
  rintro ret m' t' ⟨out', hprog, -, hret, -⟩
  have hboth := h.trans hprog
  by_cases hfailed : ret = -1
  · subst hfailed
    exact hfail m' t' (SendOutcome.giveUp (hboth.congr (by simp)))
  · have hlen : ret = out'.length := by
      rw [hret hfailed]
      push_cast
      omega
    rw [hlen]
    exact hok out' m' t' (hboth.congr (iff_of_true ⟨trivial, hfailed⟩ trivial))

/-- **Sending a message** succeeds exactly when the transport does and the
acknowledgement is the number of bytes sent. -/
theorem sendNetworkMessage_outcome (hR : ∀ t e, R t (.marked e)) (endian : Endian)
    (pSocket : ObjId) (netMsg : NetworkMessage) (netStats : NetworkStats) :
    wp R X (sendNetworkMessage endian pSocket netMsg netStats .storage)
      (fun r _ t' => SendOutcome R t r.1 t') m t := by
  rw [sendNetworkMessage, wp_bind]
  refine wp_steadyClock fun sendBTP t₀ h₀ => ?_
  simp only
  rw [wp_bind]
  refine send_field hR h₀ (fun m' t' h => h) fun out₁ m₁ t₁ h₁ => ?_
  rw [if_neg (by omega), wp_bind]
  refine send_field hR h₁ (fun m' t' h => h) fun out₂ m₂ t₂ h₂ => ?_
  rw [if_neg (by omega), wp_bind]
  refine send_field hR h₂ (fun m' t' h => h) fun out₃ m₃ t₃ h₃ => ?_
  rw [if_neg (by omega), wp_bind]
  refine send_field hR h₃ (fun m' t' h => h) fun out₄ m₄ t₄ h₄ => ?_
  rw [if_neg (by omega), wp_bind]
  have hsum : ((out₁.length : ℤ) + out₂.length + out₃.length + out₄.length)
      = (([] ++ out₁ ++ out₂ ++ out₃ ++ out₄ : StdString).length : ℤ) := by
    simp only [List.nil_append, List.length_append]
    push_cast
    ring
  rw [hsum]
  generalize ([] ++ out₁ ++ out₂ ++ out₃ ++ out₄ : StdString) = out at h₄
  -- the acknowledgement
  refine wp_mono (recv_spec hR pSocket 4 h₄.not_woken) ?_
  rintro ⟨recvRet, b⟩ m₅ t₅ ⟨hread, hlen, -, -⟩
  have h₅ := h₄.trans hread
  rw [List.nil_append, List.append_nil] at h₅
  simp only at hlen ⊢
  by_cases hfailed : recvRet = -1
  · rw [if_pos hfailed]
    exact SendOutcome.giveUp (h₅.congr (by simp [hfailed]))
  rw [if_neg hfailed, wp_bind]
  refine wp_steadyClock fun ackETP t₆ h₆ => ?_
  have h₆' := (h₅.trans h₆).congr (iff_of_true ⟨⟨trivial, hfailed⟩, trivial⟩ trivial)
  rw [List.append_nil, List.append_nil] at h₆'
  rw [endian.htonl_load (length_fill hlen)]
  by_cases hack : ofBytes (fill [0, 0, 0, 0] b) = out.length
  · rw [if_neg (not_not.mpr (by exact_mod_cast hack))]
    exact ⟨b, out, True, h₆', iff_of_true (by simp only; omega) ⟨trivial, hack⟩⟩
  · rw [if_pos (by exact_mod_cast hack), wp_bind]
    refine wp_bubble hR fun t₇ h₇ => ?_
    have h₇' := (h₆'.trans h₇).congr (and_iff_left trivial)
    rw [List.append_nil, List.append_nil] at h₇'
    exact ⟨b, out, True, h₇', iff_of_false (fun h => h rfl) fun h => hack h.2⟩

end Outcome

/-! ### Statistics and hooks -/

section Stats

variable {m : Process D} {t : Trace D} {P : Platform D}

lemma restTo_openFile (path : StdString) (r : Except Errno ℤ) :
    RestTo t (t ++ [.called m (.openFile path) r]) [] [] True r.isOk := by
  refine ⟨_, rfl, (Rest.singleton ?_ ?_ ?_).congr Iff.rfl Iff.rfl⟩
  · rintro _ _ ⟨⟩
  · rintro _ ⟨⟩
  · rintro _ _ _ ⟨⟩

lemma restTo_lock (fd : ℤ) (r : Except Errno Unit) :
    RestTo t (t ++ [.called m (.flock fd true) r]) [] [] True r.isOk := by
  refine ⟨_, rfl, (Rest.singleton ?_ ?_ ?_).congr Iff.rfl Iff.rfl⟩
  · rintro _ _ ⟨⟩
  · rintro _ ⟨⟩
  · rintro _ _ _ ⟨⟩

/-- Unlocking a file, and what comes right after it. -/
lemma restTo_unlock (fd : ℤ) (r : Except Errno Unit) {i : Step D} {ok : Prop}
    (hi : Rest (t ++ [.called m (.flock fd false) r]) [i] [] [] True ok) :
    RestTo t (t ++ [.called m (.flock fd false) r] ++ [i]) [] [] True (r.isOk ∧ ok) := by
  refine ⟨[.called m (.flock fd false) r] ++ [i], List.append_assoc _ _ _, ?_⟩
  exact {
    received_eq := by rw [received_append, hi.received_eq]; rfl
    sent_eq := by rw [sent_append, hi.sent_eq]; rfl
    transport_iff := by
      rw [meets_append, hi.transport_iff]
      exact iff_of_true ⟨⟨trivial, trivial⟩, trivial⟩ trivial
    stat_iff := by
      rw [meets_append, hi.stat_iff, meets_singleton]
      rfl
    noMerge := NoMerge.append (by rintro _ _ ⟨⟩; contradiction) hi.noMerge
    noHooks := by
      intro typeName hmem
      rcases List.mem_append.mp hmem with hmem | hmem
      · simp at hmem
      · exact hi.noHooks typeName hmem
    settled := by
      rw [← List.append_assoc]
      exact hi.settled }

/-- A call on the file failed: the error is stored and the result is false. -/
lemma statFailed_outcome {t' : Trace D} (c : ErrorCondition) (hpeer : m.shared.isPeer)
    (h : RestTo t t' [] [] True False) :
    wp PeerStays AnyExit (do rs_error_bubble_or_exit c .storage; pure false)
      (fun b m' t' => m'.shared.isPeer ∧ RestTo t t' [] [] True (b = true)) m t' := by
  have hmark := restTo_plain (i := .marked (.bubbled c)) trivial h.settled
  exact ⟨hpeer, (h.trans_plain hmark).congr Iff.rfl (by simp)⟩

/-- The file is unlocked and closed after all went well. -/
lemma unlockClose_outcome {t' : Trace D} (fd : ℤ) (hpeer : m.shared.isPeer)
    (h : RestTo t t' [] [] True True) :
    wp PeerStays AnyExit (do
        match ← sysCall (.flock fd false) with
        | .error e =>
            rs_error_bubble_or_exit (.errno e) .storage
            return false
        | .ok _ =>
            match ← sysCall (.close fd) with
            | .error e =>
                rs_error_bubble_or_exit (.errno e) .storage
                return false
            | .ok _ => return true)
      (fun b m' t' => m'.shared.isPeer ∧ RestTo t t' [] [] True (b = true)) m t' := by
  rw [wp_bind, wp_call]
  intro unlocked _
  cases unlocked with
  | error e =>
      have h' := h.trans (restTo_unlock (m := m) fd (.error e)
        (Rest.singleton (i := .marked (.bubbled (.errno e))) (by rintro _ _ ⟨⟩)
          (by rintro _ ⟨⟩) (by rintro _ _ _ ⟨⟩)))
      exact ⟨hpeer, h'.congr (by simp) (by simp [not_isOk_error])⟩
  | ok _ =>
      simp only
      rw [wp_bind, wp_call]
      intro closed _
      have hjust : JustUnlocked (t' ++ [.called m (.flock fd false) (.ok ())]) :=
        ⟨t', m, fd, .ok (), rfl⟩
      have hclose : Rest (t' ++ [.called m (.flock fd false) (.ok ())])
          [.called m (.close fd) closed] [] [] True closed.isOk :=
        (Rest.singleton (by rintro _ _ ⟨⟩) (by rintro _ ⟨⟩) (by rintro _ _ _ ⟨⟩)).congr
          Iff.rfl (forall_prop_of_true hjust)
      have h' := h.trans (restTo_unlock (m := m) fd (.ok ()) hclose)
      cases closed with
      | error e =>
          exact statFailed_outcome _ hpeer (h'.congr (by simp) (by simp [not_isOk_error]))
      | ok _ => exact ⟨hpeer, h'.congr (by simp) (by simp [Except.isOk, Except.toBool])⟩

/-- **Collecting statistics** succeeds exactly when the locking of the file
does. -/
theorem collectStat_outcome (netStat : NetworkStats) (hpeer : m.shared.isPeer)
    (ht : ¬ JustUnlocked t) :
    wp PeerStays AnyExit (collectStat P netStat .storage)
      (fun b m' t' => m'.shared.isPeer ∧ RestTo t t' [] [] True (b = true)) m t := by
  have hupdate : ∀ tPeerStr netStat,
      (updateStats P tPeerStr netStat .storage).Uses SysCall.IsPlain Mark.IsPlain KeepsPeer True :=
    uses_updateStats (fun _ => trivial) (fun _ _ => trivial) (fun _ => trivial) P
  rw [collectStat, wp_bind]
  intro tNow _
  have h₁ : RestTo t _ [] [] True True :=
    restTo_plain (i := .called m .steadyClock tNow) trivial ht
  change wp PeerStays AnyExit (ite _ _ _) _ m (t ++ [.called m .steadyClock tNow])
  generalize t ++ [.called m .steadyClock tNow] = t₁ at h₁
  split_ifs
  · rw [wp_bind]
    refine wp_mono (rest_frame (hupdate _ _) hpeer h₁.settled) ?_
    rintro - m' t' ⟨hpeer', h'⟩
    exact ⟨hpeer', (h₁.trans_plain h').congr Iff.rfl (by simp)⟩
  rw [wp_bind, wp_call]
  intro openRet _
  have h₂ := h₁.trans (restTo_openFile (m := m) SHARED_STATE_NET_STAT_FILE_PATH openRet)
  generalize t₁ ++ [.called m (.openFile SHARED_STATE_NET_STAT_FILE_PATH) openRet] = t₂ at h₂
  cases openRet with
  | error e =>
      exact statFailed_outcome _ hpeer (h₂.congr (by simp) (by simp [not_isOk_error]))
  | ok fd =>
      simp only
      rw [wp_bind, wp_call]
      intro locked _
      have h₃ := h₂.trans (restTo_lock (m := m) fd locked)
      generalize t₂ ++ [.called m (.flock fd true) locked] = t₃ at h₃
      cases locked with
      | error e =>
          exact statFailed_outcome _ hpeer (h₃.congr (by simp) (by simp [not_isOk_error]))
      | ok _ =>
          simp only
          rw [wp_bind]
          refine wp_mono (rest_frame (hupdate _ _) hpeer h₃.settled) ?_
          rintro - m₄ t₄ ⟨hpeer₄, h₄⟩
          have h₄' : RestTo t t₄ [] [] True True :=
            (h₃.trans h₄).congr (by simp) (by simp [Except.isOk, Except.toBool])
          exact unlockClose_outcome fd hpeer₄ h₄'

lemma manages_plain : Manages (D := D) SysCall.IsPlain Mark.IsPlain KeepsPeer True where
  fcntlGetFl := fun _ => trivial
  fcntlSetFl := fun _ _ => trivial
  epollAdd := fun _ => trivial
  epollDel := fun _ => trivial
  close := fun _ => trivial
  bubbled := fun _ => trivial
  registered := fun _ => trivial
  register := fun _ _ => rfl
  release := fun _ _ _ => rfl
  exits := trivial

lemma runsCommands_plain :
    RunsCommands (D := D) SysCall.IsPlain Mark.IsPlain KeepsPeer True where
  toManages := manages_plain
  pipe := trivial
  fork := fun _ => trivial
  pidfdOpen := fun _ => trivial
  kill := fun _ => trivial
  waitpid := fun _ => trivial
  write := fun _ _ => trivial
  requeued := trivial
  setObject := fun _ _ _ => rfl

/-- After the mark of a notification nothing else happens that matters. -/
lemma notifyHooks_rest (typeName : StdString) (hpeer : m.shared.isPeer) :
    wp PeerStays AnyExit (notifyHooks P typeName .storage)
      (fun _ _ t' => RestTo (t ++ [.marked (.notifyHooks typeName)]) t' [] [] True True) m t := by
  obtain ⟨body, hbody, heq⟩ := notifyHooks_eq runsCommands_plain (fun _ => trivial)
    (fun _ => trivial) trivial P typeName .storage
  rw [heq, wp_bind, wp_event]
  have hsettled : ¬ JustUnlocked (t ++ [.marked (.notifyHooks typeName)]) :=
    not_justUnlocked_concat (by rintro _ _ _ ⟨⟩)
  exact wp_mono (rest_frame hbody hpeer hsettled) fun _ _ _ h => h.2

end Stats

/-! ### The end of a session -/

/-- The run has notified the hooks exactly when what came after the merge was as
`K` says of what was read and written, of the transport and of the file. -/
def NotifiedIff (K : StdString → StdString → Prop → Prop → Prop) (t : Trace D) : Prop :=
  Notified t ↔ AfterMerge (fun _ t post =>
    K (received post) (sent post) (Meets TransportOk t post) (Meets StatFileOk t post)) t

section End

variable {K : StdString → StdString → Prop → Prop → Prop} {m : Process D} {t t' pre : Trace D}
  {typeName : StdString} {changes : ℤ} {inp out : StdString} {p q : Prop}

lemma notifiedIff_of_noMerge (h : NoMerge t) : NotifiedIff K t :=
  iff_of_true (afterMerge_of_noMerge h) (afterMerge_of_noMerge h)

/-- A run that ends without a notification. -/
lemma notifiedIff_of_rest (hpre : NoMerge pre)
    (h : RestTo (pre ++ [.marked (.merged typeName changes)]) t inp out p q)
    (hK : 0 < changes → ¬ K inp out p q) : NotifiedIff K t := by
  obtain ⟨seg, rfl, hrest⟩ := h
  rw [NotifiedIff, Notified, afterMerge_iff hpre hrest.noMerge, afterMerge_iff hpre hrest.noMerge,
    hrest.received_eq, hrest.sent_eq, hrest.transport_iff, hrest.stat_iff]
  exact imp_congr_right fun hpos => iff_of_false (hrest.noHooks typeName) (hK hpos)

/-- A run that ends with a notification. -/
lemma notifiedIff_of_notified (hpre : NoMerge pre)
    (h : RestTo (pre ++ [.marked (.merged typeName changes)]) t inp out p q)
    (h' : RestTo (t ++ [.marked (.notifyHooks typeName)]) t' [] [] True True)
    (hK : K inp out p q) : NotifiedIff K t' := by
  obtain ⟨seg, rfl, hrest⟩ := h
  obtain ⟨seg', rfl, hrest'⟩ := h'
  have hno : NoMerge (seg ++ [.marked (.notifyHooks typeName)] ++ seg') := by
    refine (hrest.noMerge.append ?_).append hrest'.noMerge
    rintro _ _ ⟨⟩
    contradiction
  have htransport : Meets TransportOk (pre ++ [.marked (.merged typeName changes)])
      (seg ++ [.marked (.notifyHooks typeName)] ++ seg') ↔ p := by
    rw [meets_append, meets_append, hrest.transport_iff, meets_singleton, ← List.append_assoc,
      hrest'.transport_iff]
    exact (and_iff_left trivial).trans (and_iff_left trivial)
  have hstat : Meets StatFileOk (pre ++ [.marked (.merged typeName changes)])
      (seg ++ [.marked (.notifyHooks typeName)] ++ seg') ↔ q := by
    rw [meets_append, meets_append, hrest.stat_iff, meets_singleton, ← List.append_assoc,
      hrest'.stat_iff]
    exact (and_iff_left trivial).trans (and_iff_left trivial)
  have hreceived : received (seg ++ [.marked (.notifyHooks typeName)] ++ seg') = inp := by
    rw [received_append, received_append, hrest.received_eq, hrest'.received_eq, List.append_nil,
      received_singleton]
    exact List.append_nil inp
  have hsent : sent (seg ++ [.marked (.notifyHooks typeName)] ++ seg') = out := by
    rw [sent_append, sent_append, hrest.sent_eq, hrest'.sent_eq, List.append_nil, sent_singleton]
    exact List.append_nil out
  rw [List.append_assoc, List.append_assoc, ← List.append_assoc seg, NotifiedIff, Notified,
    afterMerge_iff hpre hno, afterMerge_iff hpre hno, hreceived, hsent, htransport, hstat]
  exact imp_congr_right fun _ => iff_of_true (by simp) hK

/-- Giving up before the merge. -/
lemma wp_giveUp_before {aFD : Option ObjId} {b : Bool} (h : Before m t) :
    wp PeerStays AnyExit (closeAFD aFD >>= fun _ => pure b) (fun _ _ => NotifiedIff K) m t := by
  rw [wp_bind]
  exact wp_mono (before_frame (uses_closeAFD manages_plain aFD .null) h)
    fun _ _ _ h' => notifiedIff_of_noMerge h'.noMerge

/-- Giving up after it. -/
lemma wp_giveUp_after {aFD : Option ObjId} {b : Bool} (hpeer : m.shared.isPeer)
    (hpre : NoMerge pre)
    (h : RestTo (pre ++ [.marked (.merged typeName changes)]) t inp out p q)
    (hK : 0 < changes → ¬ K inp out p q) :
    wp PeerStays AnyExit (closeAFD aFD >>= fun _ => pure b) (fun _ _ => NotifiedIff K) m t := by
  rw [wp_bind]
  refine wp_mono (rest_frame (uses_closeAFD manages_plain aFD .null) hpeer h.settled) ?_
  rintro - m' t' ⟨-, h'⟩
  exact notifiedIff_of_rest hpre (h.trans_plain h') hK

/-- **The end of a session**, the same for both sides: from here on only the
statistics file can keep the hooks from being notified. -/
theorem wp_finish {P : Platform D} {aFD : Option ObjId} {netStats : NetworkStats}
    (hpeer : m.shared.isPeer) (hpre : NoMerge pre)
    (h : RestTo (pre ++ [.marked (.merged typeName changes)]) t inp out p True)
    (hK : ∀ ok, K inp out p ok ↔ ok) :
    wp PeerStays AnyExit (do
      let _ ← closeAFD aFD
      let collected ← collectStat P netStats .storage
      if !collected then return false
      let m ← memory
      if m.shared.isPeer ∧ changes > 0 then notifyHooks P typeName .storage
      else return true) (fun _ _ => NotifiedIff K) m t := by
  rw [wp_bind]
  refine wp_mono (rest_frame (uses_closeAFD manages_plain aFD .null) hpeer h.settled) ?_
  rintro - m₁ t₁ ⟨hpeer₁, h₁⟩
  rw [wp_bind]
  refine wp_mono (collectStat_outcome netStats hpeer₁ h₁.settled) ?_
  rintro collected m₂ t₂ ⟨hpeer₂, h₂⟩
  have hrest := (h.trans_plain h₁).trans h₂
  rw [List.append_nil, List.append_nil] at hrest
  have hrest' := hrest.congr (and_iff_left trivial) (and_iff_right trivial)
  cases collected with
  | false => exact notifiedIff_of_rest hpre hrest' fun _ hok => Bool.false_ne_true ((hK _).mp hok)
  | true =>
      simp only [Bool.not_true, Bool.false_eq_true, if_false]
      rw [wp_bind, wp_memory]
      by_cases hpos : 0 < changes
      · rw [if_pos ⟨hpeer₂, hpos⟩]
        refine wp_mono (notifyHooks_rest typeName hpeer₂) fun _ _ _ h₃ => ?_
        exact notifiedIff_of_notified hpre hrest' h₃ ((hK _).mpr rfl)
      · rw [if_neg fun h => hpos h.2]
        exact notifiedIff_of_rest hpre hrest' fun h => absurd h hpos

end End

/-! ### Sessions -/

section Sessions

variable [BEq D] {m : Process D} {t : Trace D} {P : Platform D}

lemma talks_plain : Talks (fun _ => True) Mark.IsPlain where
  recv := fun _ _ => trivial
  send := fun _ _ => trivial
  steadyClock := trivial
  bubbled := fun _ => trivial

/-- A merge either fails and leaves no mark, or its mark is the last step. -/
lemma mergeSlice_outcome (dataTypeName : StdString) (stateSlice : StateMap D)
    (peerAddr : SockAddr) (h : Before m t) :
    wp PeerStays AnyExit (mergeSlice P dataTypeName stateSlice peerAddr .storage)
      (fun changes m' t' => m'.shared.isPeer ∧ (changes = -1 ∧ NoMerge t' ∨
        ∃ pre, NoMerge pre ∧ t' = pre ++ [.marked (.merged dataTypeName changes)])) m t := by
  refine wp_mergeSlice (fun changes shared hmerge => ?_) nofun (fun c _ => ?_) fun _ changes => ?_
  · exact ⟨(SharedState.merge_isPeer hmerge).trans h.isPeer, Or.inr ⟨t, h.noMerge, rfl⟩⟩
  · refine ⟨h.isPeer, Or.inl ⟨rfl, h.noMerge.append ?_⟩⟩
    rintro _ _ ⟨⟩
    contradiction
  · refine ⟨h.isPeer, Or.inr ⟨_, h.noMerge.append ?_, rfl⟩⟩
    rintro _ _ ⟨⟩
    contradiction

/-- What has to go well after the merge of a server: the answer is sent and
acknowledged, and the statistics are kept. -/
def ServerK (inp out : StdString) (transportOk statOk : Prop) : Prop :=
  transportOk ∧ ofBytes (fill [0, 0, 0, 0] inp) = out.length ∧ statOk

/-- What has to go well after the merge of a client: the statistics are kept. -/
def ClientK (_ _ : StdString) (_ statOk : Prop) : Prop := statOk

/-- **The session of a server.** -/
theorem handleReqSyncConnection_notifies {pSocket : ObjId} (h : Before m t) :
    wp PeerStays AnyExit (handleReqSyncConnection P pSocket .storage)
      (fun _ _ => NotifiedIff ServerK) m t := by
  have hpeerAddr : (getPeerAddr pSocket : Io D _).Uses (fun _ => True) Mark.IsPlain KeepsPeer
      True := by
    refine uses_bind (uses_bind uses_memory fun _ => uses_pure _) fun fd => ?_
    refine uses_bind (uses_call trivial) fun r => ?_
    cases r with
    | error e => exact uses_bind (uses_exit trivial) fun _ => uses_pure none
    | ok peerAddr => exact uses_pure _
  rw [handleReqSyncConnection, wp_bind]
  refine wp_mono (before_frame hpeerAddr h) fun mPeer m₁ t₁ h₁ => ?_
  simp only
  rw [wp_bind]
  refine wp_mono (before_frame (uses_serverHandShake talks_plain _ _ _) h₁) ?_
  rintro ⟨handShaken, netStats₂⟩ m₂ t₂ h₂
  simp only
  split_ifs
  · exact wp_giveUp_before h₂
  rw [wp_bind]
  refine wp_mono (before_frame (uses_receiveNetworkMessage talks_plain _ _ _) h₂) ?_
  rintro ⟨totalReceived, networkMessage, netStats₃⟩ m₃ t₃ h₃
  simp only
  split_ifs
  · exact wp_giveUp_before h₃
  have h₃' := h₃.concat (.messageIn networkMessage.mTypeName networkMessage.mData) trivial
  rw [wp_bind, wp_event, wp_bind]
  refine wp_mono (before_frame (C := fun _ => True) (uses_call trivial) h₃') fun _ m₄ t₄ h₄ => ?_
  rw [wp_bind]
  refine wp_mono (mergeSlice_outcome _ _ _ h₄) ?_
  rintro changes m₅ t₅ ⟨hpeer₅, ⟨rfl, hno⟩ | ⟨pre, hpre, rfl⟩⟩
  · rw [if_pos rfl]
    exact wp_giveUp_before ⟨hpeer₅, hno⟩
  have hsettled : ¬ JustUnlocked
      (pre ++ [.marked (.merged networkMessage.mTypeName changes)] : Trace D) :=
    not_justUnlocked_concat (by rintro _ _ _ ⟨⟩)
  split_ifs with hchanges
  · exact wp_giveUp_after hpeer₅ hpre (RestTo.refl hsettled) fun hpos => by omega
  rw [wp_bind]
  refine wp_mono (rest_frame (uses_call trivial) hpeer₅ hsettled) ?_
  rintro - m₆ t₆ ⟨hpeer₆, h₆⟩
  rw [wp_bind, wp_stateOf, wp_bind]
  refine wp_markAfter trivial h₆ fun t₆' h₆' => ?_
  rw [wp_bind]
  refine wp_mono (wp_and (sendNetworkMessage_outcome (fun _ _ => trivial) _ _ _ _)
    (peer_frame (uses_sendNetworkMessage talks_plain _ _ _ _) hpeer₆)) ?_
  rintro ⟨totalSent, netStats₇⟩ m₇ t₇ ⟨⟨inp, out, ok, hprog, hret⟩, hpeer₇⟩
  have h₇ := h₆'.trans (hprog.restTo h₆'.settled)
  rw [List.nil_append, List.nil_append] at h₇
  have h₇' := h₇.congr (and_iff_right trivial) (and_iff_left trivial)
  simp only at hret ⊢
  split_ifs with hsent
  · refine wp_giveUp_after hpeer₇ hpre h₇' fun _ hK => ?_
    exact hret.mpr ⟨hK.1, hK.2.1⟩ hsent
  · obtain ⟨hok, hack⟩ := hret.mp hsent
    exact wp_finish hpeer₇ hpre h₇' fun statOk =>
      ⟨fun hK => hK.2.2, fun hstat => ⟨hok, hack, hstat⟩⟩

/-- **The session of a client.** -/
theorem syncWithPeer_notifies (dataTypeName : StdString) (peerAddr : SockAddr) (h : Before m t) :
    wp PeerStays AnyExit (syncWithPeer P dataTypeName peerAddr .storage)
      (fun _ _ => NotifiedIff ClientK) m t := by
  have hmanages : Manages (D := D) (fun _ => True) Mark.IsPlain KeepsPeer True :=
    { manages_plain with
      fcntlGetFl := fun _ => trivial
      fcntlSetFl := fun _ _ => trivial
      epollAdd := fun _ => trivial
      epollDel := fun _ => trivial
      close := fun _ => trivial }
  rw [syncWithPeer, wp_bind, wp_memory]
  split_ifs
  · rw [wp_bind]
    refine wp_mono (before_frame (manages_plain.uses_bubble _ .storage) h) fun _ _ _ h' => ?_
    exact notifiedIff_of_noMerge h'.noMerge
  rw [wp_bind]
  refine wp_mono (before_frame (uses_connect hmanages (fun _ => trivial) _ _) h) ?_
  intro connected m₁ t₁ h₁
  cases connected with
  | none => exact notifiedIff_of_noMerge h₁.noMerge
  | some tSocket =>
      simp only
      rw [wp_bind]
      refine wp_mono (before_frame (uses_clientHandShake talks_plain _ _ _) h₁) ?_
      rintro ⟨handShaken, netStats₂⟩ m₂ t₂ h₂
      simp only
      split_ifs
      · exact wp_giveUp_before h₂
      rw [wp_bind]
      refine wp_mono (before_frame (C := fun _ => True) (uses_referencedState trivial) h₂)
        fun tState m₃ t₃ h₃ => ?_
      have h₃' := h₃.concat (.messageOut dataTypeName (P.fromStateSlice tState)) trivial
      rw [wp_bind, wp_event, wp_bind]
      refine wp_mono (before_frame (uses_sendNetworkMessage talks_plain _ _ _ _) h₃') ?_
      rintro ⟨totalSent, netStats₄⟩ m₄ t₄ h₄
      simp only
      split_ifs
      · exact wp_giveUp_before h₄
      rw [wp_bind]
      refine wp_mono (before_frame (uses_receiveNetworkMessage talks_plain _ _ _) h₄) ?_
      rintro ⟨totalReceived, netMessage, netStats₅⟩ m₅ t₅ h₅
      simp only
      split_ifs
      · exact wp_giveUp_before h₅
      have h₅' := h₅.concat (.messageIn netMessage.mTypeName netMessage.mData) trivial
      rw [wp_bind, wp_event, wp_bind]
      refine wp_mono (before_frame (C := fun _ => True) (uses_call trivial) h₅')
        fun _ m₆ t₆ h₆ => ?_
      rw [wp_bind]
      refine wp_mono (mergeSlice_outcome _ _ _ h₆) ?_
      rintro changes m₇ t₇ ⟨hpeer₇, ⟨rfl, hno⟩ | ⟨pre, hpre, rfl⟩⟩
      · rw [if_pos rfl]
        exact wp_giveUp_before ⟨hpeer₇, hno⟩
      have hsettled : ¬ JustUnlocked
          (pre ++ [.marked (.merged netMessage.mTypeName changes)] : Trace D) :=
        not_justUnlocked_concat (by rintro _ _ _ ⟨⟩)
      split_ifs with hchanges
      · exact wp_giveUp_after hpeer₇ hpre (RestTo.refl hsettled) fun hpos => by omega
      rw [wp_bind]
      refine wp_mono (rest_frame (uses_call trivial) hpeer₇ hsettled) ?_
      rintro - m₈ t₈ ⟨hpeer₈, h₈⟩
      exact wp_finish hpeer₈ hpre h₈ fun statOk => Iff.rfl

/-- **When no notification is lost.** On a daemon that is a peer, whatever the
system and the peers do, a session of a server that returns has notified the hooks
of every significant merge exactly when after it the answer was sent and
acknowledged and the statistics file could be locked; for a session of a client
only the latter counts. -/
theorem sessions_notify_iff (P : Platform D) (env : Env SysCall Ans (Process D) σ) (s : σ)
    (m : Process D) (hpeer : m.shared.isPeer) :
    (∀ pSocket : ObjId,
      let run := (handleReqSyncConnection P pSocket .storage).exec env ⟨s, m, []⟩
      Meets PeerStays [] run.2.trace → run.1 ≠ none →
        (Notified run.2.trace ↔ AfterMerge (fun _ t post =>
          Meets TransportOk t post ∧ Acknowledged post ∧ Meets StatFileOk t post) run.2.trace)) ∧
    ∀ (dataTypeName : StdString) (peerAddr : SockAddr),
      let run := (syncWithPeer P dataTypeName peerAddr .storage).exec env ⟨s, m, []⟩
      Meets PeerStays [] run.2.trace → run.1 ≠ none →
        (Notified run.2.trace ↔ AfterMerge (fun _ t post => Meets StatFileOk t post)
          run.2.trace) := by
  have hbefore : Before m ([] : Trace D) := ⟨hpeer, fun _ _ h => by cases h⟩
  constructor
  · intro pSocket run hstays hreturns
    obtain ⟨-, -, h⟩ := exec_returns (handleReqSyncConnection_notifies hbefore) hstays hreturns
    exact h
  · intro dataTypeName peerAddr run hstays hreturns
    obtain ⟨-, -, h⟩ := exec_returns (syncWithPeer_notifies dataTypeName peerAddr hbefore) hstays
      hreturns
    exact h

end Sessions

/-! ### A client that does and one that does not acknowledge -/

/-- A merge that nobody is notified of. -/
lemma not_notified {t : Trace D} {typeName : StdString} {changes : ℤ} (hpos : 0 < changes)
    (hmerged : .merged typeName changes ∈ marks t) (hhooks : .notifyHooks typeName ∉ marks t) :
    ¬ Notified t := by
  intro h
  obtain ⟨pre, post, rfl⟩ := List.append_of_mem (mem_marks.mp hmerged)
  refine hhooks (mem_marks.mpr (List.mem_append_right _ (List.mem_cons_of_mem _ ?_)))
  exact h pre typeName changes post rfl hpos

/-- All merges are of one type, and the run ends with a notification for it. -/
lemma notified_of_marks {t : Trace D} (typeName : StdString)
    (htype : ∀ typeName' n, .merged typeName' n ∈ marks t → typeName' = typeName)
    (hlast : (marks t).getLast? = some (.notifyHooks typeName)) : Notified t := by
  rintro pre typeName' changes post rfl -
  obtain rfl := htype typeName' changes (mem_marks.mpr (by simp))
  have hsplit : marks (pre ++ .marked (.merged typeName' changes) :: post)
      = marks pre ++ .merged typeName' changes :: marks post := marks_append _ _
  rw [hsplit] at hlast
  refine mem_marks.mp ?_
  rcases List.eq_nil_or_concat (marks post) with hnil | ⟨l, e, hl⟩
  · rw [hnil] at hlast
    simp at hlast
  · rw [hl, List.concat_eq_append, ← List.cons_append, ← List.append_assoc,
      List.getLast?_concat] at hlast
    rw [hl, Option.some.inj hlast]
    simp

instance (t : Trace D) (m : Process D) (c : SysCall) (a : Ans c) :
    Decidable (PeerStays t (.called m c a)) := .isTrue trivial

instance (t : Trace D) (e : Mark) : Decidable (PeerStays t (.marked e)) := .isTrue trivial

/-- A client that acknowledges the answer, and a server that answers: both times
the hooks are notified. -/
theorem notification_kept :
    let server := (handleReqSyncConnection (samplePlatform (bytes "b")) 0 .storage).exec readySocket
      ⟨clientStream (acknowledgement sampleText), sampleProcess ∅, []⟩
    let client := (syncWithPeer (samplePlatform (bytes "b")) (bytes "A") [] .storage).exec
      readySocket ⟨serverStream emptyText, sampleProcess ∅, []⟩
    (Notified server.2.trace ∧ AfterMerge (fun _ t post =>
      Meets TransportOk t post ∧ Acknowledged post ∧ Meets StatFileOk t post) server.2.trace) ∧
    Notified client.2.trace ∧
      AfterMerge (fun _ t post => Meets StatFileOk t post) client.2.trace := by
  intro server client
  have hserver : server.1 = some false ∧ meetsAlone PeerStays [] server.2.trace ∧
      marks server.2.trace = [.messageIn (bytes "A") sampleText, .merged (bytes "A") 1,
        .messageOut (bytes "A") sampleText, .bubbled .ioError, .notifyHooks (bytes "A")] := by
    decide +kernel
  have hclient : client.1 = some false ∧ meetsAlone PeerStays [] client.2.trace ∧
      marks client.2.trace = [.registered 1, .messageOut (bytes "A") emptyText,
        .messageIn (bytes "A") sampleText, .merged (bytes "A") 1, .bubbled .ioError,
        .notifyHooks (bytes "A")] := by
    decide +kernel
  obtain ⟨hreturns, halone, hmarks⟩ := hserver
  obtain ⟨hreturns', halone', hmarks'⟩ := hclient
  have hnotified : Notified server.2.trace :=
    notified_of_marks (bytes "A") (by rw [hmarks]; simp) (by rw [hmarks]; rfl)
  have hnotified' : Notified client.2.trace :=
    notified_of_marks (bytes "A") (by rw [hmarks']; simp) (by rw [hmarks']; rfl)
  have hiff := sessions_notify_iff (samplePlatform (bytes "b")) readySocket
    (clientStream (acknowledgement sampleText)) (sampleProcess ∅) rfl
  have hiff' := sessions_notify_iff (samplePlatform (bytes "b")) readySocket
    (serverStream emptyText) (sampleProcess ∅) rfl
  refine ⟨⟨hnotified, ?_⟩, hnotified', ?_⟩
  · refine (hiff.1 0 (meets_of_meetsAlone halone) ?_).mp hnotified
    rw [hreturns]
    rintro ⟨⟩
  · refine (hiff'.2 (bytes "A") [] (meets_of_meetsAlone halone') ?_).mp hnotified'
    rw [hreturns']
    rintro ⟨⟩

/-- A client that disconnects before it acknowledges the answer: the slice is
merged, and no hook hears of it. -/
theorem notification_lost :
    let run := (handleReqSyncConnection (samplePlatform (bytes "b")) 0 .storage).exec readySocket
      ⟨clientStream [], sampleProcess ∅, []⟩
    (sampleProcess ∅).shared.isPeer ∧ Meets PeerStays [] run.2.trace ∧ run.1 = some false ∧
      ¬ Notified run.2.trace := by
  intro run
  have hrun : run.1 = some false ∧ meetsAlone PeerStays [] run.2.trace ∧
      marks run.2.trace = [.messageIn (bytes "A") sampleText, .merged (bytes "A") 1,
        .messageOut (bytes "A") sampleText, .bubbled .messageSize] := by
    decide +kernel
  obtain ⟨hreturns, halone, hmarks⟩ := hrun
  have hmerged : .merged (bytes "A") 1 ∈ marks run.2.trace := by
    rw [hmarks]
    simp
  have hhooks : .notifyHooks (bytes "A") ∉ marks run.2.trace := by
    rw [hmarks]
    simp
  exact ⟨rfl, meets_of_meetsAlone halone, hreturns, not_notified one_pos hmerged hhooks⟩

end SharedStateAsync
