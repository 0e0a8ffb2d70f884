/-
What a run says about a connection.

The bytes that came in and went out, and whether the transport failed, are read
off the steps of a run. The specifications of `recv` and `send` are stated in
these terms and hold under every condition on the environment.

* `received`, `sent`: the bytes a run has read from and written to its socket;
* `TransportOk`: no attempt to read or write the socket fails;
* `Exchange`: a part of a run that does nothing but read and write the socket,
  with what came in and went out and whether all went well;
* `recv_spec`, `send_spec`: the loops around the two system calls;
* `FromStream`: the answers are those of a socket whose peer sends a given
  stream and then closes its side.
-/
import SharedStateAsync.Io.Socket

namespace SharedStateAsync

open Coro

variable {D α : Type}

/-! ### Bytes in and out -/

/-- The bytes a step has read from the socket. -/
def Step.received : Step D → StdString
  | .called _ (.recv _ _) (.ok b) => b.1
  | _ => []

/-- The bytes a step has written to the socket. -/
def Step.sent : Step D → StdString
  | .called _ (.send _ buffer) (.ok n) => buffer.take n.1
  | _ => []

/-- The bytes a run has read from its socket. -/
def received (t : Trace D) : StdString := t.flatMap Step.received

/-- The bytes a run has written to its socket. -/
def sent (t : Trace D) : StdString := t.flatMap Step.sent

@[simp] lemma received_append (t u : Trace D) : received (t ++ u) = received t ++ received u := by
  simp [received]

@[simp] lemma sent_append (t u : Trace D) : sent (t ++ u) = sent t ++ sent u := by
  simp [sent]

lemma received_singleton (i : Step D) : received [i] = i.received := by simp [received]

lemma sent_singleton (i : Step D) : sent [i] = i.sent := by simp [sent]

lemma received_concat_quiet {t : Trace D} {i : Step D} (hi : i.received = []) :
    received (t ++ [i]) = received t := by
  rw [received_append, received_singleton, hi, List.append_nil]

/-- A step of a coroutine that only talks to its socket. -/
def Step.IsTransport : Step D → Prop
  | .called _ (.recv _ _) _ | .called _ (.send _ _) _ | .called _ .steadyClock _ => True
  | .resumed _ _ => True
  | .marked (.bubbled _) => True
  | _ => False

/-! ### Failures -/

/-- The coroutine has just been resumed. -/
def Woken (t : Trace D) : Prop := ∃ pre m m', t = pre ++ [.resumed m m']

lemma woken_concat_resumed (t : Trace D) (m m' : Process D) : Woken (t ++ [.resumed m m']) :=
  ⟨t, m, m', rfl⟩

/-- An attempt fails: with an error that does not mean waiting, or although the
descriptor was reported ready. -/
def Fails (t : Trace D) (r : Except Errno α) : Prop :=
  r.isOk = false ∧ (shouldWait r → Woken t)

/-- No attempt to read or write the socket fails. -/
def TransportOk : Rely SysCall Ans (Process D) Mark
  | t, .called _ (.recv _ _) r => ¬ Fails t r
  | t, .called _ (.send _ _) r => ¬ Fails t r
  | _, _ => True

/-- The steps `seg`, taken after `t` under the condition `R`, do nothing but talk
to the socket: `inp` came in and `out` went out, and all went well or not. -/
structure Exchange (R : Rely SysCall Ans (Process D) Mark) (t seg : Trace D)
    (inp out : StdString) (ok : Prop) : Prop where
  meets : Meets R t seg
  received_eq : received seg = inp
  sent_eq : sent seg = out
  transport : ∀ i ∈ seg, i.IsTransport
  ok_iff : Meets TransportOk t seg ↔ ok

section Exchange

variable {R : Rely SysCall Ans (Process D) Mark} {t seg seg' : Trace D}
  {inp inp' out out' : StdString} {ok ok' : Prop}

/-- Two exchanges, one after the other. -/
lemma Exchange.append (h : Exchange R t seg inp out ok)
    (h' : Exchange R (t ++ seg) seg' inp' out' ok') :
    Exchange R t (seg ++ seg') (inp ++ inp') (out ++ out') (ok ∧ ok') where
  meets := meets_append.mpr ⟨h.meets, h'.meets⟩
  received_eq := by rw [received_append, h.received_eq, h'.received_eq]
  sent_eq := by rw [sent_append, h.sent_eq, h'.sent_eq]
  transport := by
    intro i hi
    rcases List.mem_append.mp hi with hi | hi
    · exact h.transport i hi
    · exact h'.transport i hi
  ok_iff := by
    rw [meets_append, h.ok_iff, h'.ok_iff]

lemma Exchange.congr (h : Exchange R t seg inp out ok) (hok : ok ↔ ok') :
    Exchange R t seg inp out ok' :=
  ⟨h.meets, h.received_eq, h.sent_eq, h.transport, h.ok_iff.trans hok⟩

lemma Exchange.singleton {i : Step D} (hR : R t i) (hi : i.IsTransport) :
    Exchange R t [i] i.received i.sent (TransportOk t i) :=
  ⟨meets_singleton.mpr hR, received_singleton i, sent_singleton i, by simpa using hi,
    meets_singleton⟩

/-- From `t` to `t'` a run has talked to its socket only, and has not been
suspended since. -/
def Progress (R : Rely SysCall Ans (Process D) Mark) (t t' : Trace D) (inp out : StdString)
    (ok : Prop) : Prop :=
  ∃ seg, t' = t ++ seg ∧ Exchange R t seg inp out ok ∧ ¬ Woken t'

lemma Progress.trans {t' t'' : Trace D} (h : Progress R t t' inp out ok)
    (h' : Progress R t' t'' inp' out' ok') :
    Progress R t t'' (inp ++ inp') (out ++ out') (ok ∧ ok') := by
  obtain ⟨seg, rfl, hex, -⟩ := h
  obtain ⟨seg', rfl, hex', hw'⟩ := h'
  exact ⟨seg ++ seg', List.append_assoc _ _ _, hex.append hex', hw'⟩

lemma Progress.congr {t' : Trace D} (h : Progress R t t' inp out ok) (hok : ok ↔ ok') :
    Progress R t t' inp out ok' := by
  obtain ⟨seg, rfl, hex, hw⟩ := h
  exact ⟨seg, rfl, hex.congr hok, hw⟩

lemma Progress.not_woken {t' : Trace D} (h : Progress R t t' inp out ok) : ¬ Woken t' := by
  obtain ⟨seg, rfl, -, hw⟩ := h
  exact hw

lemma Progress.received_eq {t' : Trace D} (h : Progress R t t' inp out ok) :
    received t' = received t ++ inp := by
  obtain ⟨seg, rfl, hex, -⟩ := h
  rw [received_append, hex.received_eq]

/-- From the start of a run on, whether all went well is read off the run. -/
lemma Progress.ok_iff {t' : Trace D} (h : Progress R [] t' inp out ok) :
    Meets TransportOk [] t' ↔ ok := by
  obtain ⟨seg, rfl, hex, -⟩ := h
  exact hex.ok_iff

lemma Progress.sent_eq {t' : Trace D} (h : Progress R t t' inp out ok) :
    sent t' = sent t ++ out := by
  obtain ⟨seg, rfl, hex, -⟩ := h
  rw [sent_append, hex.sent_eq]

end Exchange

/-! ### Waiting for the socket -/

lemma not_woken_concat_called (t : Trace D) (m : Process D) (c : SysCall) (a : Ans c) :
    ¬ Woken (t ++ [.called m c a]) := by
  rintro ⟨pre, m₁, m₂, h⟩
  simp at h

lemma not_woken_concat_marked (t : Trace D) (e : Mark) : ¬ Woken (t ++ [.marked e]) := by
  rintro ⟨pre, m₁, m₂, h⟩
  simp at h

lemma not_fails_of_isOk {t : Trace D} {r : Except Errno α} (h : r.isOk) : ¬ Fails t r := by
  rintro ⟨hne, -⟩
  rw [h] at hne
  cases hne

lemma not_fails_of_shouldWait {t : Trace D} {r : Except Errno α} (ht : ¬ Woken t)
    (h : shouldWait r) : ¬ Fails t r :=
  fun hfail => ht (hfail.2 h)

lemma not_isOk_error (e : Errno) : ¬ (Except.error e : Except Errno α).isOk := by
  rintro ⟨⟩

/-- What is known of the step an attempt to use the socket makes. -/
structure IsAttempt (L : Step D → Except Errno α → Prop)
    (inp out : Except Errno α → StdString) : Prop where
  transport : ∀ {i r}, L i r → i.IsTransport
  received_eq : ∀ {i r}, L i r → i.received = inp r
  sent_eq : ∀ {i r}, L i r → i.sent = out r
  ok_iff : ∀ {i r} (t : Trace D), L i r → (TransportOk t i ↔ ¬ Fails t r)
  not_woken : ∀ {i r} (t : Trace D), L i r → ¬ Woken (t ++ [i])
  error : ∀ e, inp (.error e) = [] ∧ out (.error e) = []

section Await

variable {R : Rely SysCall Ans (Process D) Mark} {X : Process D → Trace D → Prop}
  {m : Process D} {t : Trace D} {L : Step D → Except Errno α → Prop}
  {inp out : Except Errno α → StdString}

lemma IsAttempt.exchange (hL : IsAttempt L inp out) {i : Step D} {r : Except Errno α}
    (hi : L i r) (hR : R t i) : Exchange R t [i] (inp r) (out r) (¬ Fails t r) := by
  have h := Exchange.singleton hR (hL.transport hi)
  rw [hL.received_eq hi, hL.sent_eq hi] at h
  exact h.congr (hL.ok_iff t hi)

/-- The last attempt of an operation, with the report of its outcome. -/
lemma wp_report_attempt (hR : ∀ t e, R t (.marked e)) (hL : IsAttempt L inp out)
    {i : Step D} {r : Except Errno α} (hi : L i r) (hRi : R t i) (hfails : Fails t r ↔ ¬ r.isOk) :
    wp R X (reportError .storage r)
      (fun _ _ t' => ∃ seg, t' = t ++ seg ∧ Exchange R t seg (inp r) (out r) r.isOk ∧
        ¬ Woken t' ∧ (r.isOk → seg = [i])) m (t ++ [i]) := by
  have hex := (hL.exchange hi hRi).congr (show ¬ Fails t r ↔ r.isOk by rw [hfails, not_not])
  cases r with
  | ok a => exact ⟨[i], rfl, hex, hL.not_woken t hi, fun _ => rfl⟩
  | error e =>
      have hmark : Exchange R (t ++ [i]) [.marked (.bubbled (.errno e))] [] [] True :=
        (Exchange.singleton (hR (t ++ [i]) (.bubbled (.errno e))) trivial).congr
          (iff_of_true trivial trivial)
      have hboth := hex.append hmark
      rw [List.append_nil, List.append_nil] at hboth
      exact ⟨_, List.append_assoc _ _ _, hboth.congr (and_iff_left trivial),
        not_woken_concat_marked _ _, fun h => by cases h⟩

/-- **Waiting for the socket**: the awaited operation is an exchange that goes
well exactly when it returns a result, and then its last step is the attempt
that gave it. -/
theorem wp_awaitSyscall (hR : ∀ t e, R t (.marked e)) (hL : IsAttempt L inp out)
    {syscall : Io D (Except Errno α)}
    (hcall : ∀ m t (Q : Except Errno α → Process D → Trace D → Prop),
      (∀ i r, L i r → R t i → Q r m (t ++ [i])) → wp R X syscall Q m t)
    (ht : ¬ Woken t) :
    wp R X (awaitSyscall false .storage fun _ => syscall)
      (fun r _ t' => ∃ seg, t' = t ++ seg ∧ Exchange R t seg (inp r) (out r) r.isOk ∧
        ¬ Woken t' ∧
        (r.isOk → ∃ pre i, seg = pre ++ [i] ∧ L i r ∧ received pre = [] ∧ R (t ++ pre) i))
      m t := by
  rw [awaitSyscall, wp_bind]
  refine hcall m t _ fun i r hi hRi => ?_
  by_cases hwait : shouldWait r
  · -- the first attempt would have blocked: it moves no byte, and does not fail
    have hquiet : Exchange R t [i] [] [] True := by
      obtain ⟨e, rfl⟩ : ∃ e, r = .error e := by
        cases r with
        | ok a => cases hwait
        | error e => exact ⟨e, rfl⟩
      have h := hL.exchange hi hRi
      rw [(hL.error e).1, (hL.error e).2] at h
      exact h.congr (iff_of_true (not_fails_of_shouldWait ht hwait) trivial)
    rw [if_pos hwait, wp_bind, wp_giveWay]
    intro m' hm'
    have hresumed : Exchange R (t ++ [i]) [.resumed m m'] [] [] True :=
      (Exchange.singleton hm' trivial).congr (iff_of_true trivial trivial)
    have hfirst := (hquiet.append hresumed).congr (iff_of_true ⟨trivial, trivial⟩ trivial)
    have hwoken := woken_concat_resumed (t ++ [i]) m m'
    rw [List.append_assoc] at hwoken ⊢
    generalize [i] ++ [Item.resumed m m'] = first at *
    rw [wp_bind]
    refine hcall m' _ _ fun j r' hj hRj => ?_
    have hfails : Fails (t ++ first) r' ↔ ¬ r'.isOk := by
      rw [Fails, and_iff_left (fun _ => hwoken), Bool.not_eq_true]
    rw [Bool.false_and, if_neg Bool.false_ne_true, wp_bind]
    refine wp_mono (wp_report_attempt hR hL hj hRj hfails) ?_
    rintro - m'' t' ⟨seg, rfl, hex, hw, hlast⟩
    refine ⟨first ++ seg, List.append_assoc _ _ _, ?_, hw, fun hok => ?_⟩
    · exact (hfirst.append hex).congr (and_iff_right trivial)
    · exact ⟨first, j, by rw [hlast hok], hj, hfirst.received_eq, hRj⟩
  · rw [if_neg hwait, wp_bind]
    have hfails : Fails t r ↔ ¬ r.isOk := by
      rw [Fails, and_iff_left (fun h => absurd h hwait), Bool.not_eq_true]
    refine wp_mono (wp_report_attempt hR hL hi hRi hfails) ?_
    rintro - m' t' ⟨seg, rfl, hex, hw, hlast⟩
    refine ⟨seg, rfl, hex, hw, fun hok => ⟨[], i, hlast hok, hi, rfl, ?_⟩⟩
    rw [List.append_nil]
    exact hRi

/-! ### Reading -/

/-- The bytes of an answer. -/
def readBytes {len : ℕ} : Except Errno { b : StdString // b.length ≤ len } → StdString
  | .ok b => b.1
  | .error _ => []

lemma isAttempt_recv (len : ℕ) :
    IsAttempt (fun (i : Step D) r => ∃ m fd, i = .called m (.recv fd len) r) readBytes
      fun _ => [] where
  transport := by
    rintro i r ⟨m, fd, rfl⟩
    trivial
  received_eq := by
    rintro i r ⟨m, fd, rfl⟩
    cases r with
    | ok b => rfl
    | error e => rfl
  sent_eq := by
    rintro i r ⟨m, fd, rfl⟩
    rfl
  ok_iff := by
    rintro i r t ⟨m, fd, rfl⟩
    rfl
  not_woken := by
    rintro i r t ⟨m, fd, rfl⟩
    exact not_woken_concat_called _ _ _ _
  error := fun e => ⟨rfl, rfl⟩

/-- A step that asked for bytes and got none. -/
def Step.IsEmptyRead (i : Step D) : Prop :=
  ∃ (m : Process D) (fd : ℤ) (len : ℕ) (h : ([] : StdString).length ≤ len),
    0 < len ∧ i = .called m (.recv fd len) (.ok ⟨[], h⟩)

/-- What a read of `len` bytes leaves: the bytes it got, all of them unless the
last attempt got none. -/
def ReadPost (R : Rely SysCall Ans (Process D) Mark) (t : Trace D) (len : ℕ)
    (r : ℤ × StdString) (b : StdString) (t' : Trace D) : Prop :=
  Progress R t t' b [] (r.1 ≠ -1) ∧ r.2.length ≤ len ∧
    (r.1 ≠ -1 → r.1 = r.2.length) ∧
    (r.1 ≠ -1 → r.2.length < len →
      ∃ (pre : Trace D) (i : Step D), t' = pre ++ [i] ∧ i.IsEmptyRead ∧ R pre i)

lemma recvLoop_spec (hR : ∀ t e, R t (.marked e)) (pSocket : ObjId) (len : ℕ) :
    ∀ (buffer : StdString) (m : Process D) (t : Trace D), buffer.length ≤ len → ¬ Woken t →
    wp R X (readLoop (fun len => do sysCall (.recv (← getFD pSocket) len)) .storage len buffer)
      (fun r _ t' => ∃ b, r.2 = buffer ++ b ∧ ReadPost R t len r b t') m t := by
  intro buffer
  induction hn : len - buffer.length using Nat.strong_induction_on generalizing buffer with
  | _ n ih =>
      intro m t hlen ht
      rw [readLoop, wp_bind]
      have hcall : ∀ m t (Q : Except Errno { b : StdString // b.length ≤ len - buffer.length } →
          Process D → Trace D → Prop),
          (∀ i r, (∃ m fd, i = .called m (.recv fd (len - buffer.length)) r) → R t i →
            Q r m (t ++ [i])) →
          wp R X (do sysCall (.recv (← getFD pSocket) (len - buffer.length))) Q m t := by
        intro m t Q hQ r hr
        exact hQ _ r ⟨m, _, rfl⟩ hr
      refine wp_mono (wp_awaitSyscall hR (isAttempt_recv _) hcall ht) ?_
      rintro r m' t' ⟨seg, rfl, hex, hw, hlast⟩
      cases r with
      | error e =>
          refine ⟨[], (List.append_nil _).symm, ⟨seg, rfl, hex.congr ?_, hw⟩, hlen,
            fun h => absurd rfl h, fun h => absurd rfl h⟩
          exact iff_of_false (not_isOk_error e) fun h => h rfl
      | ok b =>
          have hroom : (buffer ++ b.1).length ≤ len := by
            rw [List.length_append]
            have := b.2
            omega
          by_cases hmore : b.1 ≠ [] ∧ (buffer ++ b.1).length < len
          · simp only [if_pos hmore]
            have hlt : len - (buffer ++ b.1).length < n := by
              have hpos : 0 < b.1.length := List.length_pos_iff.mpr hmore.1
              have hlt := hmore.2
              rw [List.length_append] at hlt ⊢
              omega
            refine wp_mono (ih _ hlt (buffer ++ b.1) rfl m' (t ++ seg) hroom hw) ?_
            rintro ⟨ret, buf⟩ m'' t'' ⟨b', hbuf, hprog, hlen', hret, hend⟩
            have hfirst : Progress R t (t ++ seg) b.1 [] _ := ⟨seg, rfl, hex, hw⟩
            exact ⟨b.1 ++ b', by rw [hbuf, List.append_assoc],
              (hfirst.trans hprog).congr (and_iff_right rfl), hlen', hret, hend⟩
          · simp only [if_neg hmore]
            refine ⟨b.1, rfl, ⟨seg, rfl, hex.congr ?_, hw⟩, hroom, fun _ => rfl,
              fun _ hshort => ?_⟩
            · exact iff_of_true rfl (by simp only []; omega)
            · -- the loop was left early, so the last attempt got nothing
              have hnil : b.1 = [] := by
                by_contra hne
                exact hmore ⟨hne, hshort⟩
              obtain ⟨pre, i, rfl, ⟨m₁, fd, rfl⟩, -, hRi⟩ := hlast rfl
              refine ⟨t ++ pre, _, (List.append_assoc _ _ _).symm,
                ⟨m₁, fd, len - buffer.length, Nat.zero_le _, ?_, ?_⟩, hRi⟩
              · have hshort' : (buffer ++ b.1).length < len := hshort
                rw [hnil, List.append_nil] at hshort'
                omega
              · rw [show b = ⟨[], Nat.zero_le _⟩ from Subtype.ext hnil]

/-- **Reading from the socket.** -/
theorem recv_spec (hR : ∀ t e, R t (.marked e)) (pSocket : ObjId) (len : ℕ) (ht : ¬ Woken t) :
    wp R X (recv pSocket len .storage) (fun r _ t' => ReadPost R t len r r.2 t') m t := by
  refine wp_mono (recvLoop_spec hR pSocket len [] m t (Nat.zero_le _) ht) ?_
  rintro ⟨ret, buf⟩ m' t' ⟨b, hbuf, hpost⟩
  rw [show b = buf from hbuf.symm] at hpost
  exact hpost

/-! ### Writing -/

/-- The bytes of the buffer that an answer takes. -/
def writtenBytes (buffer : StdString) : Except Errno { n : ℕ // n ≤ buffer.length } → StdString
  | .ok n => buffer.take n.1
  | .error _ => []

lemma isAttempt_send (buffer : StdString) :
    IsAttempt (fun (i : Step D) r => ∃ m fd, i = .called m (.send fd buffer) r) (fun _ => [])
      (writtenBytes buffer) where
  transport := by
    rintro i r ⟨m, fd, rfl⟩
    trivial
  received_eq := by
    rintro i r ⟨m, fd, rfl⟩
    rfl
  sent_eq := by
    rintro i r ⟨m, fd, rfl⟩
    cases r with
    | ok n => rfl
    | error e => rfl
  ok_iff := by
    rintro i r t ⟨m, fd, rfl⟩
    rfl
  not_woken := by
    rintro i r t ⟨m, fd, rfl⟩
    exact not_woken_concat_called _ _ _ _
  error := fun e => ⟨rfl, rfl⟩

/-- A step that offered bytes of which none was taken. -/
def Step.IsEmptyWrite (i : Step D) : Prop :=
  ∃ (m : Process D) (fd : ℤ) (buffer : StdString) (h : 0 ≤ buffer.length),
    buffer ≠ [] ∧ i = .called m (.send fd buffer) (.ok ⟨0, h⟩)

/-- What a write of the buffer, from byte `n` on, leaves: `out` went out, which
is all of the rest unless the last attempt took none. -/
def WritePost (R : Rely SysCall Ans (Process D) Mark) (t : Trace D) (buffer : StdString) (n : ℕ)
    (ret : ℤ) (out : StdString) (t' : Trace D) : Prop :=
  Progress R t t' [] out (ret ≠ -1) ∧ out <+: buffer.drop n ∧ (ret ≠ -1 → ret = n + out.length) ∧
    (ret ≠ -1 → out ≠ buffer.drop n →
      ∃ (pre : Trace D) (i : Step D), t' = pre ++ [i] ∧ i.IsEmptyWrite ∧ R pre i)

lemma sendLoop_spec (hR : ∀ t e, R t (.marked e)) (pSocket : ObjId) (buffer : StdString) :
    ∀ (n : ℕ) (m : Process D) (t : Trace D), n ≤ buffer.length → ¬ Woken t →
    wp R X (writeLoop (fun b => do sysCall (.send (← getFD pSocket) b)) .storage buffer n)
      (fun ret _ t' => ∃ out, WritePost R t buffer n ret out t') m t := by
  intro n
  induction hk : buffer.length - n using Nat.strong_induction_on generalizing n with
  | _ k ih =>
      intro m t hn ht
      rw [writeLoop, wp_bind]
      have hcall : ∀ m t (Q : Except Errno { l : ℕ // l ≤ (buffer.drop n).length } →
          Process D → Trace D → Prop),
          (∀ i r, (∃ m fd, i = .called m (.send fd (buffer.drop n)) r) → R t i →
            Q r m (t ++ [i])) →
          wp R X (do sysCall (.send (← getFD pSocket) (buffer.drop n))) Q m t := by
        intro m t Q hQ r hr
        exact hQ _ r ⟨m, _, rfl⟩ hr
      refine wp_mono (wp_awaitSyscall hR (isAttempt_send _) hcall ht) ?_
      rintro r m' t' ⟨seg, rfl, hex, hw, hlast⟩
      cases r with
      | error e =>
          refine ⟨[], ⟨seg, rfl, hex.congr ?_, hw⟩, List.nil_prefix, fun h => absurd rfl h,
            fun h => absurd rfl h⟩
          exact iff_of_false (not_isOk_error e) fun h => h rfl
      | ok taken =>
          obtain ⟨l, htaken⟩ := taken
          have hl : l ≤ buffer.length - n := htaken.trans_eq List.length_drop
          have hlen : ((buffer.drop n).take l).length = l := List.length_take_of_le htaken
          have hsplit : buffer.drop n = (buffer.drop n).take l ++ buffer.drop (n + l) := by
            rw [← List.drop_drop, List.take_append_drop]
          by_cases hmore : l ≠ 0 ∧ n + l < buffer.length
          · simp only [if_pos hmore]
            refine wp_mono (ih _ (by omega) (n + l) rfl m' (t ++ seg) (by omega) hw) ?_
            rintro ret m'' t'' ⟨out, hprog, hout, hret, hend⟩
            have hfirst : Progress R t (t ++ seg) [] ((buffer.drop n).take l) _ :=
              ⟨seg, rfl, hex, hw⟩
            refine ⟨(buffer.drop n).take l ++ out, (hfirst.trans hprog).congr (and_iff_right rfl),
              ?_, fun h => ?_, fun h hne => ?_⟩
            · have hpre := (List.prefix_append_right_inj ((buffer.drop n).take l)).mpr hout
              rwa [← hsplit] at hpre
            · rw [List.length_append, hlen, hret h]
              push_cast
              omega
            · refine hend h fun heq => hne ?_
              rw [heq]
              exact hsplit.symm
          · simp only [if_neg hmore]
            refine ⟨(buffer.drop n).take l, ⟨seg, rfl, hex.congr ?_, hw⟩, List.take_prefix _ _,
              fun _ => ?_, fun _ hne => ?_⟩
            · exact iff_of_true rfl (by omega)
            · rw [hlen]
              push_cast
              rfl
            · -- the loop was left early, so the last attempt took nothing
              have hne' : ¬ buffer.length ≤ n + l := by
                intro hall
                refine hne (List.take_of_length_le ?_)
                rw [List.length_drop]
                omega
              have hzero : l = 0 := by omega
              obtain ⟨pre, i, rfl, ⟨m₁, fd, rfl⟩, -, hRi⟩ := hlast rfl
              refine ⟨t ++ pre, _, (List.append_assoc _ _ _).symm,
                ⟨m₁, fd, buffer.drop n, Nat.zero_le _, fun hnil => hne' ?_, ?_⟩, hRi⟩
              · rw [List.drop_eq_nil_iff] at hnil
                omega
              · subst hzero
                rfl

/-- **Writing to the socket.** -/
theorem send_spec (hR : ∀ t e, R t (.marked e)) (pSocket : ObjId) (buffer : StdString)
    (ht : ¬ Woken t) :
    wp R X (send pSocket buffer .storage)
      (fun ret _ t' => ∃ out, WritePost R t buffer 0 ret out t') m t :=
  sendLoop_spec hR pSocket buffer 0 m t (Nat.zero_le _) ht

/-- Reading the clock is part of an exchange that moves no byte. -/
lemma wp_steadyClock {Q : ℤ → Process D → Trace D → Prop}
    (hQ : ∀ (now : ℤ) (t' : Trace D), Progress R t t' [] [] True → Q now m t') :
    wp R X (sysCall .steadyClock) Q m t := by
  intro now hnow
  refine hQ now _ ⟨_, rfl, ?_, not_woken_concat_called _ _ _ _⟩
  exact (Exchange.singleton hnow trivial).congr (iff_of_true trivial trivial)

/-- An error of the protocol, stored for the caller. -/
lemma wp_bubble (hR : ∀ t e, R t (.marked e)) {c : ErrorCondition}
    {Q : Unit → Process D → Trace D → Prop}
    (hQ : ∀ t', Progress R t t' [] [] True → Q () m t') :
    wp R X (rs_error_bubble_or_exit c .storage) Q m t := by
  refine hQ _ ⟨_, rfl, ?_, not_woken_concat_marked _ _⟩
  exact (Exchange.singleton (hR t (.bubbled c)) trivial).congr (iff_of_true trivial trivial)

end Await

/-! ### A peer that sends a stream -/

/-- The socket delivers `stream` and then its end, in pieces of any size, and
takes at least one byte of what it is offered when it takes any. -/
def FromStream (stream : StdString) : Rely SysCall Ans (Process D) Mark
  | t, .called _ (.recv _ len) (.ok b) =>
      received t ++ b.1 <+: stream ∧ (b.1 = [] → 0 < len → received t = stream)
  | _, .called _ (.send _ buffer) (.ok n) => buffer ≠ [] → n.1 ≠ 0
  | _, _ => True

section Stream

variable {stream : StdString} {X : Process D → Trace D → Prop} {m : Process D} {t : Trace D}

lemma fromStream_marked (t : Trace D) (e : Mark) : FromStream stream t (.marked e) := trivial

/-- Only a read that succeeds moves bytes in. -/
lemma Step.received_cases (i : Step D) :
    i.received = [] ∨ ∃ m fd len b, i = .called m (.recv fd len) (.ok b) := by
  rw [Step.received.eq_def]
  split
  · exact Or.inr ⟨_, _, _, _, rfl⟩
  · exact Or.inl rfl

lemma received_of_fromStream {i : Step D} (hi : FromStream stream t i)
    (ht : received t <+: stream) : received (t ++ [i]) <+: stream := by
  rw [received_append, received_singleton]
  rcases i.received_cases with hnil | ⟨m, fd, len, b, rfl⟩
  · rw [hnil, List.append_nil]
    exact ht
  · exact hi.1

/-- What came in so far is a beginning of the stream. -/
lemma received_of_meets {seg : Trace D} (h : Meets (FromStream stream) t seg)
    (ht : received t <+: stream) : received (t ++ seg) <+: stream := by
  induction seg generalizing t with
  | nil => simpa using ht
  | cons i seg ih =>
      rw [← List.singleton_append, ← List.append_assoc]
      exact ih h.2 (received_of_fromStream h.1 ht)

/-- **Reading from a stream**: unless the transport fails, the next `len` bytes of
it, or what is left. -/
theorem recv_stream (pSocket : ObjId) (len : ℕ) (ht : ¬ Woken t) {rest : StdString}
    (hrest : received t ++ rest = stream) :
    wp (FromStream stream) X (recv pSocket len .storage)
      (fun r _ t' => Progress (FromStream stream) t t' r.2 [] (r.1 ≠ -1) ∧
        r.2 <+: rest ∧ (r.1 ≠ -1 → r.2 = rest.take len ∧ r.1 = r.2.length)) m t := by
  refine wp_mono (recv_spec fromStream_marked pSocket len ht) ?_
  rintro ⟨ret, b⟩ m' t' ⟨⟨seg, rfl, hex, hw⟩, hlen, hret, hend⟩
  have hsofar : received t ++ b <+: stream := by
    have h := received_of_meets hex.meets ⟨rest, hrest⟩
    rwa [received_append, hex.received_eq] at h
  have hb : b <+: rest := by
    rw [← hrest] at hsofar
    exact (List.prefix_append_right_inj _).mp hsofar
  refine ⟨⟨seg, rfl, hex, hw⟩, hb, fun hok => ⟨?_, hret hok⟩⟩
  rcases Nat.lt_or_ge b.length len with hshort | hfull
  · -- a short read ends in an empty answer, which the stream only gives at its end
    obtain ⟨pre, i, hpre, ⟨m₁, fd, l, hl, hpos, rfl⟩, hRi⟩ := hend hok hshort
    have hall : received (t ++ seg) = stream := by
      rw [hpre, received_append, received_singleton, Step.received, List.append_nil]
      exact hRi.2 rfl hpos
    have hb' : b = rest := by
      rw [received_append, hex.received_eq, ← hrest] at hall
      exact List.append_cancel_left hall
    rw [show (ret, b).2 = rest from hb', List.take_of_length_le (by rw [← hb']; omega)]
  · have hlen' : b.length = len := le_antisymm hlen hfull
    rw [List.prefix_iff_eq_take, hlen'] at hb
    exact hb

/-- **Writing to a peer**: unless the transport fails, all of the buffer. -/
theorem send_stream (pSocket : ObjId) (buffer : StdString) (ht : ¬ Woken t) :
    wp (FromStream stream) X (send pSocket buffer .storage)
      (fun ret _ t' => ∃ out, Progress (FromStream stream) t t' [] out (ret ≠ -1) ∧
        out <+: buffer ∧ (ret ≠ -1 → out = buffer ∧ ret = buffer.length)) m t := by
  refine wp_mono (send_spec fromStream_marked pSocket buffer ht) ?_
  rintro ret m' t' ⟨out, hprog, hout, hret, hend⟩
  rw [List.drop_zero] at hout hend
  refine ⟨out, hprog, hout, fun hok => ?_⟩
  have hall : out = buffer := by
    by_contra hne
    obtain ⟨pre, i, -, ⟨m₁, fd, b, hb, hbne, rfl⟩, hRi⟩ := hend hok hne
    exact hRi hbne rfl
  refine ⟨hall, ?_⟩
  rw [hret hok, hall]
  push_cast
  omega

/-- One more read after some progress: the transport fails, or the next bytes of
the stream are read, as far as it goes. -/
lemma recv_next {pSocket : ObjId} {len k : ℕ} {rest out : StdString} {t₁ : Trace D}
    {Q : ℤ × StdString → Process D → Trace D → Prop} (hrest : received t ++ rest = stream)
    (h : Progress (FromStream stream) t t₁ (rest.take k) out True)
    (hfail : ∀ b m' t', Progress (FromStream stream) t t' (rest.take k ++ b) out False →
      rest.take k ++ b <+: rest → Q (-1, b) m' t')
    (hok : ∀ m' t', Progress (FromStream stream) t t' (rest.take (k + len)) out True →
      Q ((((rest.drop k).take len).length : ℤ), (rest.drop k).take len) m' t') :
    wp (FromStream stream) X (recv pSocket len .storage) Q m t₁ := by
  have hrest₁ : received t₁ ++ rest.drop k = stream := by
    rw [h.received_eq, List.append_assoc, List.take_append_drop]
    exact hrest
  refine wp_mono (recv_stream pSocket len h.not_woken hrest₁) ?_
  rintro ⟨ret, b⟩ m' t' ⟨h', hb, hret⟩
  have hboth := h.trans h'
  rw [List.append_nil] at hboth
  by_cases hne : ret = -1
  · subst hne
    refine hfail b m' t' (hboth.congr ?_) ?_
    · exact iff_of_false (fun h => h.2 rfl) id
    · have hpre := (List.prefix_append_right_inj (rest.take k)).mpr hb
      rwa [List.take_append_drop] at hpre
  · obtain ⟨hb', hlen⟩ := hret hne
    simp only at hb' hlen
    subst hb'
    rw [hlen]
    rw [← List.take_add] at hboth
    exact hok m' t' (hboth.congr (iff_of_true ⟨trivial, hne⟩ trivial))

/-- One more write after some progress: the transport fails, or all of the buffer
is written. -/
lemma send_next {pSocket : ObjId} {buffer inp out : StdString} {t₁ : Trace D}
    {Q : ℤ → Process D → Trace D → Prop}
    (h : Progress (FromStream stream) t t₁ inp out True)
    (hfail : ∀ out' m' t', Progress (FromStream stream) t t' inp (out ++ out') False →
      out' <+: buffer → Q (-1) m' t')
    (hok : ∀ m' t', Progress (FromStream stream) t t' inp (out ++ buffer) True →
      Q buffer.length m' t') :
    wp (FromStream stream) X (send pSocket buffer .storage) Q m t₁ := by
  refine wp_mono (send_stream pSocket buffer h.not_woken) ?_
  rintro ret m' t' ⟨out', h', hout', hret⟩
  have hboth := h.trans h'
  rw [List.append_nil] at hboth
  by_cases hne : ret = -1
  · subst hne
    exact hfail out' m' t' (hboth.congr (iff_of_false (fun h => h.2 rfl) id)) hout'
  · obtain ⟨rfl, rfl⟩ := hret hne
    exact hok m' t' (hboth.congr (iff_of_true ⟨trivial, hne⟩ trivial))

/-- A socket that is always ready: it delivers what is unread of a stream and
takes all it is offered. -/
def readySocket : Env SysCall Ans (Process D) StdString where
  answer := fun unread _ c =>
    match c with
    | .recv _ len => (.ok ⟨unread.take len, List.length_take_le _ _⟩, unread.drop len)
    | c => (quietAnswer c, unread)
  others := fun unread m => (m, unread)

/-- Such a socket delivers its stream, and never fails. -/
lemma readySocket_meets {β : Type} (p : Io D β) (m : Process D) (stream : StdString) :
    Meets (FromStream stream) [] (p.exec readySocket ⟨stream, m, []⟩).2.trace ∧
      Meets TransportOk [] (p.exec readySocket ⟨stream, m, []⟩).2.trace := by
  -- what was received and what is unread make up the stream
  let J : World SysCall Ans (Process D) Mark StdString → Prop :=
    fun w => received w.trace ++ w.env = stream
  have hcall : ∀ (w : World SysCall Ans (Process D) Mark StdString) (c : SysCall), J w →
      (FromStream stream w.trace (.called w.mem c (readySocket.answer w.env w.mem c).1) ∧
        TransportOk w.trace (.called w.mem c (readySocket.answer w.env w.mem c).1)) ∧
      J (w.answered readySocket c) := by
    intro w c hw
    have hw' : received w.trace ++ w.env = stream := hw
    cases c with
    | recv fd len =>
        refine ⟨⟨⟨?_, fun hnil hpos => ?_⟩, not_fails_of_isOk rfl⟩, ?_⟩
        · rw [← hw']
          exact (List.prefix_append_right_inj _).mpr (List.take_prefix _ _)
        · have henv : w.env = [] := by
            rcases List.take_eq_nil_iff.mp hnil with hzero | henv
            · omega
            · exact henv
          rw [← hw', henv, List.append_nil]
        · show received (w.trace ++ [_]) ++ w.env.drop len = stream
          rw [received_append, received_singleton, List.append_assoc, ← hw']
          exact congrArg _ (List.take_append_drop len w.env)
    | send fd buffer =>
        refine ⟨⟨fun hne => ?_, not_fails_of_isOk rfl⟩, ?_⟩
        · exact (List.length_pos_iff.mpr hne).ne'
        · exact (congrArg (· ++ w.env) (received_concat_quiet rfl)).trans hw'
    | _ => exact ⟨⟨trivial, trivial⟩, (congrArg (· ++ w.env) (received_concat_quiet rfl)).trans hw'⟩
  have hothers : ∀ w : World SysCall Ans (Process D) Mark StdString, J w →
      (FromStream stream w.trace (.resumed w.mem (readySocket.others w.env w.mem).1) ∧
        TransportOk w.trace (.resumed w.mem (readySocket.others w.env w.mem).1)) ∧
      J (w.resumed readySocket) := fun w hw =>
    ⟨⟨trivial, trivial⟩, (congrArg (· ++ w.env) (received_concat_quiet rfl)).trans hw⟩
  have hmark : ∀ (w : World SysCall Ans (Process D) Mark StdString) (e : Mark), J w →
      (FromStream stream w.trace (.marked e) ∧ TransportOk w.trace (.marked e)) ∧
      J (w.marked e) := fun w e hw =>
    ⟨⟨trivial, trivial⟩, (congrArg (· ++ w.env) (received_concat_quiet rfl)).trans hw⟩
  obtain ⟨items, htrace, hmeets⟩ := exec_meets (R := fun t i => FromStream stream t i ∧
    TransportOk t i) (J := J) hcall hothers (fun w m hw => hw) hmark p (w := ⟨stream, m, []⟩) rfl
  rw [← meets_and, htrace]
  exact hmeets

end Stream

end SharedStateAsync
