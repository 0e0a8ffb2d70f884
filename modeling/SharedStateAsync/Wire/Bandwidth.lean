/-
The bandwidth of a transfer (`MbitPerSec` in `include/sharedstate.hh`).

Both ends read the clock before and after a transfer. If the second reading is the later one,
the bits that were moved are divided by the microseconds in between, in 64 bits and signed, and
the quotient is stored in a field of 32 bits. The check compares nanoseconds, and the divisor
counts whole microseconds.

* `EstimateExact`: the division is defined, and what is stored is the exact quotient;
* `estimateExact_iff`: when this is so;
* `readings`, `Moved`: the clock readings of a run, and the bytes its socket took;
* `receive_measures`, `send_measures`: what a completed transfer has read and stored;
* `bandwidth_exact_iff`: which transfers are estimated exactly.
-/
import SharedStateAsync.Lib.Signed64
import SharedStateAsync.Wire.Transfer

namespace SharedStateAsync

open Coro ByteOrder Signed64

variable {D : Type}

/-! ### The estimate -/

/-- The estimate for `bytes` in `ns` nanoseconds is defined, and the exact one is stored. -/
structure EstimateExact (bytes ns : ℤ) (stored : ℕ) : Prop where
  divisor : microseconds ns ≠ 0
  shift : InRange (8 * bytes)
  stored_eq : (stored : ℤ) = max 1 (8 * bytes / microseconds ns)

lemma microseconds_of_nonneg {ns : ℤ} (h : 0 ≤ ns) : microseconds ns = ns / 1000 :=
  Int.tdiv_eq_ediv_of_nonneg h

lemma toUint32_eq_iff {n : ℤ} (h : 0 ≤ n) : (toUint32 n : ℤ) = n ↔ n < 2 ^ 32 := by
  rw [toUint32]
  omega

/-- **When the estimate is exact**: the transfer takes a whole microsecond, and the quotient
fits the field. -/
theorem estimateExact_iff {bytes ns : ℤ} (hbytes : 0 ≤ bytes) (hword : bytes < 2 ^ 32)
    (hns : 0 < ns) :
    EstimateExact bytes ns (toUint32 (MbitPerSec bytes (microseconds ns)))
      ↔ 1000 ≤ ns ∧ 8 * bytes / microseconds ns < 2 ^ 32 := by
  have hquotient : MbitPerSec bytes (microseconds ns) = max 1 (8 * bytes / microseconds ns) := by
    rw [MbitPerSec, Int.tdiv_eq_ediv_of_nonneg (by omega), mul_comm]
  have hpos : 0 ≤ max 1 (8 * bytes / microseconds ns) :=
    zero_le_one.trans (le_max_left _ _)
  have hdivisor : microseconds ns ≠ 0 ↔ 1000 ≤ ns := by
    rw [microseconds_of_nonneg hns.le]
    omega
  have hstored : (toUint32 (MbitPerSec bytes (microseconds ns)) : ℤ)
      = max 1 (8 * bytes / microseconds ns) ↔ 8 * bytes / microseconds ns < 2 ^ 32 := by
    rw [hquotient, toUint32_eq_iff hpos, max_lt_iff]
    exact and_iff_right (by norm_num)
  constructor
  · rintro ⟨hdiv, -, heq⟩
    exact ⟨hdivisor.mp hdiv, hstored.mp heq⟩
  · rintro ⟨hlong, hfits⟩
    exact ⟨hdivisor.mpr hlong, ⟨by omega, by omega⟩, hstored.mpr hfits⟩

/-! ### What a run measures -/

/-- The clock reading a step has made. -/
def Step.reading : Step D → List ℤ
  | .called _ .steadyClock a => [a]
  | _ => []

/-- The clock readings of a run. -/
def readings (t : Trace D) : List ℤ := t.flatMap Step.reading

lemma readings_concat (t : Trace D) (i : Step D) :
    readings (t ++ [i]) = readings t ++ i.reading := by
  simp [readings]

lemma length_sent_concat (t : Trace D) (i : Step D) :
    (sent (t ++ [i])).length = (sent t).length + i.sent.length := by
  rw [sent_append, sent_singleton, List.length_append]

/-- From `t` to `t'` the socket has taken `n` bytes, and the clock has not been read. -/
structure Moved (t t' : Trace D) (n : ℕ) : Prop where
  readings_eq : readings t' = readings t
  sent_length : (sent t').length = (sent t).length + n

namespace Moved

variable {t t' t'' : Trace D} {n n' : ℕ}

protected lemma refl (t : Trace D) : Moved t t 0 := ⟨rfl, rfl⟩

protected lemma trans (h : Moved t t' n) (h' : Moved t' t'' n') : Moved t t'' (n + n') := by
  refine ⟨h'.readings_eq.trans h.readings_eq, ?_⟩
  rw [h'.sent_length, h.sent_length, Nat.add_assoc]

lemma concat (t : Trace D) (i : Step D) (hi : i.reading = []) : Moved t (t ++ [i]) i.sent.length :=
  ⟨by rw [readings_concat, hi, List.append_nil], length_sent_concat t i⟩

/-- A step that neither reads the clock nor writes. -/
lemma quiet (t : Trace D) (i : Step D) (hi : i.reading = []) (hsent : i.sent = []) :
    Moved t (t ++ [i]) 0 := by
  have h := concat t i hi
  rwa [hsent] at h

end Moved

section Wp

variable {R : Rely SysCall Ans (Process D) Mark} {errbub : ErrBub} {m : Process D} {t : Trace D}

/-- The bytes of a read are as many as were asked for, at most. -/
lemma returns_recv (pSocket : ObjId) (len : ℕ) :
    (recv pSocket len errbub : Io D _).Returns fun r => r.1 ≠ -1 → 0 ≤ r.1 ∧ r.1 ≤ (len : ℤ) := by
  suffices h : ∀ buffer : StdString, buffer.length ≤ len →
      (readLoop (fun len => do sysCall (.recv (← getFD pSocket) len)) errbub len buffer :
        Io D _).Returns fun r => r.1 ≠ -1 → 0 ≤ r.1 ∧ r.1 ≤ (len : ℤ) from
    h [] (Nat.zero_le len)
  intro buffer
  induction hn : len - buffer.length using Nat.strong_induction_on generalizing buffer with
  | _ n ih =>
      intro hlen
      rw [readLoop]
      refine returns_bind fun r => ?_
      cases r with
      | error e => exact returns_pure fun h => absurd rfl h
      | ok b =>
          have hb := b.2
          have hall : (buffer ++ b.1).length ≤ len := by
            rw [List.length_append]
            omega
          simp only
          split_ifs with hmore
          · refine ih _ ?_ (buffer ++ b.1) rfl hall
            have hpos : 0 < b.1.length := List.length_pos_iff.mpr hmore.1
            rw [List.length_append] at hall ⊢
            omega
          · exact returns_pure fun _ => ⟨Int.natCast_nonneg _, Int.ofNat_le.mpr hall⟩

/-- A read writes nothing, and returns the number of bytes it got. -/
lemma wp_recv_moved (pSocket : ObjId) (len : ℕ) :
    wp R (fun _ _ => True) (recv pSocket len errbub)
      (fun r _ t' => Moved t t' 0 ∧ (r.1 ≠ -1 → 0 ≤ r.1 ∧ r.1 ≤ len)) m t := by
  have huses : (recv pSocket len errbub : Io D _).Uses (fun c => ∃ fd len, c = .recv fd len)
      (fun _ => True) (fun _ _ => False) True :=
    uses_readLoop (fun _ => trivial) (fun len => uses_bind (uses_bind uses_memory fun _ =>
      uses_pure _) fun fd => uses_call ⟨fd, len, rfl⟩) len [] fun _ => trivial
  refine wp_returns (wp_of_uses (I := fun _ t' => Moved t t' 0) huses ?_ ?_ ?_ ?_ ?_ ?_)
    (returns_recv pSocket len)
  · rintro m' t' c a ⟨fd, len', rfl⟩ hmoved -
    exact hmoved.trans (Moved.quiet t' _ rfl rfl)
  · exact fun m' m'' t' hmoved _ => hmoved.trans (Moved.quiet t' _ rfl rfl)
  · exact fun m' t' e _ hmoved => hmoved.trans (Moved.quiet t' _ rfl rfl)
  · exact fun m' m'' t' hfalse _ => hfalse.elim
  · exact fun _ m' t' _ => trivial
  · exact Moved.refl t

/-- The bytes an attempt to write has moved. -/
def taken {len : ℕ} : Except Errno { n : ℕ // n ≤ len } → ℕ
  | .ok n => n.1
  | .error _ => 0

lemma taken_of_shouldWait {len : ℕ} {r : Except Errno { n : ℕ // n ≤ len }}
    (h : shouldWait r) : taken r = 0 := by
  cases r with
  | ok n => cases h
  | error e => rfl

lemma moved_send (t : Trace D) (m : Process D) (fd : ℤ) (buffer : StdString)
    (r : Ans (.send fd buffer)) : Moved t (t ++ [.called m (.send fd buffer) r]) (taken r) := by
  have hmoved := Moved.concat t (.called m (.send fd buffer) r) rfl
  cases r with
  | ok n => rwa [Step.sent, List.length_take_of_le n.2] at hmoved
  | error e => exact hmoved

/-- Reporting an outcome moves nothing. -/
lemma wp_report_moved {α : Type} (r : Except Errno α) :
    wp R (fun _ _ => True) (reportError errbub r) (fun _ _ t' => Moved t t' 0) m t := by
  cases r with
  | ok a => exact Moved.refl t
  | error e =>
      cases errbub with
      | null => trivial
      | storage => exact Moved.quiet t _ rfl rfl

/-- An awaited write has moved what its last attempt took. -/
lemma wp_await_send (pSocket : ObjId) (buffer : StdString) :
    wp R (fun _ _ => True)
      (awaitSyscall false errbub fun _ => do sysCall (.send (← getFD pSocket) buffer))
      (fun r _ t' => Moved t t' (taken r)) m t := by
  have hcall : ∀ (m : Process D) (t : Trace D)
      (Q : Ans (.send (m.objects pSocket).mFD buffer) → Process D → Trace D → Prop),
      (∀ r, Q r m (t ++ [.called m (.send (m.objects pSocket).mFD buffer) r])) →
        wp R (fun _ _ => True) (do sysCall (.send (← getFD pSocket) buffer)) Q m t :=
    fun m t Q h r _ => h r
  rw [awaitSyscall, wp_bind]
  refine hcall m t _ fun r => ?_
  have hfirst := moved_send t m (m.objects pSocket).mFD buffer r
  by_cases hwait : shouldWait r
  · rw [if_pos hwait, wp_bind, wp_giveWay]
    intro m' hm'
    rw [taken_of_shouldWait hwait] at hfirst
    have hresumed := hfirst.trans (Moved.quiet _ (.resumed m m') rfl rfl)
    rw [wp_bind]
    refine hcall m' _ _ fun r' => ?_
    have hsecond := hresumed.trans (moved_send _ m' (m'.objects pSocket).mFD buffer r')
    rw [Bool.false_and, if_neg Bool.false_ne_true, wp_bind]
    refine wp_mono (wp_report_moved r') fun _ m'' t' hreport => ?_
    have hall : Moved t t' (0 + 0 + taken r' + 0) := hsecond.trans hreport
    rw [Nat.zero_add, Nat.add_zero] at hall
    exact hall
  · rw [if_neg hwait, wp_bind]
    refine wp_mono (wp_report_moved r) fun _ m' t' hreport => ?_
    exact hfirst.trans hreport

/-- A write returns the number of bytes the socket took. -/
lemma wp_send_moved (pSocket : ObjId) (buffer : StdString) :
    wp R (fun _ _ => True) (send pSocket buffer errbub)
      (fun ret _ t' => ∃ n, Moved t t' n ∧ (ret ≠ -1 → ret = n)) m t := by
  suffices h : ∀ (total : ℕ) (m : Process D) (t : Trace D),
      wp R (fun _ _ => True)
        (writeLoop (fun b => do sysCall (.send (← getFD pSocket) b)) errbub buffer total)
        (fun ret _ t' => ∃ n, Moved t t' n ∧ (ret ≠ -1 → ret = (total + n : ℕ))) m t by
    refine wp_mono (h 0 m t) ?_
    rintro ret m' t' ⟨n, hmoved, hret⟩
    exact ⟨n, hmoved, fun hne => by rw [hret hne, Nat.zero_add]⟩
  intro total
  induction hk : buffer.length - total using Nat.strong_induction_on generalizing total with
  | _ k ih =>
      intro m t
      rw [writeLoop, wp_bind]
      refine wp_mono (wp_await_send pSocket (buffer.drop total)) ?_
      intro r m' t' hmoved
      cases r with
      | error e => exact ⟨0, hmoved, fun h => absurd rfl h⟩
      | ok n =>
          simp only
          split_ifs with hmore
          · refine wp_mono (ih _ (by omega) (total + n.1) rfl m' t') ?_
            rintro ret m'' t'' ⟨n', hmoved', hret⟩
            exact ⟨n.1 + n', hmoved.trans hmoved', fun hne => by rw [hret hne, Nat.add_assoc]⟩
          · exact ⟨n.1, hmoved, fun _ => rfl⟩

/-! ### The two transfers -/

/-- The clock is read. -/
lemma clock_then {Q : ℤ → Process D → Trace D → Prop}
    (h : ∀ a t', readings t' = readings t ++ [a] → (sent t').length = (sent t).length → Q a m t') :
    wp R (fun _ _ => True) (sysCall .steadyClock) Q m t :=
  fun a _ => h a _ (readings_concat t _) (length_sent_concat t _)

/-- A read fails, or gets some bytes. -/
lemma recv_then {pSocket : ObjId} {len : ℕ} {Q : ℤ × StdString → Process D → Trace D → Prop}
    (hfail : ∀ b m' t', Q (-1, b) m' t')
    (hok : ∀ ret b m' t', 0 ≤ ret → ret ≤ (len : ℤ) → Moved t t' 0 → Q (ret, b) m' t') :
    wp R (fun _ _ => True) (recv pSocket len errbub) Q m t := by
  refine wp_mono (wp_recv_moved pSocket len) ?_
  rintro ⟨ret, b⟩ m' t' ⟨hmoved, hret⟩
  by_cases hne : ret = -1
  · exact hne ▸ hfail b m' t'
  · exact hok ret b m' t' (hret hne).1 (hret hne).2 hmoved

/-- A write fails, or the socket takes some bytes. -/
lemma send_then {pSocket : ObjId} {buffer : StdString} {Q : ℤ → Process D → Trace D → Prop}
    (hfail : ∀ m' t', Q (-1) m' t') (hok : ∀ (n : ℕ) m' t', Moved t t' n → Q n m' t') :
    wp R (fun _ _ => True) (send pSocket buffer errbub) Q m t := by
  refine wp_mono (wp_send_moved pSocket buffer) ?_
  rintro ret m' t' ⟨n, hmoved, hret⟩
  by_cases hne : ret = -1
  · exact hne ▸ hfail m' t'
  · exact hret hne ▸ hok n m' t' hmoved

/-- What a transfer of `bytes` bytes has read off the clock, and stored. -/
def Measures (t t' : Trace D) (bytes : ℤ) (before stored : ℕ) : Prop :=
  ∃ btp etp, readings t' = readings t ++ [btp, etp] ∧
    stored = if etp > btp then toUint32 (MbitPerSec bytes (microseconds (etp - btp)))
      else before

/-- **A completed reception.** -/
theorem receive_measures (endian : Endian) (pSocket : ObjId) (netStats : NetworkStats) :
    wp R (fun _ _ => True) (receiveNetworkMessage endian pSocket netStats errbub)
      (fun r _ t' => r.1 ≠ -1 → (0 ≤ r.1 ∧ r.1 < 2 ^ 24) ∧
        Measures t t' r.1 netStats.mDownBwMbsExt r.2.2.mDownBwMbsExt) m t := by
  have hfailed : ∀ (msg : NetworkMessage) (m' : Process D) (t' : Trace D),
      wp R (fun _ _ => True)
        (do rs_error_bubble_or_exit .badMessage errbub; pure (-1, msg, netStats))
        (fun r _ t' => r.1 ≠ -1 → (0 ≤ r.1 ∧ r.1 < 2 ^ 24) ∧
          Measures t t' r.1 netStats.mDownBwMbsExt r.2.2.mDownBwMbsExt) m' t' := by
    intro msg m' t'
    rw [wp_bind]
    exact wp_mono (wp_true _) fun _ _ _ _ h => absurd rfl h
  rw [receiveNetworkMessage, wp_bind]
  refine clock_then fun btp t₀ hread₀ _ => ?_
  -- the length of the name
  rw [wp_bind]
  refine recv_then (fun _ _ _ h => absurd rfl h) fun ret₁ b₁ m₁ t₁ hpos₁ hle₁ hmoved₁ => ?_
  simp only
  rw [if_neg (by omega)]
  split_ifs with hname
  · exact hfailed _ _ _
  -- the name
  rw [wp_bind]
  refine recv_then (fun _ _ _ h => absurd rfl h) fun ret₂ b₂ m₂ t₂ hpos₂ hle₂ hmoved₂ => ?_
  simp only
  rw [if_neg (by omega), wp_bind]
  -- the length of the data
  refine recv_then (fun _ _ _ h => absurd rfl h) fun ret₃ b₃ m₃ t₃ hpos₃ hle₃ hmoved₃ => ?_
  simp only
  rw [if_neg (by omega)]
  split_ifs with hdata
  · exact hfailed _ _ _
  -- the data
  rw [wp_bind]
  refine recv_then (fun _ _ _ h => absurd rfl h) fun ret₄ b₄ m₄ t₄ hpos₄ hle₄ hmoved₄ => ?_
  simp only
  rw [if_neg (by omega), wp_bind]
  refine clock_then fun etp t₅ hread₅ _ => ?_
  rw [wp_bind]
  refine send_then (fun _ _ h => absurd rfl h) fun n m₆ t₆ hmoved₆ => ?_
  rw [if_neg (by omega)]
  rw [DATA_TYPE_NAME_MAX_LENGHT] at hname
  rw [DATA_MAX_LENGHT] at hdata
  refine fun _ => ⟨⟨by simp only; omega, by simp only; omega⟩, btp, etp, ?_,
    apply_ite NetworkStats.mDownBwMbsExt _ _ _⟩
  rw [hmoved₆.readings_eq, hread₅, hmoved₄.readings_eq, hmoved₃.readings_eq, hmoved₂.readings_eq,
    hmoved₁.readings_eq, hread₀, List.append_assoc, List.singleton_append]

/-- **A completed sending**: the bytes the socket took, which the acknowledgement counts in a
word. -/
theorem send_measures (endian : Endian) (pSocket : ObjId) (netMsg : NetworkMessage)
    (netStats : NetworkStats) :
    wp R (fun _ _ => True) (sendNetworkMessage endian pSocket netMsg netStats errbub)
      (fun r _ t' => r.1 ≠ -1 → (r.1 + (sent t).length = (sent t').length ∧ r.1 < 2 ^ 32) ∧
        Measures t t' r.1 netStats.mUpBwMbsExt r.2.mUpBwMbsExt) m t := by
  rw [sendNetworkMessage, wp_bind]
  refine clock_then fun btp t₀ hread₀ hsent₀ => ?_
  -- the four fields of the frame
  rw [wp_bind]
  refine send_then (fun _ _ h => absurd rfl h) fun n₁ m₁ t₁ hmoved₁ => ?_
  rw [if_neg (by omega), wp_bind]
  refine send_then (fun _ _ h => absurd rfl h) fun n₂ m₂ t₂ hmoved₂ => ?_
  rw [if_neg (by omega), wp_bind]
  refine send_then (fun _ _ h => absurd rfl h) fun n₃ m₃ t₃ hmoved₃ => ?_
  rw [if_neg (by omega), wp_bind]
  refine send_then (fun _ _ h => absurd rfl h) fun n₄ m₄ t₄ hmoved₄ => ?_
  rw [if_neg (by omega), wp_bind]
  -- the acknowledgement
  refine recv_then (fun _ _ _ h => absurd rfl h) fun ret b m₅ t₅ hpos hle hmoved₅ => ?_
  simp only
  rw [if_neg (by omega), wp_bind]
  refine clock_then fun etp t₆ hread₆ hsent₆ => ?_
  have hword := endian.htonl_lt (endian.load (fill [0, 0, 0, 0] b))
  by_cases hack : (endian.htonl (endian.load (fill [0, 0, 0, 0] b)) : ℤ) ≠ n₁ + n₂ + n₃ + n₄
  · rw [if_pos hack, wp_bind]
    exact wp_mono (wp_true _) fun _ _ _ _ h => absurd rfl h
  rw [if_neg hack]
  have hsent := (((hmoved₁.trans hmoved₂).trans hmoved₃).trans hmoved₄).trans hmoved₅
  have hlength := hsent.sent_length
  refine fun _ => ⟨⟨by simp only; omega, by simp only; omega⟩, btp, etp, ?_,
    apply_ite NetworkStats.mUpBwMbsExt _ _ _⟩
  rw [hread₆, hsent.readings_eq, hread₀, List.append_assoc, List.singleton_append]

end Wp

/-! ### Which transfers are estimated exactly -/

/-- What is stored after a transfer whose second reading is the later one. -/
lemma Measures.estimateExact_iff {t : Trace D} {bytes : ℤ} {before stored : ℕ}
    (h : Measures [] t bytes before stored) (hbytes : 0 ≤ bytes) (hword : bytes < 2 ^ 32) :
    ∃ btp etp, readings t = [btp, etp] ∧ (btp < etp →
      (EstimateExact bytes (etp - btp) stored ↔
        1000 ≤ etp - btp ∧ 8 * bytes / microseconds (etp - btp) < 2 ^ 32)) := by
  obtain ⟨btp, etp, hread, hstored⟩ := h
  refine ⟨btp, etp, hread, fun hlt => ?_⟩
  rw [hstored, if_pos hlt]
  exact SharedStateAsync.estimateExact_iff hbytes hword (sub_pos.mpr hlt)

/-- **The bandwidth estimate.** For every run of the receiver and of the sender that completes
its transfer, and whose second clock reading is the later one: the receiver's estimate is exact
if and only if the transfer has taken 1000 nanoseconds; the sender's if and only if, moreover,
the bits the socket has taken in each whole microsecond fit a field of 32 bits. -/
theorem bandwidth_exact_iff {σ : Type} (env : Env SysCall Ans (Process D) σ) (s : σ)
    (m : Process D) (endian : Endian) (pSocket : ObjId) (netStats : NetworkStats)
    (errbub : ErrBub) :
    (let run := (receiveNetworkMessage endian pSocket netStats errbub).exec env ⟨s, m, []⟩
      ∀ ret netMsg stats, run.1 = some (ret, netMsg, stats) → ret ≠ -1 →
        ∃ btp etp, readings run.2.trace = [btp, etp] ∧ (btp < etp →
          (EstimateExact ret (etp - btp) stats.mDownBwMbsExt ↔ 1000 ≤ etp - btp))) ∧
    ∀ netMsg : NetworkMessage,
      let run := (sendNetworkMessage endian pSocket netMsg netStats errbub).exec env ⟨s, m, []⟩
      ∀ ret stats, run.1 = some (ret, stats) → ret ≠ -1 →
        ∃ btp etp, readings run.2.trace = [btp, etp] ∧ (btp < etp →
          (EstimateExact ret (etp - btp) stats.mUpBwMbsExt ↔ 1000 ≤ etp - btp ∧
            8 * ((sent run.2.trace).length : ℤ) / microseconds (etp - btp) < 2 ^ 32)) := by
  constructor
  · intro run ret netMsg stats hrun hret
    have hspec : wp (fun _ _ => True) (fun _ _ => True)
        (receiveNetworkMessage endian pSocket netStats errbub) _ m [] :=
      receive_measures endian pSocket netStats
    obtain ⟨r, hr, hmeasures⟩ := exec_returns hspec (meets_true _ _)
      (fun hnone => Option.some_ne_none _ (hrun.symm.trans hnone))
    obtain rfl := Option.some.inj (hrun.symm.trans hr)
    obtain ⟨⟨hpos, hlt⟩, hstored⟩ := hmeasures hret
    obtain ⟨btp, etp, hread, hexact⟩ := hstored.estimateExact_iff hpos (by omega)
    refine ⟨btp, etp, hread, fun hlater => (hexact hlater).trans (and_iff_left ?_)⟩
    calc 8 * ret / microseconds (etp - btp) ≤ 8 * ret := Int.ediv_le_self _ (by omega)
      _ < 2 ^ 32 := by omega
  · intro netMsg run ret stats hrun hret
    have hspec : wp (fun _ _ => True) (fun _ _ => True)
        (sendNetworkMessage endian pSocket netMsg netStats errbub) _ m [] :=
      send_measures endian pSocket netMsg netStats
    obtain ⟨r, hr, hmeasures⟩ := exec_returns hspec (meets_true _ _)
      (fun hnone => Option.some_ne_none _ (hrun.symm.trans hnone))
    obtain rfl := Option.some.inj (hrun.symm.trans hr)
    obtain ⟨⟨hsent, hlt⟩, hstored⟩ := hmeasures hret
    have hbytes : ret = (sent run.2.trace).length := by
      rw [← hsent]
      exact (add_zero ret).symm
    rw [← hbytes]
    exact hstored.estimateExact_iff (hbytes ▸ Int.natCast_nonneg _) hlt

/-- A socket that is always ready, with a clock that advances by `ns` from one reading to the
next. -/
def timedSocket (ns : ℤ) : Env SysCall Ans (Process D) (StdString × ℤ) where
  answer := fun s _ c =>
    match c with
    | .recv _ len => (.ok ⟨s.1.take len, List.length_take_le _ _⟩, s.1.drop len, s.2)
    | .steadyClock => (s.2, s.1, s.2 + ns)
    | c => (quietAnswer c, s)
  others := fun s m => (m, s)

/-- The message of the whole frame. -/
def wholeMessage : NetworkMessage := ⟨[65], [0x7b, 0x7d]⟩

/-- A frame of eight bytes, received and sent in a microsecond. -/
theorem bandwidth_exact_microsecond :
    (∃ stats, ((receiveNetworkMessage .little 0 {} .storage).exec (timedSocket 1000)
        ⟨(wholeFrame, 0), emptyProcess, []⟩).1 = some (8, wholeMessage, stats) ∧
      EstimateExact 8 (1000 - 0) stats.mDownBwMbsExt) ∧
    ∃ stats, ((sendNetworkMessage .little 0 wholeMessage {} .storage).exec (timedSocket 1000)
        ⟨(toBytes 8, 0), emptyProcess, []⟩).1 = some (8, stats) ∧
      EstimateExact 8 (1000 - 0) stats.mUpBwMbsExt := by
  constructor
  · have hrun : ((receiveNetworkMessage .little 0 {} .storage).exec (timedSocket 1000)
        ⟨(wholeFrame, 0), emptyProcess, []⟩).1
        = some (8, wholeMessage, { mDownBwMbsExt := 64 }) := by decide +kernel
    have hread : readings ((receiveNetworkMessage .little 0 {} .storage).exec (timedSocket 1000)
        ⟨(wholeFrame, 0), emptyProcess, []⟩).2.trace = [0, 1000] := by decide +kernel
    obtain ⟨btp, etp, htimes, hexact⟩ := (bandwidth_exact_iff (timedSocket 1000)
      (wholeFrame, 0) emptyProcess .little 0 {} .storage).1 8 wholeMessage _ hrun (by decide)
    obtain ⟨rfl, rfl⟩ : 0 = btp ∧ 1000 = etp := by simpa using hread.symm.trans htimes
    exact ⟨_, hrun, (hexact (by decide)).mpr (by decide)⟩
  · have hrun : ((sendNetworkMessage .little 0 wholeMessage {} .storage).exec (timedSocket 1000)
        ⟨(toBytes 8, 0), emptyProcess, []⟩).1 = some (8, { mUpBwMbsExt := 64 }) := by
      decide +kernel
    have hread : readings ((sendNetworkMessage .little 0 wholeMessage {} .storage).exec
        (timedSocket 1000) ⟨(toBytes 8, 0), emptyProcess, []⟩).2.trace = [0, 1000] := by
      decide +kernel
    have hsent : (sent ((sendNetworkMessage .little 0 wholeMessage {} .storage).exec
        (timedSocket 1000) ⟨(toBytes 8, 0), emptyProcess, []⟩).2.trace).length = 8 := by
      decide +kernel
    obtain ⟨btp, etp, htimes, hexact⟩ := (bandwidth_exact_iff (timedSocket 1000)
      (toBytes 8, 0) emptyProcess .little 0 {} .storage).2 wholeMessage 8 _ hrun (by decide)
    obtain ⟨rfl, rfl⟩ : 0 = btp ∧ 1000 = etp := by simpa using hread.symm.trans htimes
    rw [hsent] at hexact
    exact ⟨_, hrun, (hexact (by decide)).mpr (by decide)⟩

/-- Within less than a microsecond, the divisor is zero. -/
theorem not_bandwidth_exact_hurried :
    let run := (receiveNetworkMessage .little 0 {} .storage).exec (timedSocket 999)
      ⟨(wholeFrame, 0), emptyProcess, []⟩
    ∃ stats, run.1 = some (8, wholeMessage, stats) ∧ readings run.2.trace = [0, 999] ∧
      ¬ EstimateExact 8 (999 - 0) stats.mDownBwMbsExt := by
  intro run
  have hrun : run.1 = some (8, wholeMessage, { mDownBwMbsExt := 1 }) := by decide +kernel
  have hread : readings run.2.trace = [0, 999] := by decide +kernel
  refine ⟨_, hrun, hread, fun hexact => hexact.divisor ?_⟩
  decide

end SharedStateAsync
