/-
The handshake, on every stream and under every segmentation.

Both sides read the other's version into four bytes that hold something before:
zeros at the server, the version itself, ready to be sent, at the client. A peer
that closes early leaves the rest of these bytes as they were.

* `spells_version`, `fill_version`: what a short read into either buffer spells;
* `HandShakePost`: what a run of either side leaves, when its peer sends a given
  stream;
* `HandShakeChecked`: success means that the peer has sent its version, and a
  stream that begins otherwise means failure;
* `handShake_checked_iff`: this holds of the server, and of the client unless the
  stream ends inside the version.
-/
import SharedStateAsync.Wire.Receive

namespace SharedStateAsync

open Coro ByteOrder

variable {D : Type}

/-- `WIRE_PROTO_VERSION` in network order. -/
def versionBytes : StdString := toBytes WIRE_PROTO_VERSION

/-- Four bytes spell the version exactly when they are its bytes. -/
lemma spells_version {bs : StdString} (h : bs.length = 4) :
    WIRE_PROTO_VERSION = ofBytes bs ↔ bs = versionBytes := by
  constructor
  · intro hspell
    rw [versionBytes, hspell, toBytes_ofBytes h]
  · rintro rfl
    rw [versionBytes, ofBytes_toBytes (by decide)]

/-- Zeros that are partly overwritten are the version only when all of it was
read: its last byte is not zero. -/
lemma fill_zeros {b : StdString} (h : b.length ≤ 4) :
    fill [0, 0, 0, 0] b = versionBytes ↔ b = versionBytes := by
  constructor
  · intro hfill
    rcases Nat.lt_or_ge b.length 4 with hshort | hfull
    · -- the last byte is still the zero it was
      have hlast : (fill [0, 0, 0, 0] b).getLast? = some 0 := by
        rw [fill, List.getLast?_append]
        have : ([0, 0, 0, 0] : StdString).drop b.length = List.replicate (4 - b.length) 0 := by
          rw [show ([0, 0, 0, 0] : StdString) = List.replicate 4 0 from rfl, List.drop_replicate]
        rw [this, List.getLast?_replicate, if_neg (by omega), Option.some_or]
      rw [hfill] at hlast
      exact absurd hlast (by decide)
    · rwa [fill_of_length (by simp; omega)] at hfill
  · rintro rfl
    exact fill_of_length rfl

/-- The version that is partly overwritten is the version as long as what was
read is a beginning of it. -/
lemma fill_version {b : StdString} :
    fill versionBytes b = versionBytes ↔ b <+: versionBytes :=
  List.prefix_iff_eq_append.symm

/-! ### What a run leaves -/

/-- Nothing has happened yet. -/
lemma Progress.start (R : Rely SysCall Ans (Process D) Mark) :
    Progress R [] [] [] [] True := by
  refine ⟨[], rfl, ⟨trivial, rfl, rfl, by simp, iff_of_true trivial trivial⟩, ?_⟩
  rintro ⟨pre, m, m', h⟩
  simp at h

/-- What a run of a handshake leaves: it succeeds only if what it has read of the
first four bytes of the stream is accepted, and then unless the transport
fails. -/
def HandShakePost (accepts : StdString → Prop) (stream : StdString) (r : Bool × NetworkStats)
    (t : Trace D) : Prop :=
  ∃ inp out ok, Progress (FromStream stream) [] t inp out ok ∧ inp <+: stream ∧
    (r.1 → inp.take 4 = stream.take 4 ∧ accepts (stream.take 4)) ∧
    (ok → accepts (stream.take 4) → r.1)

section Spec

variable {stream : StdString} {X : Process D → Trace D → Prop} {m : Process D}
  {accepts : StdString → Prop}

/-- The run fails, with the transport or because of what it has read. -/
lemma HandShakePost.fail {inp out : StdString} {ok : Prop} {t : Trace D}
    (h : Progress (FromStream stream) [] t inp out ok) (hinp : inp <+: stream)
    (hok : ok → ¬ accepts (stream.take 4)) (netStats : NetworkStats) :
    HandShakePost accepts stream (false, netStats) t :=
  ⟨inp, out, ok, h, hinp, fun hfalse => absurd hfalse Bool.false_ne_true,
    fun hyes haccepts => absurd haccepts (hok hyes)⟩

/-- The run reports the version it has read and fails. -/
lemma wp_protocolError {out : StdString} {t : Trace D} {netStats : NetworkStats}
    (h : Progress (FromStream stream) [] t (stream.take 4) out True)
    (hbad : ¬ accepts (stream.take 4)) :
    wp (FromStream stream) X
      (do rs_error_bubble_or_exit .protocolError .storage; pure (false, netStats))
      (fun r _ t' => HandShakePost accepts stream r t') m t := by
  rw [wp_bind]
  refine wp_bubble fromStream_marked fun t₂ h₂ => ?_
  have hboth := h.trans h₂
  rw [List.append_nil, List.append_nil] at hboth
  exact HandShakePost.fail hboth (List.take_prefix _ _) (fun _ => hbad) _

/-- **The server's side.** It accepts the version and nothing else. -/
theorem serverHandShake_spec (endian : Endian) (pSocket : ObjId) (netStats : NetworkStats) :
    wp (FromStream stream) X (serverHandShake endian pSocket netStats .storage)
      (fun r _ t' => HandShakePost (· = versionBytes) stream r t') m [] := by
  rw [serverHandShake, wp_bind]
  refine recv_next (k := 0) rfl (Progress.start _) (fun b m' t' h hb =>
    (wp_pure _).mpr (HandShakePost.fail h hb False.elim _)) fun m₁ t₁ h₁ => ?_
  rw [List.drop_zero, Nat.zero_add] at *
  simp only
  have hlen : (stream.take 4).length ≤ 4 := List.length_take_le _ _
  have hlen4 : (fill [0, 0, 0, 0] (stream.take 4)).length = 4 := length_fill hlen
  have hversion : WIRE_PROTO_VERSION = ofBytes (fill [0, 0, 0, 0] (stream.take 4))
      ↔ stream.take 4 = versionBytes := (spells_version hlen4).trans (fill_zeros hlen)
  rw [if_neg (by omega), endian.htonl_load hlen4]
  by_cases hgood : stream.take 4 = versionBytes
  · rw [if_neg (not_not.mpr (hversion.mpr hgood)), wp_bind]
    refine wp_steadyClock fun verBTP t₂ h₂ => ?_
    have h₂' := (h₁.trans h₂).congr (and_iff_left trivial)
    rw [List.append_nil, List.append_nil] at h₂'
    rw [wp_bind]
    refine send_next h₂' (fun out' m' t' h _ =>
      (wp_pure _).mpr (HandShakePost.fail h (List.take_prefix _ _) False.elim _))
      fun m₃ t₃ h₃ => ?_
    rw [if_neg (by omega), wp_bind]
    refine recv_next rfl h₃ (fun b m' t' h hb =>
      (wp_pure _).mpr (HandShakePost.fail h hb False.elim _)) fun m₄ t₄ h₄ => ?_
    simp only
    rw [if_neg (by omega), wp_bind]
    refine wp_steadyClock fun verETP t₅ h₅ => ?_
    refine ⟨_, _, _, h₄.trans h₅, ?_, fun _ => ⟨?_, hgood⟩, fun _ _ => rfl⟩
    · rw [List.append_nil]
      exact List.take_prefix _ _
    · rw [List.append_nil, List.take_take]
      rfl
  · rw [if_pos fun hspell => hgood (hversion.mp hspell)]
    exact wp_protocolError h₁ hgood

/-- **The client's side.** It accepts every beginning of the version. -/
theorem clientHandShake_spec (endian : Endian) (pSocket : ObjId) (netStats : NetworkStats) :
    wp (FromStream stream) X (clientHandShake endian pSocket netStats .storage)
      (fun r _ t' => HandShakePost (· <+: versionBytes) stream r t') m [] := by
  rw [clientHandShake, wp_bind]
  refine wp_steadyClock fun verBTP t₀ h₀ => ?_
  rw [wp_bind]
  refine send_next h₀ (fun out' m' t' h _ =>
    (wp_pure _).mpr (HandShakePost.fail h List.nil_prefix False.elim _)) fun m₁ t₁ h₁ => ?_
  rw [if_neg (by omega), wp_bind]
  refine recv_next (k := 0) rfl h₁ (fun b m' t' h hb =>
    (wp_pure _).mpr (HandShakePost.fail h hb False.elim _)) fun m₂ t₂ h₂ => ?_
  rw [List.drop_zero, Nat.zero_add] at *
  simp only
  rw [if_neg (by omega), wp_bind]
  refine wp_steadyClock fun verETP t₃ h₃ => ?_
  have h₃' := (h₂.trans h₃).congr (and_iff_left trivial)
  rw [List.append_nil, List.append_nil] at h₃'
  have hlen4 : (fill versionBytes (stream.take 4)).length = 4 :=
    length_fill (List.length_take_le _ _)
  have hversion : WIRE_PROTO_VERSION = ofBytes (fill versionBytes (stream.take 4))
      ↔ stream.take 4 <+: versionBytes := (spells_version hlen4).trans fill_version
  rw [endian.store_htonl, show toBytes WIRE_PROTO_VERSION = versionBytes from rfl,
    endian.htonl_load hlen4]
  by_cases hgood : stream.take 4 <+: versionBytes
  · rw [if_neg (not_not.mpr (hversion.mpr hgood)), wp_bind]
    refine send_next h₃' (fun out' m' t' h _ =>
      (wp_pure _).mpr (HandShakePost.fail h (List.take_prefix _ _) False.elim _))
      fun m₄ t₄ h₄ => ?_
    rw [if_neg (by omega)]
    exact ⟨_, _, _, h₄, List.take_prefix _ _, fun _ => ⟨by rw [List.take_take]; rfl, hgood⟩,
      fun _ _ => rfl⟩
  · rw [if_pos fun hspell => hgood (hversion.mp hspell)]
    exact wp_protocolError h₃' hgood

end Spec

/-! ### Which streams are accepted -/

/-- The outcome of a run: it succeeds only when the first four bytes it has
received are the version, and fails on every stream that begins otherwise. -/
structure HandShakeChecked (stream : StdString) (run : Option (Bool × NetworkStats))
    (t : Trace D) : Prop where
  success : ∀ netStats, run = some (true, netStats) → (received t).take 4 = versionBytes
  failure : stream.take 4 ≠ versionBytes → ∃ netStats, run = some (false, netStats)

/-- The stream ends inside the version, or before it. -/
def EndsInVersion (stream : StdString) : Prop := stream <+: versionBytes ∧ stream ≠ versionBytes

lemma EndsInVersion.length_lt {stream : StdString} (h : EndsInVersion stream) :
    stream.length < 4 := by
  rcases Nat.lt_or_ge stream.length 4 with hlt | hge
  · exact hlt
  · exact absurd (h.1.eq_of_length_le hge) h.2

/-- A stream whose first four bytes are only a beginning of the version. -/
lemma endsInVersion_of_take {stream : StdString} (hbeginning : stream.take 4 <+: versionBytes)
    (hne : stream.take 4 ≠ versionBytes) : EndsInVersion stream := by
  have hshort : (stream.take 4).length < 4 := by
    by_contra hfull
    exact hne (hbeginning.eq_of_length_le (by rw [versionBytes, length_toBytes]; omega))
  have htake : stream.take 4 = stream := by
    rw [List.length_take] at hshort
    exact List.take_of_length_le (by omega)
  rw [htake] at hbeginning hne
  exact ⟨hbeginning, hne⟩

/-- A run that accepts the version only, or its beginnings too when the stream
goes on, is checked. -/
lemma HandShakePost.checked {accepts : StdString → Prop} {stream : StdString}
    {r : Bool × NetworkStats} {t : Trace D} (h : HandShakePost accepts stream r t)
    (haccepts : accepts (stream.take 4) → stream.take 4 = versionBytes) :
    HandShakeChecked stream (some r) t := by
  obtain ⟨ret, netStats⟩ := r
  obtain ⟨inp, out, ok, hprog, -, hsuccess, -⟩ := h
  constructor
  · rintro netStats' ⟨⟩
    obtain ⟨htake, hyes⟩ := hsuccess rfl
    rw [hprog.received_eq, received, List.flatMap_nil, List.nil_append, htake, haccepts hyes]
  · intro hne
    cases ret with
    | false => exact ⟨netStats, rfl⟩
    | true => exact absurd (haccepts (hsuccess rfl).2) hne

/-- **The handshake and the version.** The server succeeds only with a peer that
has sent the version. The client does so too unless the stream ends inside the
version, and then, when the transport does not fail, it does not. -/
theorem handShake_checked_iff {σ : Type} (env : Env SysCall Ans (Process D) σ) (s : σ)
    (m : Process D) (endian : Endian) (pSocket : ObjId) (netStats : NetworkStats)
    (stream : StdString) :
    let server := (serverHandShake endian pSocket netStats .storage).exec env ⟨s, m, []⟩
    let client := (clientHandShake endian pSocket netStats .storage).exec env ⟨s, m, []⟩
    (Meets (FromStream stream) [] server.2.trace →
      HandShakeChecked stream server.1 server.2.trace) ∧
    (Meets (FromStream stream) [] client.2.trace →
      (¬ EndsInVersion stream → HandShakeChecked stream client.1 client.2.trace) ∧
      (Meets TransportOk [] client.2.trace →
        HandShakeChecked stream client.1 client.2.trace → ¬ EndsInVersion stream)) := by
  intro server client
  constructor
  · intro hstream
    obtain ⟨r, hr, hpost⟩ := exec_total (serverHandShake_spec endian pSocket netStats) hstream
    rw [hr]
    exact hpost.checked id
  · intro hstream
    obtain ⟨r, hr, hpost⟩ := exec_total (clientHandShake_spec endian pSocket netStats) hstream
    rw [hr]
    constructor
    · intro hwhole
      refine hpost.checked fun hbeginning => ?_
      by_contra hne
      exact hwhole (endsInVersion_of_take hbeginning hne)
    · -- the client takes its own version for the one it did not get
      intro hok hchecked hends
      have hlen := hends.length_lt
      have htake : stream.take 4 = stream := List.take_of_length_le hlen.le
      obtain ⟨inp, out, ok, hprog, hinp, -, hsucceeds⟩ := hpost
      have htrue : r.1 := by
        refine hsucceeds (hprog.ok_iff.mp hok) ?_
        rw [htake]
        exact hends.1
      have hversion := hchecked.success r.2 (congrArg some (Prod.ext htrue rfl))
      have hreceived : (received client.2.trace).length < 4 := by
        rw [hprog.received_eq, received, List.flatMap_nil, List.nil_append]
        exact hinp.length_le.trans_lt hlen
      rw [List.take_of_length_le hreceived.le] at hversion
      rw [hversion] at hreceived
      exact absurd hreceived (by decide)

/-- A client whose peer sends the version has checked it. -/
theorem handShake_checked_version :
    let client := (clientHandShake .little 0 {} .storage).exec readySocket
      ⟨versionBytes, emptyProcess, []⟩
    HandShakeChecked versionBytes client.1 client.2.trace := by
  obtain ⟨hstream, -⟩ := readySocket_meets (clientHandShake .little 0 {} .storage) emptyProcess
    versionBytes
  exact ((handShake_checked_iff _ _ _ _ _ _ versionBytes).2 hstream).1 fun h => h.2 rfl

/-- A client whose peer closes the connection without a word succeeds. -/
theorem not_handShake_checked_silence :
    let client := (clientHandShake .little 0 {} .storage).exec readySocket ⟨[], emptyProcess, []⟩
    Meets (FromStream []) [] client.2.trace ∧ Meets TransportOk [] client.2.trace ∧
      client.1.map Prod.fst = some true ∧ ¬ HandShakeChecked [] client.1 client.2.trace := by
  intro client
  obtain ⟨hstream, hok⟩ := readySocket_meets (clientHandShake .little 0 {} .storage) emptyProcess []
  have htrue : client.1.map Prod.fst = some true := by decide +kernel
  refine ⟨hstream, hok, htrue, fun hchecked => ?_⟩
  obtain ⟨netStats, hfalse⟩ := hchecked.failure (by decide)
  rw [hfalse, Option.map_some] at htrue
  cases htrue

end SharedStateAsync
