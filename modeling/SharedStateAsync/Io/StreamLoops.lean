/-
The loops around the partial reads and writes (`src/async_socket.cc`, `src/read_operation.cc`,
`src/write_operation.cc`), in machine numbers.

The total is a `ssize_t` and the length a `size_t`: what is left to transfer is their difference
modulo `2 ^ 64`, the total is compared after conversion, and its overflow has no defined result.

* `transferLoop`: the loop of all four, around any operation that transfers a part;
* `transferLoop_ends`: its rule, from what one operation does to what the loop returns;
* `readPart`, `writePart`: the operations, into and out of a buffer;
* `Operation.successive`: operations one after the other, each with what is left;
* `recv`, `asyncRead`, `send`, `asyncWrite`: the four loops;
* `streamLoops_exact`: they end, and transfer exact prefixes;
* `recv_exec`, `asyncRead_exec`, `send_exec`, `asyncWrite_exec`: the coroutines run as these loops.
-/
import SharedStateAsync.Io.Command
import SharedStateAsync.Lib.Signed64

namespace SharedStateAsync

open Signed64

/-- A buffer. No object is as long as `2 ^ 63` bytes. -/
structure Buffer where
  bytes : StdString
  length_lt : bytes.length < 2 ^ 63

namespace StreamLoop

variable {σ τ : Type}

/-! ### The loop -/

/-- `len - total`, of a `size_t` and a `ssize_t`. -/
def remaining (len : ℕ) (total : ℤ) : ℕ := (len + 2 ^ 64 - toUnsigned total) % 2 ^ 64

/-- The loop. `transfer total n` is the awaited operation on the `n` bytes from `total` on, with the
number it returns; nothing, when it is given bytes that are not in the buffer. The loop has no
result either when the total overflows, or when there is no fuel. -/
def transferLoop (transfer : ℤ → ℕ → τ → Option (ℤ × τ)) (len : ℕ) :
    ℕ → ℤ → τ → Option (ℤ × τ)
  | 0, _, _ => none
  | fuel + 1, total, s => do
      let num ← transfer total (remaining len total) s
      if num.1 = -1 then return (-1, num.2)
      else
        let total ← checkedAdd total num.1
        if num.1 ≠ 0 ∧ toUnsigned total < len then transferLoop transfer len fuel total num.2
        else return (total, num.2)

lemma remaining_natCast {len total : ℕ} (hlen : len < 2 ^ 63) (htotal : total ≤ len) :
    remaining len total = len - total := by
  rw [remaining, toUnsigned_natCast (by omega)]
  omega

section Rule

variable {transfer : ℤ → ℕ → τ → Option (ℤ × τ)} {len fuel total num : ℕ} {s s' : τ}

/-- An operation that fails ends the loop. -/
lemma transferLoop_error (hlen : len < 2 ^ 63) (htotal : total ≤ len)
    (h : transfer total (len - total : ℕ) s = some (-1, s')) :
    transferLoop transfer len (fuel + 1) total s = some (-1, s') := by
  rw [transferLoop, remaining_natCast hlen htotal, h, Option.bind_eq_bind, Option.bind_some,
    if_pos rfl, Option.pure_def]

/-- An operation that transfers a part: the total does not overflow. -/
lemma transferLoop_part (hlen : len < 2 ^ 63) (htotal : total + num ≤ len)
    (h : transfer total (len - total : ℕ) s = some ((num : ℤ), s')) :
    transferLoop transfer len (fuel + 1) total s
      = if num ≠ 0 ∧ total + num < len then transferLoop transfer len fuel (total + num : ℕ) s'
        else some (((total + num : ℕ) : ℤ), s') := by
  have hne : (num : ℤ) ≠ -1 := by omega
  rw [transferLoop, remaining_natCast hlen (by omega), h, Option.bind_eq_bind, Option.bind_some,
    if_neg hne, checkedAdd_natCast (htotal.trans_lt hlen), Option.bind_eq_bind, Option.bind_some]
  simp only [toUnsigned_natCast (show total + num < 2 ^ 64 by omega), ne_eq, Nat.cast_eq_zero,
    Option.pure_def]

/-- **The rule of the loop**: `Inv` holds whenever an operation is awaited, and `Post` of what the
loop returns. It takes no more turns than there are bytes, and one. -/
theorem transferLoop_ends (Inv : ℕ → τ → Prop) (Post : ℤ → τ → Prop) (hlen : len < 2 ^ 63)
    (hstep : ∀ total s, total ≤ len → Inv total s →
      (∃ s', transfer total (len - total : ℕ) s = some (-1, s') ∧ Post (-1) s') ∨
      ∃ (num : ℕ) (s' : τ), total + num ≤ len ∧
        transfer total (len - total : ℕ) s = some ((num : ℤ), s') ∧
        if num ≠ 0 ∧ total + num < len then Inv (total + num) s'
        else Post ((total + num : ℕ) : ℤ) s')
    (htotal : total ≤ len) (hinv : Inv total s) :
    ∃ ret s', (∀ fuel, len - total < fuel →
      transferLoop transfer len fuel total s = some (ret, s')) ∧ Post ret s' := by
  induction hn : len - total using Nat.strong_induction_on generalizing total s with
  | _ n ih =>
      rcases hstep total s htotal hinv with
        ⟨s', htransfer, hpost⟩ | ⟨num, s', hle, htransfer, hnext⟩
      · refine ⟨-1, s', fun fuel hfuel => ?_, hpost⟩
        obtain ⟨fuel, rfl⟩ := Nat.exists_eq_succ_of_ne_zero (Nat.ne_zero_of_lt hfuel)
        exact transferLoop_error hlen htotal htransfer
      · by_cases hmore : num ≠ 0 ∧ total + num < len
        · rw [if_pos hmore] at hnext
          obtain ⟨ret, s'', hends, hpost⟩ := ih (len - (total + num)) (by omega) hle hnext rfl
          refine ⟨ret, s'', fun fuel hfuel => ?_, hpost⟩
          obtain ⟨fuel, rfl⟩ := Nat.exists_eq_succ_of_ne_zero (Nat.ne_zero_of_lt hfuel)
          rw [transferLoop_part hlen hle htransfer, if_pos hmore]
          exact hends fuel (by omega)
        · rw [if_neg hmore] at hnext
          refine ⟨_, s', fun fuel hfuel => ?_, hnext⟩
          obtain ⟨fuel, rfl⟩ := Nat.exists_eq_succ_of_ne_zero (Nat.ne_zero_of_lt hfuel)
          rw [transferLoop_part hlen hle htransfer, if_neg hmore]

end Rule

/-! ### The four loops -/

/-- The bytes that operations with these results have transferred. -/
def transferred (results : List (Except Errno StdString)) : StdString :=
  results.flatMap fun r => r.toOption.getD []

lemma transferred_concat (results : List (Except Errno StdString)) (r : Except Errno StdString) :
    transferred (results ++ [r]) = transferred results ++ r.toOption.getD [] := by
  rw [transferred, List.flatMap_append, List.flatMap_singleton, transferred]

/-- The state of a loop: its buffer, what its operations have returned, the bytes of each instead of
their number, and what that depends on. -/
structure Transfer (σ : Type) where
  buffer : StdString
  results : List (Except Errno StdString)
  peer : σ

namespace Transfer

/-- An operation has failed. -/
def fail (s : Transfer σ) (e : Errno) (peer : σ) : Transfer σ :=
  ⟨s.buffer, s.results ++ [.error e], peer⟩

/-- An operation has transferred `b`, and the buffer is now `buffer`. -/
def move (s : Transfer σ) (buffer b : StdString) (peer : σ) : Transfer σ :=
  ⟨buffer, s.results ++ [.ok b], peer⟩

/-- The bytes that were transferred. -/
def moved (s : Transfer σ) : StdString := transferred s.results

variable (s : Transfer σ)

@[simp] lemma moved_fail (e : Errno) (peer : σ) : (s.fail e peer).moved = s.moved := by
  rw [moved, fail, transferred_concat]
  exact List.append_nil _

@[simp] lemma moved_move (buffer b : StdString) (peer : σ) :
    (s.move buffer b peer).moved = s.moved ++ b := by
  rw [moved, move, transferred_concat]
  rfl

end Transfer

/-- The results of the operations that read: at most as many bytes as are asked for. -/
abbrev Source (σ : Type) : Type :=
  σ → (len : ℕ) → Except Errno { b : StdString // b.length ≤ len } × σ

/-- The results of the operations that write: how many of the bytes are taken. -/
abbrev Sink (σ : Type) : Type :=
  σ → (b : StdString) → Except Errno { n : ℕ // n ≤ b.length } × σ

/-- The bytes `b`, stored in the buffer from `offset` on. -/
def overwrite (buffer : StdString) (offset : ℕ) (b : StdString) : StdString :=
  buffer.take offset ++ b ++ buffer.drop (offset + b.length)

/-- At most `len` bytes are read, and stored from `offset` on. -/
def receive (source : Source σ) (offset len : ℕ) (s : Transfer σ) : ℤ × Transfer σ :=
  match source s.peer len with
  | (.error e, peer) => (-1, s.fail e peer)
  | (.ok b, peer) => (b.1.length, s.move (overwrite s.buffer offset b.1) b.1 peer)

/-- An operation that reads into the `len` bytes from `offset` on. -/
def readPart (source : Source σ) (offset : ℤ) (len : ℕ) (s : Transfer σ) :
    Option (ℤ × Transfer σ) :=
  if 0 ≤ offset ∧ offset + len ≤ s.buffer.length then some (receive source offset.toNat len s)
  else none

/-- The bytes `b` are written, as far as they are taken. -/
def offer (sink : Sink σ) (b : StdString) (s : Transfer σ) : ℤ × Transfer σ :=
  match sink s.peer b with
  | (.error e, peer) => (-1, s.fail e peer)
  | (.ok n, peer) => (n.1, s.move s.buffer (b.take n.1) peer)

/-- An operation that writes the `len` bytes from `offset` on. -/
def writePart (sink : Sink σ) (offset : ℤ) (len : ℕ) (s : Transfer σ) :
    Option (ℤ × Transfer σ) :=
  if 0 ≤ offset ∧ offset + len ≤ s.buffer.length then
    some (offer sink ((s.buffer.drop offset.toNat).take len) s)
  else none

/-- `AsyncSocket::recv`, with the results of its `RecvOperation`s. -/
def recv (RecvOperation : Source σ) (buffer : Buffer) (peer : σ) (fuel : ℕ) :
    Option (ℤ × Transfer σ) :=
  transferLoop (readPart RecvOperation) buffer.bytes.length fuel 0 ⟨buffer.bytes, [], peer⟩

/-- `asyncRead`, with the results of its `ReadOp`s. -/
def asyncRead (ReadOp : Source σ) (buffer : Buffer) (peer : σ) (fuel : ℕ) :
    Option (ℤ × Transfer σ) :=
  transferLoop (readPart ReadOp) buffer.bytes.length fuel 0 ⟨buffer.bytes, [], peer⟩

/-- `AsyncSocket::send`, with the results of its `SendOperation`s. -/
def send (SendOperation : Sink σ) (buffer : Buffer) (peer : σ) (fuel : ℕ) :
    Option (ℤ × Transfer σ) :=
  transferLoop (writePart SendOperation) buffer.bytes.length fuel 0 ⟨buffer.bytes, [], peer⟩

/-- `asyncWrite`, with the results of its `WriteOp`s. -/
def asyncWrite (WriteOp : Sink σ) (buffer : Buffer) (peer : σ) (fuel : ℕ) :
    Option (ℤ × Transfer σ) :=
  transferLoop (writePart WriteOp) buffer.bytes.length fuel 0 ⟨buffer.bytes, [], peer⟩

/-! ### Operations one after the other -/

/-- What an operation does that is awaited when the given number of bytes are transferred: its
result, with the bytes instead of their number. -/
abbrev Operation (σ : Type) : Type := σ → ℕ → Except Errno StdString × σ

/-- Into a buffer of `len` bytes: the bytes that are left are asked for. -/
def reading (source : Source σ) (len : ℕ) : Operation σ := fun peer total =>
  ((source peer (len - total)).1.map Subtype.val, (source peer (len - total)).2)

/-- Out of a buffer: the bytes that are left are offered. -/
def writing (sink : Sink σ) (bytes : StdString) : Operation σ := fun peer total =>
  ((sink peer (bytes.drop total)).1.map fun n => (bytes.drop total).take n.1,
    (sink peer (bytes.drop total)).2)

/-- The results of the first operations, each awaited with what those before it have
transferred, and what the next one depends on. -/
def Operation.successive (op : Operation σ) (peer : σ) :
    ℕ → List (Except Errno StdString) × σ
  | 0 => ([], peer)
  | n + 1 =>
      let before := op.successive peer n
      let next := op before.2 (transferred before.1).length
      (before.1 ++ [next.1], next.2)

lemma Operation.successive_concat {op : Operation σ} {peer peer' peer'' : σ}
    {results : List (Except Errno StdString)} {r : Except Errno StdString}
    (h : op.successive peer results.length = (results, peer'))
    (hop : op peer' (transferred results).length = (r, peer'')) :
    op.successive peer (results ++ [r]).length = (results ++ [r], peer'') := by
  rw [List.length_append, List.length_singleton, successive, h]
  simp only [hop]

/-! ### How they end -/

/-- An operation has gone well and transferred some bytes. -/
def GoesOn (r : Except Errno StdString) : Prop := ∃ b, b ≠ [] ∧ r = .ok b

/-- What a loop over `len` bytes leaves. It has awaited operations, each with what those before it
have left; all but the last one went well and transferred some bytes, and not yet all. It returns
-1 when the last one fails, and else the number of the bytes, all of them unless the last one
transfers none. -/
structure Ended (op : Operation σ) (peer : σ) (len : ℕ) (ret : ℤ) (s : Transfer σ) : Prop where
  successive : op.successive peer s.results.length = (s.results, s.peer)
  awaited : s.results ≠ []
  goesOn : ∀ r ∈ s.results.dropLast, GoesOn r
  unfinished : s.results.dropLast ≠ [] → (transferred s.results.dropLast).length < len
  length_le : s.moved.length ≤ len
  failure : (∃ r ∈ s.results, r.isOk = false) → ret = -1
  success : (∀ r ∈ s.results, r.isOk) →
    ret = s.moved.length ∧ (s.moved.length = len ∨ s.results.getLast? = some (.ok []))

/-- The loop is about to await its next operation. -/
structure Underway (op : Operation σ) (peer : σ) (len total : ℕ) (s : Transfer σ) : Prop where
  successive : op.successive peer s.results.length = (s.results, s.peer)
  goesOn : ∀ r ∈ s.results, GoesOn r
  unfinished : s.results ≠ [] → total < len
  length_eq : s.moved.length = total

lemma GoesOn.isOk {r : Except Errno StdString} (h : GoesOn r) : r.isOk := by
  obtain ⟨b, -, rfl⟩ := h
  rfl

section Ended

variable {op : Operation σ} {peer : σ} {len total : ℕ} {s : Transfer σ}

lemma underway_start (bytes : StdString) :
    Underway op peer len 0 (⟨bytes, [], peer⟩ : Transfer σ) :=
  ⟨rfl, fun _ hr => absurd hr List.not_mem_nil, fun hne => absurd rfl hne, rfl⟩

/-- The results with those of the next operation. -/
lemma Underway.successive_concat (h : Underway op peer len total s) {r : Except Errno StdString}
    {peer' : σ} (hop : op s.peer total = (r, peer')) :
    op.successive peer (s.results ++ [r]).length = (s.results ++ [r], peer') := by
  refine Operation.successive_concat h.successive ?_
  rw [← Transfer.moved, h.length_eq]
  exact hop

/-- The last operation fails. -/
lemma Underway.fail (h : Underway op peer len total s) (htotal : total ≤ len) {e : Errno}
    {peer' : σ} (hop : op s.peer total = (.error e, peer')) :
    Ended op peer len (-1) (s.fail e peer') where
  successive := h.successive_concat hop
  awaited := List.append_ne_nil_of_right_ne_nil _ (List.cons_ne_nil _ _)
  goesOn := by
    rw [Transfer.fail, List.dropLast_concat]
    exact h.goesOn
  unfinished := by
    rw [Transfer.fail, List.dropLast_concat, ← Transfer.moved, h.length_eq]
    exact h.unfinished
  length_le := by
    rw [s.moved_fail]
    exact h.length_eq.trans_le htotal
  failure := fun _ => rfl
  success := fun hall => absurd (hall (.error e) (by simp [Transfer.fail])) Bool.false_ne_true

lemma Underway.length_move (h : Underway op peer len total s) (buffer b : StdString) (peer' : σ) :
    (s.move buffer b peer').moved.length = total + b.length := by
  rw [s.moved_move, List.length_append, h.length_eq]

/-- An operation transfers `b`, and the loop goes on or ends. -/
lemma Underway.move (h : Underway op peer len total s) (buffer : StdString) {b : StdString}
    {peer' : σ} (hle : total + b.length ≤ len) (hop : op s.peer total = (.ok b, peer')) :
    if b.length ≠ 0 ∧ total + b.length < len
    then Underway op peer len (total + b.length) (s.move buffer b peer')
    else Ended op peer len ((total + b.length : ℕ) : ℤ) (s.move buffer b peer') := by
  have hresults : ∀ r ∈ s.results ++ [.ok b], GoesOn r ∨ r = .ok b := by
    intro r hr
    rcases List.mem_append.mp hr with hr | hr
    · exact Or.inl (h.goesOn r hr)
    · exact Or.inr (List.mem_singleton.mp hr)
  split_ifs with hmore
  · refine ⟨h.successive_concat hop, fun r hr => (hresults r hr).elim id fun heq => ?_,
      fun _ => hmore.2, h.length_move buffer b peer'⟩
    exact ⟨b, List.length_eq_zero_iff.not.mp hmore.1, heq⟩
  · have hok : ∀ r ∈ s.results ++ [.ok b], r.isOk := by
      intro r hr
      rcases hresults r hr with hr | rfl
      · exact hr.isOk
      · rfl
    constructor
    · exact h.successive_concat hop
    · exact List.append_ne_nil_of_right_ne_nil _ (List.cons_ne_nil _ _)
    · rw [Transfer.move, List.dropLast_concat]
      exact h.goesOn
    · rw [Transfer.move, List.dropLast_concat, ← Transfer.moved, h.length_eq]
      exact h.unfinished
    · exact (h.length_move buffer b peer').trans_le hle
    · rintro ⟨r, hr, herror⟩
      rw [hok r hr] at herror
      cases herror
    · rintro -
      rw [h.length_move buffer b peer', Transfer.move, List.getLast?_concat]
      refine ⟨rfl, ?_⟩
      by_cases hzero : b.length = 0
      · exact Or.inr (by rw [List.length_eq_zero_iff.mp hzero])
      · exact Or.inl (by omega)

/-- A loop that stops for no other reason has transferred all. -/
lemma Ended.complete {ret : ℤ} (h : Ended op peer len ret s) (hall : ∀ r ∈ s.results, GoesOn r) :
    s.moved.length = len ∧ ret = len := by
  obtain ⟨hret, hfull | hlast⟩ := h.success fun r hr => (hall r hr).isOk
  · exact ⟨hfull, hret.trans (congrArg _ hfull)⟩
  · obtain ⟨b, hne, hnil⟩ := hall _ (List.mem_of_getLast? hlast)
    exact absurd (Except.ok.inj hnil).symm hne

end Ended

/-! ### Reading -/

section Reading

variable {source : Source σ} {buffer : Buffer} {peer : σ} {total : ℕ} {s : Transfer σ}

/-- What a loop that reads leaves: what was read stands at the start of the buffer, the rest of
which is as before. -/
structure EndedRead (source : Source σ) (buffer : Buffer) (peer : σ) (ret : ℤ) (s : Transfer σ) :
    Prop extends Ended (reading source buffer.bytes.length) peer buffer.bytes.length ret s where
  buffer_eq : s.buffer = s.moved ++ buffer.bytes.drop s.moved.length

/-- The invariant of a loop that reads. -/
structure UnderwayRead (source : Source σ) (buffer : Buffer) (peer : σ) (total : ℕ)
    (s : Transfer σ) : Prop
    extends Underway (reading source buffer.bytes.length) peer buffer.bytes.length total s where
  buffer_eq : s.buffer = s.moved ++ buffer.bytes.drop total

lemma underwayRead_start (source : Source σ) (buffer : Buffer) (peer : σ) :
    UnderwayRead source buffer peer 0 (⟨buffer.bytes, [], peer⟩ : Transfer σ) :=
  ⟨underway_start _, rfl⟩

/-- The next operation is given memory of the buffer. -/
lemma UnderwayRead.readPart (h : UnderwayRead source buffer peer total s)
    (htotal : total ≤ buffer.bytes.length) :
    readPart source total (buffer.bytes.length - total : ℕ) s
      = some (receive source total (buffer.bytes.length - total) s) := by
  have hlength : s.buffer.length = buffer.bytes.length := by
    rw [h.buffer_eq, List.length_append, h.length_eq, List.length_drop]
    omega
  rw [StreamLoop.readPart, if_pos ⟨by omega, by omega⟩, Int.toNat_natCast]

/-- It fails. -/
lemma UnderwayRead.fail (h : UnderwayRead source buffer peer total s)
    (htotal : total ≤ buffer.bytes.length) {e : Errno} {peer' : σ}
    (hop : reading source buffer.bytes.length s.peer total = (.error e, peer')) :
    EndedRead source buffer peer (-1) (s.fail e peer') := by
  refine ⟨h.toUnderway.fail htotal hop, ?_⟩
  rw [s.moved_fail, h.length_eq]
  exact h.buffer_eq

/-- It reads `b`, which is stored behind the bytes before, and the loop goes on or ends. -/
lemma UnderwayRead.move (h : UnderwayRead source buffer peer total s) {b : StdString} {peer' : σ}
    (hle : total + b.length ≤ buffer.bytes.length)
    (hop : reading source buffer.bytes.length s.peer total = (.ok b, peer')) :
    if b.length ≠ 0 ∧ total + b.length < buffer.bytes.length
    then UnderwayRead source buffer peer (total + b.length)
      (s.move (overwrite s.buffer total b) b peer')
    else EndedRead source buffer peer ((total + b.length : ℕ) : ℤ)
      (s.move (overwrite s.buffer total b) b peer') := by
  have hstored : overwrite s.buffer total b
      = (s.moved ++ b) ++ buffer.bytes.drop (total + b.length) := by
    have hlength := h.length_eq
    rw [overwrite, h.buffer_eq, ← List.drop_drop, ← hlength, List.take_left, List.drop_left,
      List.drop_drop]
  have hnext := h.toUnderway.move (overwrite s.buffer total b) hle hop
  rw [← s.moved_move (overwrite s.buffer total b) b peer'] at hstored
  split_ifs at hnext ⊢ with hmore
  · exact ⟨hnext, hstored⟩
  · refine ⟨hnext, ?_⟩
    rw [h.length_move]
    exact hstored

/-- The loop reads: it ends, and what it has read stands in the buffer. -/
def ReadsExactly (source : Source σ) (buffer : Buffer) (peer : σ)
    (loop : ℕ → Option (ℤ × Transfer σ)) : Prop :=
  ∃ ret s, (∀ fuel, buffer.bytes.length < fuel → loop fuel = some (ret, s)) ∧
    EndedRead source buffer peer ret s

/-- A loop that reads. -/
lemma readsExactly_loop (source : Source σ) (buffer : Buffer) (peer : σ) :
    ReadsExactly source buffer peer fun fuel =>
      transferLoop (readPart source) buffer.bytes.length fuel 0 ⟨buffer.bytes, [], peer⟩ := by
  refine transferLoop_ends (UnderwayRead source buffer peer) (EndedRead source buffer peer)
    buffer.length_lt (fun total s htotal h => ?_) (Nat.zero_le _)
    (underwayRead_start source buffer peer)
  rw [h.readPart htotal, receive]
  rcases hop : source s.peer (buffer.bytes.length - total) with ⟨r, peer'⟩
  cases r with
  | error e => exact Or.inl ⟨_, rfl, h.fail htotal (by rw [reading, hop]; rfl)⟩
  | ok b =>
      have hle : total + b.1.length ≤ buffer.bytes.length := by
        have := b.2
        omega
      exact Or.inr ⟨b.1.length, _, hle, rfl, h.move hle (by rw [reading, hop]; rfl)⟩

end Reading

/-! ### Writing -/

section Writing

variable {sink : Sink σ} {buffer : Buffer} {peer : σ} {total : ℕ} {s : Transfer σ}

/-- What a loop that writes leaves: what was written is a beginning of the buffer, which is as
before. -/
structure EndedWrite (sink : Sink σ) (buffer : Buffer) (peer : σ) (ret : ℤ) (s : Transfer σ) :
    Prop extends Ended (writing sink buffer.bytes) peer buffer.bytes.length ret s where
  buffer_eq : s.buffer = buffer.bytes
  moved_prefix : s.moved <+: buffer.bytes

/-- The invariant of a loop that writes. -/
structure UnderwayWrite (sink : Sink σ) (buffer : Buffer) (peer : σ) (total : ℕ)
    (s : Transfer σ) : Prop
    extends Underway (writing sink buffer.bytes) peer buffer.bytes.length total s where
  buffer_eq : s.buffer = buffer.bytes
  moved_eq : s.moved = buffer.bytes.take total

lemma underwayWrite_start (sink : Sink σ) (buffer : Buffer) (peer : σ) :
    UnderwayWrite sink buffer peer 0 (⟨buffer.bytes, [], peer⟩ : Transfer σ) :=
  ⟨underway_start _, rfl, rfl⟩

/-- The next operation is given the rest of the buffer. -/
lemma UnderwayWrite.writePart (h : UnderwayWrite sink buffer peer total s)
    (htotal : total ≤ buffer.bytes.length) :
    writePart sink total (buffer.bytes.length - total : ℕ) s
      = some (offer sink (buffer.bytes.drop total) s) := by
  have hlength : s.buffer.length = buffer.bytes.length := congrArg _ h.buffer_eq
  rw [StreamLoop.writePart, if_pos ⟨by omega, by omega⟩, Int.toNat_natCast, h.buffer_eq,
    List.take_of_length_le (by rw [List.length_drop])]

/-- It fails. -/
lemma UnderwayWrite.fail (h : UnderwayWrite sink buffer peer total s)
    (htotal : total ≤ buffer.bytes.length) {e : Errno} {peer' : σ}
    (hop : writing sink buffer.bytes s.peer total = (.error e, peer')) :
    EndedWrite sink buffer peer (-1) (s.fail e peer') := by
  refine ⟨h.toUnderway.fail htotal hop, h.buffer_eq, ?_⟩
  rw [s.moved_fail, h.moved_eq]
  exact List.take_prefix _ _

/-- It writes `n` bytes, and the loop goes on or ends. -/
lemma UnderwayWrite.move (h : UnderwayWrite sink buffer peer total s) {n : ℕ} {peer' : σ}
    (hle : total + n ≤ buffer.bytes.length)
    (hop : writing sink buffer.bytes s.peer total
      = (.ok ((buffer.bytes.drop total).take n), peer')) :
    if n ≠ 0 ∧ total + n < buffer.bytes.length
    then UnderwayWrite sink buffer peer (total + n)
      (s.move s.buffer ((buffer.bytes.drop total).take n) peer')
    else EndedWrite sink buffer peer ((total + n : ℕ) : ℤ)
      (s.move s.buffer ((buffer.bytes.drop total).take n) peer') := by
  have hlength : ((buffer.bytes.drop total).take n).length = n := by
    rw [List.length_take, List.length_drop]
    omega
  have hmoved : (s.move s.buffer ((buffer.bytes.drop total).take n) peer').moved
      = buffer.bytes.take (total + n) := by
    rw [s.moved_move, h.moved_eq, List.take_add]
  have hle' : total + ((buffer.bytes.drop total).take n).length ≤ buffer.bytes.length := by
    omega
  have hnext := h.toUnderway.move s.buffer hle' hop
  rw [hlength] at hnext
  split_ifs at hnext ⊢ with hmore
  · exact ⟨hnext, h.buffer_eq, hmoved⟩
  · exact ⟨hnext, h.buffer_eq, hmoved ▸ List.take_prefix _ _⟩

/-- The loop writes: it ends, and has written all of the buffer if every operation went well and
took some bytes. -/
def WritesExactly (sink : Sink σ) (buffer : Buffer) (peer : σ)
    (loop : ℕ → Option (ℤ × Transfer σ)) : Prop :=
  ∃ ret s, (∀ fuel, buffer.bytes.length < fuel → loop fuel = some (ret, s)) ∧
    EndedWrite sink buffer peer ret s ∧
    ((∀ r ∈ s.results, GoesOn r) → s.moved = buffer.bytes ∧ ret = buffer.bytes.length)

/-- A loop that writes. -/
lemma writesExactly_loop (sink : Sink σ) (buffer : Buffer) (peer : σ) :
    WritesExactly sink buffer peer fun fuel =>
      transferLoop (writePart sink) buffer.bytes.length fuel 0 ⟨buffer.bytes, [], peer⟩ := by
  obtain ⟨ret, s, hends, hended⟩ : ∃ ret s, (∀ fuel, buffer.bytes.length < fuel →
      transferLoop (writePart sink) buffer.bytes.length fuel 0 ⟨buffer.bytes, [], peer⟩
        = some (ret, s)) ∧ EndedWrite sink buffer peer ret s := by
    refine transferLoop_ends (UnderwayWrite sink buffer peer) (EndedWrite sink buffer peer)
      buffer.length_lt (fun total s htotal h => ?_) (Nat.zero_le _)
      (underwayWrite_start sink buffer peer)
    rw [h.writePart htotal, offer]
    rcases hop : sink s.peer (buffer.bytes.drop total) with ⟨r, peer'⟩
    cases r with
    | error e => exact Or.inl ⟨_, rfl, h.fail htotal (by rw [writing, hop]; rfl)⟩
    | ok n =>
        have hle : total + n.1 ≤ buffer.bytes.length := by
          have hn : n.1 ≤ buffer.bytes.length - total := n.2.trans_eq List.length_drop
          omega
        exact Or.inr ⟨n.1, _, hle, rfl, h.move hle (by rw [writing, hop]; rfl)⟩
  refine ⟨ret, s, hends, hended, fun hall => ?_⟩
  obtain ⟨hfull, hret⟩ := hended.complete hall
  exact ⟨hended.moved_prefix.eq_of_length hfull, hret⟩

end Writing

/-- **The four stream loops** end for every buffer and every sequence of results, and transfer exact
prefixes. -/
theorem streamLoops_exact (source : Source σ) (sink : Sink σ) (buffer : Buffer) (peer : σ) :
    (ReadsExactly source buffer peer (recv source buffer peer) ∧
      ReadsExactly source buffer peer (asyncRead source buffer peer)) ∧
    WritesExactly sink buffer peer (send sink buffer peer) ∧
    WritesExactly sink buffer peer (asyncWrite sink buffer peer) :=
  ⟨⟨readsExactly_loop source buffer peer, readsExactly_loop source buffer peer⟩,
    writesExactly_loop sink buffer peer, writesExactly_loop sink buffer peer⟩

/-! ### The coroutines -/

end StreamLoop

open Coro

/-- `asyncRead`. -/
def asyncRead {D : Type} (aFD : ObjId) (len : ℕ) (errbub : ErrBub) : Io D (ℤ × StdString) :=
  readLoop (fun len => do sysCall (.read (← getFD aFD) len)) errbub len []

namespace StreamLoop

section Coroutines

variable {D ε α : Type} (env : Env SysCall Ans (Process D) ε)

/-- What an awaited operation returns, when its caller gives it a place for the error. -/
def awaited (syscall : Io D (Except Errno α)) (w : World SysCall Ans (Process D) Mark ε) :
    Except Errno α × World SysCall Ans (Process D) Mark ε :=
  let r := (awaitSyscall false .storage fun _ => syscall).exec env w
  (r.1.getD (.error (.other 0)), r.2)

/-- The results of awaited operations that read. -/
def awaitedSource (syscall : (len : ℕ) → Io D (Except Errno { b : StdString // b.length ≤ len })) :
    Source (World SysCall Ans (Process D) Mark ε) := fun w len => awaited env (syscall len) w

/-- The results of awaited operations that write. -/
def awaitedSink (syscall : (b : StdString) → Io D (Except Errno { n : ℕ // n ≤ b.length })) :
    Sink (World SysCall Ans (Process D) Mark ε) := fun w b => awaited env (syscall b) w

variable {env} {syscall : Io D (Except Errno α)}

/-- Reporting an error to a place for it returns. -/
lemma exec_reportError (r : Except Errno α) (w : World SysCall Ans (Process D) Mark ε) :
    ∃ w', ((reportError .storage r >>= fun _ => pure r : Io D _)).exec env w = (some r, w') := by
  cases r with
  | ok a => exact ⟨w, rfl⟩
  | error e => exact ⟨w.marked (.bubbled (.errno e)), rfl⟩

lemma exec_awaitSyscall (hreturns : ∀ w, ∃ r w', syscall.exec env w = (some r, w'))
    (w : World SysCall Ans (Process D) Mark ε) :
    (awaitSyscall false .storage fun _ => syscall).exec env w
      = (some (awaited env syscall w).1, (awaited env syscall w).2) := by
  have hsome : ∃ r w', (awaitSyscall false .storage fun _ => syscall).exec env w
      = (some r, w') := by
    obtain ⟨r, w', hr⟩ := hreturns w
    rw [awaitSyscall, exec_bind, hr]
    dsimp only [Option.elim_some]
    split_ifs
    · rw [exec_bind]
      obtain ⟨r', w'', hr'⟩ := hreturns (w'.resumed env)
      change ∃ _ _, ((syscall >>= _).exec env (w'.resumed env)) = _
      rw [exec_bind, hr']
      exact ⟨r', exec_reportError r' w''⟩
    · exact ⟨r, exec_reportError r w'⟩
  obtain ⟨r, w', hr⟩ := hsome
  rw [awaited, hr]
  rfl

/-- A loop that reads runs as one over the results of its awaited operations. -/
lemma readLoop_exec
    (syscall : (len : ℕ) → Io D (Except Errno { b : StdString // b.length ≤ len }))
    (hreturns : ∀ len w, ∃ r w', (syscall len).exec env w = (some r, w')) (buffer : Buffer)
    (w : World SysCall Ans (Process D) Mark ε) :
    ∃ ret s, (∀ fuel, buffer.bytes.length < fuel →
        transferLoop (readPart (awaitedSource env syscall)) buffer.bytes.length fuel 0
          ⟨buffer.bytes, [], w⟩ = some (ret, s)) ∧
      EndedRead (awaitedSource env syscall) buffer w ret s ∧
      (readLoop syscall .storage buffer.bytes.length []).exec env w
        = (some (ret, s.moved), s.peer) := by
  generalize hrun : (readLoop syscall .storage buffer.bytes.length []).exec env w = run
  refine transferLoop_ends
    (fun total s => UnderwayRead (awaitedSource env syscall) buffer w total s ∧
      run = (readLoop syscall .storage buffer.bytes.length s.moved).exec env s.peer)
    (fun ret s => EndedRead (awaitedSource env syscall) buffer w ret s ∧
      run = (some (ret, s.moved), s.peer))
    buffer.length_lt (fun total s htotal h => ?_) (Nat.zero_le _)
    ⟨underwayRead_start _ buffer w, hrun.symm⟩
  obtain ⟨h, hexec⟩ := h
  have hlength := h.length_eq
  rw [readLoop, exec_bind, exec_awaitSyscall (hreturns _)] at hexec
  subst hlength
  rw [h.readPart htotal, receive]
  rcases hop : awaitedSource env syscall s.peer (buffer.bytes.length - s.moved.length)
    with ⟨r, peer'⟩
  rw [← awaitedSource, hop] at hexec
  cases r with
  | error e =>
      refine Or.inl ⟨_, rfl, h.fail htotal (by rw [reading, hop]; rfl), ?_⟩
      rw [s.moved_fail]
      exact hexec
  | ok b =>
      have hle : s.moved.length + b.1.length ≤ buffer.bytes.length := by
        have := b.2
        omega
      refine Or.inr ⟨b.1.length, _, hle, rfl, ?_⟩
      have hnext := h.move hle (by rw [reading, hop]; rfl)
      have hmore : (b.1 ≠ [] ∧ (s.moved ++ b.1).length < buffer.bytes.length)
          = (b.1.length ≠ 0 ∧ s.moved.length + b.1.length < buffer.bytes.length) := by
        rw [List.length_append, ne_eq, ne_eq, List.length_eq_zero_iff]
      dsimp only [Option.elim_some] at hexec
      rw [s.moved_move, hexec]
      simp only [hmore]
      split_ifs at hnext ⊢
      · exact ⟨hnext, rfl⟩
      · refine ⟨hnext, ?_⟩
        rw [← List.length_append]
        rfl

/-- A loop that writes runs as one over the results of its awaited operations. -/
lemma writeLoop_exec
    (syscall : (b : StdString) → Io D (Except Errno { n : ℕ // n ≤ b.length }))
    (hreturns : ∀ b w, ∃ r w', (syscall b).exec env w = (some r, w')) (buffer : Buffer)
    (w : World SysCall Ans (Process D) Mark ε) :
    ∃ ret s, (∀ fuel, buffer.bytes.length < fuel →
        transferLoop (writePart (awaitedSink env syscall)) buffer.bytes.length fuel 0
          ⟨buffer.bytes, [], w⟩ = some (ret, s)) ∧
      EndedWrite (awaitedSink env syscall) buffer w ret s ∧
      (writeLoop syscall .storage buffer.bytes 0).exec env w = (some ret, s.peer) := by
  generalize hrun : (writeLoop syscall .storage buffer.bytes 0).exec env w = run
  refine transferLoop_ends
    (fun total s => UnderwayWrite (awaitedSink env syscall) buffer w total s ∧
      run = (writeLoop syscall .storage buffer.bytes total).exec env s.peer)
    (fun ret s => EndedWrite (awaitedSink env syscall) buffer w ret s ∧
      run = (some ret, s.peer))
    buffer.length_lt (fun total s htotal h => ?_) (Nat.zero_le _)
    ⟨underwayWrite_start _ buffer w, hrun.symm⟩
  obtain ⟨h, hexec⟩ := h
  rw [writeLoop, exec_bind, exec_awaitSyscall (hreturns _)] at hexec
  rw [h.writePart htotal, offer]
  rcases hop : awaitedSink env syscall s.peer (buffer.bytes.drop total) with ⟨r, peer'⟩
  rw [← awaitedSink, hop] at hexec
  cases r with
  | error e => exact Or.inl ⟨_, rfl, h.fail htotal (by rw [writing, hop]; rfl), hexec⟩
  | ok n =>
      have hle : total + n.1 ≤ buffer.bytes.length := by
        have hn : n.1 ≤ buffer.bytes.length - total := n.2.trans_eq List.length_drop
        omega
      refine Or.inr ⟨n.1, _, hle, rfl, ?_⟩
      have hnext := h.move hle (by rw [writing, hop]; rfl)
      dsimp only [Option.elim_some] at hexec
      rw [hexec]
      split_ifs at hnext ⊢
      · exact ⟨hnext, rfl⟩
      · exact ⟨hnext, rfl⟩

variable (env) (id : ObjId) (buffer : Buffer) (w : World SysCall Ans (Process D) Mark ε)

/-- `recv` is the loop over the results of the calls of `recv`. -/
theorem recv_exec :
    let source := awaitedSource env fun len => do sysCall (.recv (← getFD id) len)
    ∃ ret s, (∀ fuel, buffer.bytes.length < fuel →
        recv source buffer w fuel = some (ret, s)) ∧
      EndedRead source buffer w ret s ∧
      (SharedStateAsync.recv id buffer.bytes.length .storage).exec env w
        = (some (ret, s.moved), s.peer) :=
  readLoop_exec (fun len => do sysCall (.recv (← getFD id) len))
    (fun _ _ => ⟨_, _, rfl⟩) buffer w

/-- `asyncRead` is the loop over the results of the calls of `read`. -/
theorem asyncRead_exec :
    let source := awaitedSource env fun len => do sysCall (.read (← getFD id) len)
    ∃ ret s, (∀ fuel, buffer.bytes.length < fuel →
        asyncRead source buffer w fuel = some (ret, s)) ∧
      EndedRead source buffer w ret s ∧
      (SharedStateAsync.asyncRead id buffer.bytes.length .storage).exec env w
        = (some (ret, s.moved), s.peer) :=
  readLoop_exec (fun len => do sysCall (.read (← getFD id) len))
    (fun _ _ => ⟨_, _, rfl⟩) buffer w

/-- `send` is the loop over the results of the calls of `send`. -/
theorem send_exec :
    let sink := awaitedSink env fun b => do sysCall (.send (← getFD id) b)
    ∃ ret s, (∀ fuel, buffer.bytes.length < fuel →
        send sink buffer w fuel = some (ret, s)) ∧
      EndedWrite sink buffer w ret s ∧
      (SharedStateAsync.send id buffer.bytes .storage).exec env w = (some ret, s.peer) :=
  writeLoop_exec (fun b => do sysCall (.send (← getFD id) b))
    (fun _ _ => ⟨_, _, rfl⟩) buffer w

/-- `asyncWrite` is the loop over the results of the calls of `write`. -/
theorem asyncWrite_exec :
    let sink := awaitedSink env fun b => do sysCall (.write (← getFD id) b)
    ∃ ret s, (∀ fuel, buffer.bytes.length < fuel →
        asyncWrite sink buffer w fuel = some (ret, s)) ∧
      EndedWrite sink buffer w ret s ∧
      (SharedStateAsync.asyncWrite id buffer.bytes .storage).exec env w = (some ret, s.peer) :=
  writeLoop_exec (fun b => do sysCall (.write (← getFD id) b))
    (fun _ _ => ⟨_, _, rfl⟩) buffer w

end Coroutines

end StreamLoop

end SharedStateAsync
