/-
Sockets (`src/async_socket.cc`) and the loops that read and write a descriptor.

* `readLoop`, `writeLoop`: the loop of `AsyncSocket::recv` and `asyncRead`, and
  the one of `AsyncSocket::send` and `asyncWrite`;
* `recv`, `send`, `getPeerAddr`: the operations of a connected socket;
* `accept`, `connect`: the two ways to get one.
-/
import SharedStateAsync.Io.Process

namespace SharedStateAsync

open Coro

variable {D : Type}

/-! ### The loops -/

/-- Read until `len` bytes have been read or an attempt gives none: the returned
count, and the bytes that lie at the beginning of the buffer. -/
def readLoop (syscall : (len : ℕ) → Io D (Except Errno { b : StdString // b.length ≤ len }))
    (errbub : ErrBub) (len : ℕ) (buffer : StdString) : Io D (ℤ × StdString) := do
  let numReadBytes ← awaitSyscall false errbub fun _ => syscall (len - buffer.length)
  match numReadBytes with
  | .error _ => return (-1, buffer)
  | .ok b =>
      if b.1 ≠ [] ∧ (buffer ++ b.1).length < len then
        readLoop syscall errbub len (buffer ++ b.1)
      else return (((buffer ++ b.1).length : ℤ), buffer ++ b.1)
termination_by len - buffer.length
decreasing_by
  rename_i h
  have hpos : 0 < b.1.length := List.length_pos_iff.mpr h.1
  have hlt := h.2
  rw [List.length_append] at hlt ⊢
  omega

/-- Write the bytes of the buffer from `totalWriteBytes` on, until all are
written or an attempt takes none. -/
def writeLoop (syscall : (b : StdString) → Io D (Except Errno { n : ℕ // n ≤ b.length }))
    (errbub : ErrBub) (buffer : StdString) (totalWriteBytes : ℕ) : Io D ℤ := do
  let numWriteBytes ← awaitSyscall false errbub fun _ => syscall (buffer.drop totalWriteBytes)
  match numWriteBytes with
  | .error _ => return -1
  | .ok n =>
      if n.1 ≠ 0 ∧ totalWriteBytes + n.1 < buffer.length then
        writeLoop syscall errbub buffer (totalWriteBytes + n.1)
      else return ((totalWriteBytes + n.1 : ℕ) : ℤ)
termination_by buffer.length - totalWriteBytes
decreasing_by omega

section Uses

variable {C : SysCall → Prop} {E : Mark → Prop} {W : Process D → Process D → Prop} {Z : Prop}

lemma uses_readLoop {errbub : ErrBub}
    {syscall : (len : ℕ) → Io D (Except Errno { b : StdString // b.length ≤ len })}
    (hE : ∀ c, E (.bubbled c)) (h : ∀ len, (syscall len).Uses C E W Z) (len : ℕ)
    (buffer : StdString) (hz : errbub = .null → Z := by nofun) :
    (readLoop syscall errbub len buffer).Uses C E W Z := by
  induction hn : len - buffer.length using Nat.strong_induction_on generalizing buffer with
  | _ n ih =>
      rw [readLoop]
      refine uses_bind (uses_awaitSyscall hE (fun h => by cases h) (fun _ => h _) hz) fun r => ?_
      cases r with
      | error e => exact uses_pure _
      | ok b =>
          simp only
          split_ifs with hmore
          · refine ih _ ?_ (buffer ++ b.1) rfl
            have hpos : 0 < b.1.length := List.length_pos_iff.mpr hmore.1
            have hlt := hmore.2
            rw [List.length_append] at hlt ⊢
            omega
          · exact uses_pure _

lemma uses_writeLoop {errbub : ErrBub}
    {syscall : (b : StdString) → Io D (Except Errno { n : ℕ // n ≤ b.length })}
    (hE : ∀ c, E (.bubbled c)) (h : ∀ b, (syscall b).Uses C E W Z) (buffer : StdString) (n : ℕ)
    (hz : errbub = .null → Z := by nofun) :
    (writeLoop syscall errbub buffer n).Uses C E W Z := by
  induction hk : buffer.length - n using Nat.strong_induction_on generalizing n with
  | _ k ih =>
      rw [writeLoop]
      refine uses_bind (uses_awaitSyscall hE (fun h => by cases h) (fun _ => h _) hz) fun r => ?_
      cases r with
      | error e => exact uses_pure _
      | ok l =>
          simp only
          split_ifs with hmore
          · exact ih _ (by omega) (n + l.1) rfl
          · exact uses_pure _

end Uses

/-! ### Connected sockets -/

/-- `AsyncSocket::recv`. -/
def recv (pSocket : ObjId) (len : ℕ) (errbub : ErrBub) : Io D (ℤ × StdString) :=
  readLoop (fun len => do sysCall (.recv (← getFD pSocket) len)) errbub len []

/-- `AsyncSocket::send`. -/
def send (pSocket : ObjId) (buffer : StdString) (errbub : ErrBub) : Io D ℤ :=
  writeLoop (fun b => do sysCall (.send (← getFD pSocket) b)) errbub buffer 0

/-- The calls of a coroutine that only talks to its socket are among `C`, and the
errors it stores among `E`. -/
structure Talks (C : SysCall → Prop) (E : Mark → Prop) : Prop where
  recv : ∀ fd len, C (.recv fd len)
  send : ∀ fd buffer, C (.send fd buffer)
  steadyClock : C .steadyClock
  bubbled : ∀ c, E (.bubbled c)

section Uses

variable {C : SysCall → Prop} {E : Mark → Prop} {W : Process D → Process D → Prop} {Z : Prop}

lemma uses_recv {errbub : ErrBub} (h : Talks C E) (pSocket : ObjId) (len : ℕ)
    (hz : errbub = .null → Z := by nofun) :
    (recv pSocket len errbub : Io D _).Uses C E W Z :=
  uses_readLoop h.bubbled
    (fun len => uses_bind (uses_bind uses_memory fun _ => uses_pure _)
      fun fd => uses_call (h.recv fd len)) len [] hz

lemma uses_send {errbub : ErrBub} (h : Talks C E) (pSocket : ObjId) (buffer : StdString)
    (hz : errbub = .null → Z := by nofun) :
    (send pSocket buffer errbub : Io D _).Uses C E W Z :=
  uses_writeLoop h.bubbled
    (fun b => uses_bind (uses_bind uses_memory fun _ => uses_pure _)
      fun fd => uses_call (h.send fd b)) buffer 0 hz

end Uses

/-- `AsyncSocket::getPeerAddr`, the address being nothing when it failed. -/
def getPeerAddr (pSocket : ObjId) (errbub : ErrBub := .null) : Io D (Option SockAddr) := do
  match ← sysCall (.getpeername (← getFD pSocket)) with
  | .error e =>
      rs_error_bubble_or_exit (.errno e) errbub
      return none
  | .ok peerAddr => return some peerAddr

/-! ### New sockets -/

/-- `ListeningSocket::accept`. Neither `AcceptOperation` nor `registerFD` is
given an error pointer. -/
def accept (listener : ObjId) : Io D (Option ObjId) := do
  event .accepting
  let acceptRet ← awaitSyscall false .null fun _ => do sysCall (.accept (← getFD listener))
  let fd := acceptRet.toOption.getD (-1)
  match ← registerFD fd with
  | none => return none
  | some rsk =>
      attach rsk
      return some rsk

/-- What libretroshare decides about an address before a connection is made:
whether it is valid, and the IPv6 address it is mapped to. -/
structure AddrCheck where
  isValidNet : SockAddr → Bool
  ipv4ToIpv6 : SockAddr → Option SockAddr

/-- `ConnectOperation::syscall`. A connection that failed is told from one that
succeeded by asking for the peer's name, and the reason by reading. -/
def connectSyscall (addrCheck : AddrCheck) (fd : ℤ) (addr : SockAddr) (again : Bool) :
    Io D (Except Errno Unit) := do
  if !again then
    match addrCheck.isValidNet addr, addrCheck.ipv4ToIpv6 addr with
    | true, some mAddr => sysCall (.connect fd mAddr)
    | _, _ => return .error .einval
  else
    match ← sysCall (.getpeername fd) with
    | .ok _ => return .ok ()
    | .error .enotconn =>
        match ← sysCall (.read fd 1) with
        | .error e => return .error e
        | .ok _ => return .ok ()
    | .error e => return .error e

/-- `ConnectingSocket::connect`. -/
def connect (addrCheck : AddrCheck) (address : SockAddr) (errbub : ErrBub) :
    Io D (Option ObjId) := do
  match ← sysCall .socket with
  | .error e =>
      rs_error_bubble_or_exit (.errno e) errbub
      return none
  | .ok fd =>
      match ← registerFD fd with
      | none => return none
      | some lSocket =>
          attach lSocket
          match ← awaitSyscall false errbub (connectSyscall addrCheck fd address) with
          | .error _ =>
              let _ ← closeAFD (some lSocket)
              return none
          | .ok _ => return some lSocket

section Uses

variable {C : SysCall → Prop} {E : Mark → Prop} {W : Process D → Process D → Prop} {Z : Prop}

lemma uses_connectSyscall (hC : ∀ c, C c) (addrCheck : AddrCheck) (fd : ℤ) (addr : SockAddr)
    (again : Bool) : (connectSyscall addrCheck fd addr again : Io D _).Uses C E W Z := by
  rw [connectSyscall]
  split_ifs
  · split
    · exact uses_call (hC _)
    · exact uses_pure _
  · refine uses_bind (uses_call (hC _)) fun r => ?_
    split
    · exact uses_pure _
    · refine uses_bind (uses_call (hC _)) fun r' => ?_
      cases r' with
      | error e => exact uses_pure _
      | ok _ => exact uses_pure _
    · exact uses_pure _

lemma uses_connect {errbub : ErrBub} (h : Manages C E W Z) (hC : ∀ c, C c)
    (addrCheck : AddrCheck) (address : SockAddr) :
    (connect addrCheck address errbub : Io D _).Uses C E W Z := by
  refine uses_bind (uses_call (hC _)) fun fd => ?_
  cases fd with
  | error e => exact uses_bind (h.uses_bubble _ _) fun _ => uses_pure none
  | ok fd =>
      refine uses_bind (uses_registerFD h fd .null) fun registered => ?_
      cases registered with
      | none => exact uses_pure none
      | some lSocket =>
          refine uses_bind (uses_attach h lSocket) fun _ => ?_
          refine uses_bind (uses_awaitSyscall h.bubbled (fun h => by cases h) (fun again =>
            uses_connectSyscall hC addrCheck fd address again) fun _ => h.exits)
            fun connected => ?_
          cases connected with
          | error e => exact uses_bind (uses_closeAFD h _ _) fun _ => uses_pure none
          | ok _ => exact uses_pure _

end Uses

end SharedStateAsync
