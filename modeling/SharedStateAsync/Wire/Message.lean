/-
Handshake and messages on the wire (`src/sharedstate.cc`).

A message is one byte with the length of the type name, the name, four bytes
with the length of the data, the data, and in the other direction four bytes
with the number of bytes that arrived. Every field is read by a loop that stops
early at the end of the stream, into a buffer of zeros.

* `NetworkMessage`, `NetworkStats`: a message and what is measured on the way;
* `receiveNetworkMessage`, `sendNetworkMessage`: the two sides of a transfer;
* `serverHandShake`, `clientHandShake`: the exchange of versions before it.
-/
import SharedStateAsync.Lib.ByteOrder
import SharedStateAsync.Io.Socket
import SharedStateAsync.Config.Reload

namespace SharedStateAsync

open Coro ByteOrder

def DATA_MAX_LENGHT : ℕ := 1024 * 1024

def WIRE_PROTO_VERSION : ℕ := 1

/-- `SharedState::NetworkMessage`. -/
structure NetworkMessage where
  mTypeName : StdString
  mData : StdString
  deriving DecidableEq, Repr

/-- `SharedState::NetworkStats`. -/
structure NetworkStats where
  mPeer : SockAddr := []
  /-- Time of the record, in nanoseconds. -/
  mTS : ℤ := 0
  /-- Round trip time, in microseconds. -/
  mRttExt : ℤ := 0
  mUpBwMbsExt : ℕ := 0
  mDownBwMbsExt : ℕ := 0
  deriving DecidableEq, Repr

/-- `duration_cast<microseconds>` of nanoseconds. -/
def microseconds (ns : ℤ) : ℤ := ns.tdiv 1000

/-- `MbitPerSec`. -/
def MbitPerSec (bytes microseconds : ℤ) : ℤ := max 1 ((bytes * 8).tdiv microseconds)

/-- Conversion to `uint32_t`. -/
def toUint32 (n : ℤ) : ℕ := (n % 2 ^ 32).toNat

lemma toUint32_natCast {n : ℕ} (h : n < 2 ^ 32) : toUint32 n = n := by
  rw [toUint32]
  omega

variable {D : Type}

/-! ### Transfer -/

/-- `SharedState::receiveNetworkMessage`: the returned value, and the message and
the statistics it was given, as it leaves them. -/
def receiveNetworkMessage (endian : Endian) (pSocket : ObjId) (netStats : NetworkStats)
    (errbub : ErrBub) : Io D (ℤ × NetworkMessage × NetworkStats) := do
  let recvBTP ← sysCall .steadyClock
  let (recvRet, b) ← recv pSocket 1 errbub
  if recvRet = -1 then return (-1, ⟨[], []⟩, netStats)
  let totalReceivedBytes := recvRet
  let dataTypeNameLenght := ((fill [0] b).headD 0).toNat
  if dataTypeNameLenght < 1 ∨ dataTypeNameLenght > DATA_TYPE_NAME_MAX_LENGHT then
    rs_error_bubble_or_exit .badMessage errbub
    return (-1, ⟨[], []⟩, netStats)
  let (recvRet, b) ← recv pSocket dataTypeNameLenght errbub
  let mTypeName := fill (List.replicate dataTypeNameLenght 0) b
  if recvRet = -1 then return (-1, ⟨mTypeName, []⟩, netStats)
  let totalReceivedBytes := totalReceivedBytes + recvRet
  let (recvRet, b) ← recv pSocket 4 errbub
  if recvRet = -1 then return (-1, ⟨mTypeName, []⟩, netStats)
  let totalReceivedBytes := totalReceivedBytes + recvRet
  let dataLenght := endian.htonl (endian.load (fill [0, 0, 0, 0] b))
  if dataLenght < 2 ∨ dataLenght > DATA_MAX_LENGHT then
    rs_error_bubble_or_exit .badMessage errbub
    return (-1, ⟨mTypeName, []⟩, netStats)
  let (recvRet, b) ← recv pSocket dataLenght errbub
  let mData := fill (List.replicate dataLenght 0) b
  if recvRet = -1 then return (-1, ⟨mTypeName, mData⟩, netStats)
  let totalReceivedBytes := totalReceivedBytes + recvRet
  let recvETP ← sysCall .steadyClock
  let netOrderReceivedB := endian.htonl (toUint32 totalReceivedBytes)
  let sendRet ← send pSocket (endian.store netOrderReceivedB) errbub
  if sendRet = -1 then return (-1, ⟨mTypeName, mData⟩, netStats)
  let netStats :=
    if recvETP > recvBTP then
      { netStats with
        mDownBwMbsExt :=
          toUint32 (MbitPerSec totalReceivedBytes (microseconds (recvETP - recvBTP))) }
    else netStats
  return (totalReceivedBytes, ⟨mTypeName, mData⟩, netStats)

/-- `SharedState::sendNetworkMessage`. The length of the name is kept in a
`uint8_t`, the one of the data in a `uint32_t`. -/
def sendNetworkMessage (endian : Endian) (pSocket : ObjId) (netMsg : NetworkMessage)
    (netStats : NetworkStats) (errbub : ErrBub) : Io D (ℤ × NetworkStats) := do
  let sendBTP ← sysCall .steadyClock
  let dataTypeLen := UInt8.ofNat netMsg.mTypeName.length
  let sentBytes ← send pSocket [dataTypeLen] errbub
  if sentBytes = -1 then return (-1, netStats)
  let totalSentBytes := sentBytes
  let sentBytes ← send pSocket (netMsg.mTypeName.take dataTypeLen.toNat) errbub
  if sentBytes = -1 then return (-1, netStats)
  let totalSentBytes := totalSentBytes + sentBytes
  let dataTypeLenNetOrder := endian.htonl (toUint32 netMsg.mData.length)
  let sentBytes ← send pSocket (endian.store dataTypeLenNetOrder) errbub
  if sentBytes = -1 then return (-1, netStats)
  let totalSentBytes := totalSentBytes + sentBytes
  let sentBytes ← send pSocket netMsg.mData errbub
  if sentBytes = -1 then return (-1, netStats)
  let totalSentBytes := totalSentBytes + sentBytes
  let (recvRet, b) ← recv pSocket 4 errbub
  if recvRet = -1 then return (-1, netStats)
  let ackETP ← sysCall .steadyClock
  let totalAckBytes := endian.htonl (endian.load (fill [0, 0, 0, 0] b))
  if (totalAckBytes : ℤ) ≠ totalSentBytes then
    rs_error_bubble_or_exit .messageSize errbub
    return (-1, netStats)
  let netStats :=
    if ackETP > sendBTP then
      { netStats with
        mUpBwMbsExt := toUint32 (MbitPerSec totalSentBytes (microseconds (ackETP - sendBTP))) }
    else netStats
  return (totalSentBytes, netStats)

/-! ### Handshake -/

/-- `SharedState::serverHandShake`. What the client sends last is read but not
looked at. -/
def serverHandShake (endian : Endian) (pSocket : ObjId) (netStats : NetworkStats)
    (errbub : ErrBub) : Io D (Bool × NetworkStats) := do
  let (recvRet, b) ← recv pSocket 4 errbub
  if recvRet = -1 then return (false, netStats)
  let wireProtoVer := endian.htonl (endian.load (fill [0, 0, 0, 0] b))
  if WIRE_PROTO_VERSION ≠ wireProtoVer then
    rs_error_bubble_or_exit .protocolError errbub
    return (false, netStats)
  let verBTP ← sysCall .steadyClock
  let wireProtoVer := endian.htonl WIRE_PROTO_VERSION
  let sendRet ← send pSocket (endian.store wireProtoVer) errbub
  if sendRet = -1 then return (false, netStats)
  let (recvRet, _) ← recv pSocket 4 errbub
  if recvRet = -1 then return (false, netStats)
  let verETP ← sysCall .steadyClock
  return (true, { netStats with mRttExt := microseconds (verETP - verBTP) })

/-- `SharedState::clientHandShake`. The answer is read over the version that was
sent, and sent back in host order. -/
def clientHandShake (endian : Endian) (pSocket : ObjId) (netStats : NetworkStats)
    (errbub : ErrBub) : Io D (Bool × NetworkStats) := do
  let verBTP ← sysCall .steadyClock
  let wireProtoVer := endian.htonl WIRE_PROTO_VERSION
  let sendRet ← send pSocket (endian.store wireProtoVer) errbub
  if sendRet = -1 then return (false, netStats)
  let (recvRet, b) ← recv pSocket 4 errbub
  if recvRet = -1 then return (false, netStats)
  let verETP ← sysCall .steadyClock
  let wireProtoVer := endian.htonl (endian.load (fill (endian.store wireProtoVer) b))
  if WIRE_PROTO_VERSION ≠ wireProtoVer then
    rs_error_bubble_or_exit .protocolError errbub
    return (false, netStats)
  let sendRet ← send pSocket (endian.store wireProtoVer) errbub
  if sendRet = -1 then return (false, netStats)
  return (true, { netStats with mRttExt := microseconds (verETP - verBTP) })

/-! ### What the transfers call -/

section Uses

variable {C : SysCall → Prop} {E : Mark → Prop} {W : Process D → Process D → Prop} {Z : Prop}

lemma uses_receiveNetworkMessage {errbub : ErrBub} (h : Talks C E) (endian : Endian)
    (pSocket : ObjId) (netStats : NetworkStats) (hz : errbub = .null → Z := by nofun) :
    (receiveNetworkMessage endian pSocket netStats errbub : Io D _).Uses C E W Z := by
  refine uses_bind (uses_call h.steadyClock) fun _ => uses_bind (uses_recv h _ _ hz) fun r₁ => ?_
  obtain ⟨ret₁, b₁⟩ := r₁
  simp only
  split_ifs
  · exact uses_pure _
  · exact uses_bind (uses_rs_error_bubble_or_exit h.bubbled hz) fun _ => uses_pure _
  refine uses_bind (uses_recv h _ _ hz) fun r₂ => ?_
  obtain ⟨ret₂, b₂⟩ := r₂
  simp only
  split_ifs
  · exact uses_pure _
  refine uses_bind (uses_recv h _ _ hz) fun r₃ => ?_
  obtain ⟨ret₃, b₃⟩ := r₃
  simp only
  split_ifs
  · exact uses_pure _
  · exact uses_bind (uses_rs_error_bubble_or_exit h.bubbled hz) fun _ => uses_pure _
  refine uses_bind (uses_recv h _ _ hz) fun r₄ => ?_
  obtain ⟨ret₄, b₄⟩ := r₄
  simp only
  split_ifs
  · exact uses_pure _
  refine uses_bind (uses_call h.steadyClock) fun _ => uses_bind (uses_send h _ _ hz) fun _ => ?_
  split_ifs
  · exact uses_pure _
  · exact uses_pure _
  · exact uses_pure _

lemma uses_sendNetworkMessage {errbub : ErrBub} (h : Talks C E) (endian : Endian)
    (pSocket : ObjId) (netMsg : NetworkMessage) (netStats : NetworkStats)
    (hz : errbub = .null → Z := by nofun) :
    (sendNetworkMessage endian pSocket netMsg netStats errbub : Io D _).Uses C E W Z := by
  refine uses_bind (uses_call h.steadyClock) fun _ => uses_bind (uses_send h _ _ hz) fun _ => ?_
  split_ifs
  · exact uses_pure _
  refine uses_bind (uses_send h _ _ hz) fun _ => ?_
  split_ifs
  · exact uses_pure _
  refine uses_bind (uses_send h _ _ hz) fun _ => ?_
  split_ifs
  · exact uses_pure _
  refine uses_bind (uses_send h _ _ hz) fun _ => ?_
  split_ifs
  · exact uses_pure _
  refine uses_bind (uses_recv h _ _ hz) fun r => ?_
  obtain ⟨ret, b⟩ := r
  simp only
  split_ifs
  · exact uses_pure _
  · exact uses_bind (uses_call h.steadyClock) fun _ =>
      uses_bind (uses_rs_error_bubble_or_exit h.bubbled hz) fun _ => uses_pure _
  · exact uses_bind (uses_call h.steadyClock) fun _ => uses_pure _

lemma uses_serverHandShake {errbub : ErrBub} (h : Talks C E) (endian : Endian)
    (pSocket : ObjId) (netStats : NetworkStats) (hz : errbub = .null → Z := by nofun) :
    (serverHandShake endian pSocket netStats errbub : Io D _).Uses C E W Z := by
  refine uses_bind (uses_recv h _ _ hz) fun r => ?_
  obtain ⟨ret, b⟩ := r
  simp only
  split_ifs
  · exact uses_pure _
  · exact uses_bind (uses_rs_error_bubble_or_exit h.bubbled hz) fun _ => uses_pure _
  refine uses_bind (uses_call h.steadyClock) fun _ => uses_bind (uses_send h _ _ hz) fun _ => ?_
  split_ifs
  · exact uses_pure _
  refine uses_bind (uses_recv h _ _ hz) fun r' => ?_
  obtain ⟨ret', b'⟩ := r'
  simp only
  split_ifs
  · exact uses_pure _
  · exact uses_bind (uses_call h.steadyClock) fun _ => uses_pure _

lemma uses_clientHandShake {errbub : ErrBub} (h : Talks C E) (endian : Endian)
    (pSocket : ObjId) (netStats : NetworkStats) (hz : errbub = .null → Z := by nofun) :
    (clientHandShake endian pSocket netStats errbub : Io D _).Uses C E W Z := by
  refine uses_bind (uses_call h.steadyClock) fun _ => uses_bind (uses_send h _ _ hz) fun _ => ?_
  split_ifs
  · exact uses_pure _
  refine uses_bind (uses_recv h _ _ hz) fun r => ?_
  obtain ⟨ret, b⟩ := r
  simp only
  split_ifs
  · exact uses_pure _
  · exact uses_bind (uses_call h.steadyClock) fun _ =>
      uses_bind (uses_rs_error_bubble_or_exit h.bubbled hz) fun _ => uses_pure _
  refine uses_bind (uses_call h.steadyClock) fun _ =>
    uses_bind (uses_send h _ _ hz) fun _ => ?_
  split_ifs
  · exact uses_pure _
  · exact uses_pure _

end Uses

/-- The handshake leaves the peer's address alone. -/
lemma serverHandShake_mPeer (endian : Endian) (pSocket : ObjId) (netStats : NetworkStats)
    (errbub : ErrBub) :
    (serverHandShake endian pSocket netStats errbub : Io D _).Returns
      fun r => r.2.mPeer = netStats.mPeer := by
  refine returns_bind fun r => ?_
  obtain ⟨ret, b⟩ := r
  simp only
  split_ifs
  · exact returns_pure rfl
  · exact returns_bind fun _ => returns_pure rfl
  refine returns_bind fun _ => returns_bind fun _ => ?_
  split_ifs
  · exact returns_pure rfl
  refine returns_bind fun r' => ?_
  obtain ⟨ret', b'⟩ := r'
  simp only
  split_ifs
  · exact returns_pure rfl
  · exact returns_bind fun _ => returns_pure rfl

/-- So does receiving a message. -/
lemma receiveNetworkMessage_mPeer (endian : Endian) (pSocket : ObjId) (netStats : NetworkStats)
    (errbub : ErrBub) :
    (receiveNetworkMessage endian pSocket netStats errbub : Io D _).Returns
      fun r => r.2.2.mPeer = netStats.mPeer := by
  refine returns_bind fun _ => returns_bind fun r₁ => ?_
  obtain ⟨ret₁, b₁⟩ := r₁
  simp only
  split_ifs
  · exact returns_pure rfl
  · exact returns_bind fun _ => returns_pure rfl
  refine returns_bind fun r₂ => ?_
  obtain ⟨ret₂, b₂⟩ := r₂
  simp only
  split_ifs
  · exact returns_pure rfl
  refine returns_bind fun r₃ => ?_
  obtain ⟨ret₃, b₃⟩ := r₃
  simp only
  split_ifs
  · exact returns_pure rfl
  · exact returns_bind fun _ => returns_pure rfl
  refine returns_bind fun r₄ => ?_
  obtain ⟨ret₄, b₄⟩ := r₄
  simp only
  split_ifs
  · exact returns_pure rfl
  refine returns_bind fun _ => returns_bind fun _ => ?_
  split_ifs
  · exact returns_pure rfl
  · exact returns_pure rfl
  · exact returns_pure rfl

end SharedStateAsync
