/-
The data model of `include/sharedstate.hh`.

Strings are `std::string`, that is bytes without any encoding: type names come
off the wire and state keys out of a JSON document, and both are compared byte
by byte. Durations are `std::chrono::seconds`, a signed count. The payload
`mData` is a rapidjson document; the store never looks inside it and compares
it with `operator==` only, so it stays a type variable with a `BEq` that is
not assumed lawful.

* `StateEntry`, `StateMap`: one entry, and the entries of one data type;
* `DataTypeConf`: the configuration of one data type;
* `SharedState`: the in-memory part of the object of that name;
* `Host`: what the code takes from the machine it runs on.
-/
import SharedStateAsync.Lib.KeyedMap

namespace SharedStateAsync

/-- `std::string`. -/
abbrev StdString : Type := List UInt8

/-- The bytes of a string constant. -/
def bytes (s : String) : StdString := s.toUTF8.toList

/-- `sockaddr_storage`, by its bytes. -/
abbrev SockAddr : Type := List UInt8

abbrev StateKey : Type := StdString

/-- The `errno` values the code tells apart, and the rest by number. -/
inductive Errno where
  | eagain
  | ewouldblock
  | einprogress
  | enotconn
  | econnaborted
  | econnreset
  | epipe
  | enoent
  | einval
  | other (n : ℕ)
  deriving DecidableEq, Repr

/-- The `std::error_condition` values the code produces: a translated `errno`,
the `std::errc` constants it uses, and its own `SharedStateErrors`. -/
inductive ErrorCondition where
  | errno (e : Errno)
  | invalidArgument
  | badMessage
  | badAddress
  | protocolError
  | messageSize
  | ioError
  | noSuchFileOrDirectory
  | stateNotRecoverable
  | unkownDataType
  deriving DecidableEq, Repr

/-- `SharedState::StateEntry`. -/
structure StateEntry (D : Type) where
  mAuthor : StdString
  /-- Remaining time to live, in seconds. -/
  mTtl : ℤ
  mData : D
  deriving DecidableEq, Repr

/-- `std::map<StateKey, StateEntry>`: the entries of one data type. -/
abbrev StateMap (D : Type) : Type := OrdMap StateKey (StateEntry D)

/-- `SharedState::DataTypeConf`. -/
structure DataTypeConf where
  mName : StdString
  mScope : StdString
  mUpdateInterval : ℤ
  mBleachTTL : ℤ
  deriving DecidableEq, Repr

/-- The in-memory part of `SharedState`. -/
structure SharedState (D : Type) where
  mStates : OrdMap StdString (StateMap D)
  mTypeConf : OrdMap StdString DataTypeConf
  /-- Only the peer instance is in charge of notifying hooks. -/
  isPeer : Bool := false

/-- What the code takes from the machine it runs on: the name it reads from
`/proc/sys/kernel/hostname` whenever it needs an author, and libretroshare's
test for loopback addresses. -/
structure Host where
  authorPlaceOlder : StdString
  isLoopbackNet : SockAddr → Bool

namespace SharedState

variable {D : Type}

/-- The entry stored under key `k` of the data type `t`. -/
def entryAt (s : SharedState D) (t : StdString) (k : StateKey) : Option (StateEntry D) :=
  s.mStates[t]?.bind fun tState => tState[k]?

/-- A type is registered when it has both a state and a configuration. -/
def Registered (s : SharedState D) (t : StdString) : Prop :=
  s.mStates[t]?.isSome ∧ s.mTypeConf[t]?.isSome

/-- Put `tState` in place of the state of the type `t`. -/
def setState (s : SharedState D) (t : StdString) (tState : StateMap D) : SharedState D :=
  { s with mStates := s.mStates.insert t tState }

@[simp] lemma setState_isPeer (s : SharedState D) (t : StdString) (m : StateMap D) :
    (s.setState t m).isPeer = s.isPeer := rfl

lemma setState_getElem? (s : SharedState D) (t u : StdString) (m : StateMap D) :
    (s.setState t m).mStates[u]? = if t = u then some m else s.mStates[u]? :=
  OrdMap.getElem?_insert_eq _ _ _ _

@[simp] lemma setState_getElem?_self (s : SharedState D) (t : StdString) (m : StateMap D) :
    (s.setState t m).mStates[t]? = some m := by
  rw [setState_getElem?, if_pos rfl]

/-- Putting in what is there. -/
lemma setState_self {s : SharedState D} {typeName : StdString} {tState : StateMap D}
    (h : s.mStates[typeName]? = some tState) : s.setState typeName tState = s := by
  have hstates : s.mStates.insert typeName tState = s.mStates := by
    refine Std.ExtTreeMap.ext_getElem? fun t => ?_
    rw [OrdMap.getElem?_insert_eq]
    split_ifs with ht
    · rw [← ht, h]
    · rfl
  rw [setState, hstates]

/-- The second of two puts counts. -/
lemma setState_setState (s : SharedState D) (t : StdString) (m m' : StateMap D) :
    (s.setState t m).setState t m' = s.setState t m' := by
  have hstates : (s.mStates.insert t m).insert t m' = s.mStates.insert t m' := by
    refine Std.ExtTreeMap.ext_getElem? fun u => ?_
    rw [OrdMap.getElem?_insert_eq, OrdMap.getElem?_insert_eq, OrdMap.getElem?_insert_eq]
    split_ifs <;> rfl
  rw [setState, setState, setState, hstates]

lemma setState_registered {s : SharedState D} {t u : StdString} (m : StateMap D)
    (h : s.Registered u) : (s.setState t m).Registered u := by
  refine ⟨?_, h.2⟩
  rw [setState_getElem?]
  split_ifs
  · rfl
  · exact h.1

end SharedState

end SharedStateAsync
