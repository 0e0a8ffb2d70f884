/-
The sessions of the daemon (`src/sharedstate.cc`, `app/shared_state_cli.cc`).

A session is one coroutine on one connection: handshake, a message in each
direction, a merge in between, then the statistics and the hooks.

* `Platform`: what the sessions take from the machine and from the JSON
  libraries;
* `mergeSlice`, `collectStat`, `notifyHooks`: the steps of a session besides the
  connection;
* `wp_mergeSlice`: the rule of a merge;
* `handleReqSyncConnection`, `syncWithPeer`: the session of a server and of a
  client;
* `acceptReqSyncConnectionsLoop`: the server's loop, which handles one connection
  after the other.
-/
import SharedStateAsync.Io.Command
import SharedStateAsync.Wire.Frame

namespace SharedStateAsync

open Coro ByteOrder

/-- What the sessions take from the machine and from libretroshare: the host and
its byte order, addresses, and the JSON of slices, of the data hooks are given
and of the statistics file. -/
structure Platform (D : Type) where
  host : Host
  endian : Endian
  addrCheck : AddrCheck
  ipToString : SockAddr → StdString
  fromStateSlice : StateMap D → StdString
  toStateSlice : StdString → StateMap D
  /-- The data of all keys as one object. -/
  cleanJsonData : StateMap D → StdString
  loadStats : StdString → OrdMap StdString (List NetworkStats)
  /-- The text, or nothing when serializing failed. -/
  printStats : OrdMap StdString (List NetworkStats) → Option StdString
  /-- `SHARED_STATE_STAT_FILE_LOCKING` is defined. -/
  statFileLocking : Bool

variable {D : Type}

/-! ### Statistics -/

def SHARED_STATE_NET_STAT_FILE_PATH : StdString := bytes "/tmp/shared-state/network_statistics.json"

def SHARED_STATE_NET_STAT_MAX_RECORDS : ℕ := 10

/-- Thirty minutes, in nanoseconds. -/
def SHARED_STATE_NET_STAT_MAX_AGE : ℤ := 30 * 60 * 10 ^ 9

/-- `mSkip`. The difference of the unsigned sizes wraps, and is narrowed to `int`. -/
def mSkip (size : ℕ) : ℕ :=
  let difference : ℤ := ((size : ℤ) - SHARED_STATE_NET_STAT_MAX_RECORDS) % 2 ^ 64
  (max (difference.bmod (2 ^ 32)) 0).toNat

/-- Drop records from the front, first the excessive ones, then the old ones. -/
def pruneStats (tNow : ℤ) (peerStats : List NetworkStats) : List NetworkStats :=
  (peerStats.drop (mSkip peerStats.length)).dropWhile
    fun stat => tNow - stat.mTS > SHARED_STATE_NET_STAT_MAX_AGE

/-- The part of `collectStat` between locking and unlocking: read the file, add
the record, prune, and write the file. A file that does not open for writing is
reported, but not by the returned value. -/
def updateStats (P : Platform D) (tPeerStr : StdString) (netStat : NetworkStats)
    (errbub : ErrBub) : Io D Unit := do
  let stats :=
    match ← sysCall (.readFile SHARED_STATE_NET_STAT_FILE_PATH) with
    | some text => P.loadStats text
    | none => ∅
  let stats := stats.insert tPeerStr (stats[tPeerStr]?.getD [] ++ [netStat])
  let stats := stats.map fun _ peerStats => pruneStats netStat.mTS peerStats
  let content := (P.printStats stats).elim [] (· ++ [10])
  let isOpen ← sysCall (.writeFile SHARED_STATE_NET_STAT_FILE_PATH content)
  if isOpen then return ()
  rs_error_bubble_or_exit .ioError errbub

/-- `SharedState::collectStat`. -/
def collectStat (P : Platform D) (netStat : NetworkStats) (errbub : ErrBub) : Io D Bool := do
  let mPeer := (P.addrCheck.ipv4ToIpv6 netStat.mPeer).getD netStat.mPeer
  let tPeerStr := P.ipToString mPeer
  let tNow ← sysCall .steadyClock
  let netStat := { netStat with mPeer := mPeer, mTS := tNow }
  if !P.statFileLocking then
    updateStats P tPeerStr netStat errbub
    return true
  match ← sysCall (.openFile SHARED_STATE_NET_STAT_FILE_PATH) with
  | .error e =>
      rs_error_bubble_or_exit (.errno e) errbub
      return false
  | .ok openRet =>
      match ← sysCall (.flock openRet true) with
      | .error e =>
          rs_error_bubble_or_exit (.errno e) errbub
          return false
      | .ok _ =>
          updateStats P tPeerStr netStat errbub
          match ← sysCall (.flock openRet false) with
          | .error e =>
              rs_error_bubble_or_exit (.errno e) errbub
              return false
          | .ok _ =>
              match ← sysCall (.close openRet) with
              | .error e =>
                  rs_error_bubble_or_exit (.errno e) errbub
                  return false
              | .ok _ => return true

/-- The calls on the statistics file are among `C`, and the errors that are
stored among `E`. -/
structure KeepsStats (C : SysCall → Prop) (E : Mark → Prop) : Prop where
  steadyClock : C .steadyClock
  openFile : ∀ path, C (.openFile path)
  flock : ∀ fd exclusive, C (.flock fd exclusive)
  close : ∀ fd, C (.close fd)
  readFile : ∀ path, C (.readFile path)
  writeFile : ∀ path content, C (.writeFile path content)
  bubbled : ∀ c, E (.bubbled c)

section Uses

variable {C : SysCall → Prop} {E : Mark → Prop} {W : Process D → Process D → Prop} {Z : Prop}

lemma uses_updateStats {errbub : ErrBub} (hread : ∀ path, C (.readFile path))
    (hwrite : ∀ path content, C (.writeFile path content)) (hbubbled : ∀ c, E (.bubbled c))
    (P : Platform D) (tPeerStr : StdString) (netStat : NetworkStats)
    (hz : errbub = .null → Z := by nofun) :
    (updateStats P tPeerStr netStat errbub).Uses C E W Z := by
  refine uses_bind (uses_call (hread _)) fun text => ?_
  refine uses_bind (uses_call (hwrite _ _)) fun isOpen => ?_
  split_ifs
  · exact uses_pure ()
  · exact uses_rs_error_bubble_or_exit hbubbled hz

lemma uses_collectStat {errbub : ErrBub} (h : KeepsStats C E) (P : Platform D)
    (netStat : NetworkStats) (hz : errbub = .null → Z := by nofun) :
    (collectStat P netStat errbub).Uses C E W Z := by
  have hfail : ∀ e, (do
      rs_error_bubble_or_exit (.errno e) errbub
      pure false : Io D Bool).Uses C E W Z :=
    fun e => uses_bind (uses_rs_error_bubble_or_exit h.bubbled hz) fun _ => uses_pure false
  have hupdate : ∀ tPeerStr netStat, (updateStats P tPeerStr netStat errbub).Uses C E W Z :=
    fun tPeerStr netStat =>
      uses_updateStats h.readFile h.writeFile h.bubbled P tPeerStr netStat hz
  refine uses_bind (uses_call h.steadyClock) fun tNow => ?_
  split_ifs
  · exact uses_bind (hupdate _ _) fun _ => uses_pure true
  refine uses_bind (uses_call (h.openFile _)) fun openRet => ?_
  cases openRet with
  | error e => exact hfail e
  | ok fd =>
      refine uses_bind (uses_call (h.flock fd true)) fun locked => ?_
      cases locked with
      | error e => exact hfail e
      | ok _ =>
          refine uses_bind (hupdate _ _) fun _ => ?_
          refine uses_bind (uses_call (h.flock fd false)) fun unlocked => ?_
          cases unlocked with
          | error e => exact hfail e
          | ok _ =>
              refine uses_bind (uses_call (h.close fd)) fun closed => ?_
              cases closed with
              | error e => exact hfail e
              | ok _ => exact uses_pure true

end Uses

/-! ### Hooks -/

def SHARED_STATE_HOOKS_DIR : StdString := bytes "/usr/share/shared-state/hooks/"

/-- Run the hooks of a directory one after the other. Entries whose status cannot
be read or that are not executable are skipped, and so is a hook that cannot be
started. -/
def runHooks (tDataStr : StdString) : List (StdString × Option Bool) → Io D Unit
  | [] => pure ()
  | (hookPath, some true) :: entries => do
      match ← execute hookPath .storage with
      | none => runHooks tDataStr entries
      | some hookCmd =>
          let _ ← writeStdIn hookCmd tDataStr .storage
          let _ ← closeStdIn hookCmd .storage
          let _ ← waitTermination hookCmd .storage
          runHooks tDataStr entries
  | _ :: entries => runHooks tDataStr entries

/-- `SharedState::notifyHooks`. When the directory cannot be listed the iterator
throws, and the task gives what its result happens to hold. -/
def notifyHooks (P : Platform D) (typeName : StdString) (errbub : ErrBub) : Io D Bool := do
  event (.notifyHooks typeName)
  let m ← memory
  match m.shared.mStates[typeName]? with
  | none =>
      rs_error_bubble_or_exit .unkownDataType errbub
      return false
  | some tState =>
      let hooksDirStr := SHARED_STATE_HOOKS_DIR ++ typeName ++ bytes "/"
      if !(← sysCall (.isDirectory hooksDirStr)) then return false
      let tDataStr := P.cleanJsonData tState
      match ← sysCall (.directory hooksDirStr) with
      | none =>
          let result ← sysCall .indeterminate
          return result != 0
      | some entries =>
          runHooks tDataStr entries
          return true

section Uses

variable {C : SysCall → Prop} {E : Mark → Prop} {W : Process D → Process D → Prop} {Z : Prop}

lemma uses_runHooks (h : RunsCommands C E W Z) (tDataStr : StdString)
    (entries : List (StdString × Option Bool)) :
    (runHooks tDataStr entries : Io D Unit).Uses C E W Z := by
  induction entries with
  | nil => exact uses_pure ()
  | cons entry entries ih =>
      obtain ⟨hookPath, executable⟩ := entry
      match executable with
      | none => exact ih
      | some false => exact ih
      | some true =>
          refine uses_bind (uses_execute h hookPath) fun hookCmd => ?_
          cases hookCmd with
          | none => exact ih
          | some hookCmd =>
              exact uses_bind (uses_writeStdIn h _ _) fun _ =>
                uses_bind (uses_closePipe h _ hookCmd _) fun _ =>
                uses_bind (uses_waitTermination h _) fun _ => ih

/-- After its mark, `notifyHooks` looks at a directory and runs commands. -/
lemma notifyHooks_eq (h : RunsCommands C E W Z)
    (hisDirectory : ∀ path, C (.isDirectory path)) (hdirectory : ∀ path, C (.directory path))
    (hindeterminate : C .indeterminate) (P : Platform D) (typeName : StdString)
    (errbub : ErrBub) :
    ∃ body : Io D Bool, body.Uses C E W Z ∧
      notifyHooks P typeName errbub = event (.notifyHooks typeName) >>= fun _ => body := by
  refine ⟨_, uses_bind uses_memory fun m => ?_, rfl⟩
  cases m.shared.mStates[typeName]? with
  | none => exact uses_bind (h.uses_bubble _ _) fun _ => uses_pure false
  | some tState =>
      refine uses_bind (uses_call (hisDirectory _)) fun isDirectory => ?_
      split_ifs
      · exact uses_pure false
      refine uses_bind (uses_call (hdirectory _)) fun entries => ?_
      cases entries with
      | none => exact uses_bind (uses_call hindeterminate) fun _ => uses_pure _
      | some entries => exact uses_bind (uses_runHooks h _ entries) fun _ => uses_pure true

end Uses

/-! ### Merge -/

variable [BEq D]

/-- `SharedState::merge` as a coroutine. An exception leaves the result what it
happens to hold. -/
def mergeSlice (P : Platform D) (dataTypeName : StdString) (stateSlice : StateMap D)
    (peerAddr : SockAddr) (errbub : ErrBub) : Io D ℤ := do
  let m ← memory
  match m.shared.merge P.host dataTypeName stateSlice peerAddr with
  | .ok (changes, shared) =>
      setMemory { m with shared := shared }
      event (.merged dataTypeName changes)
      return changes
  | .error (.bubble c) =>
      rs_error_bubble_or_exit c errbub
      return -1
  | .error .exception =>
      let changes ← sysCall .indeterminate
      event (.merged dataTypeName changes)
      return changes

/-- **The rule of a merge**: it leaves the merged store, reports an error, or throws, and
then its result can be anything. -/
theorem wp_mergeSlice {R : Rely SysCall Ans (Process D) Mark} {X : Process D → Trace D → Prop}
    {Q : ℤ → Process D → Trace D → Prop} {P : Platform D} {dataTypeName : StdString}
    {stateSlice : StateMap D} {peerAddr : SockAddr} {errbub : ErrBub} {m : Process D} {t : Trace D}
    (hmerged : ∀ changes shared,
      m.shared.merge P.host dataTypeName stateSlice peerAddr = .ok (changes, shared) →
      Q changes { m with shared := shared } (t ++ [.marked (.merged dataTypeName changes)]))
    (hexit : ∀ c, m.shared.merge P.host dataTypeName stateSlice peerAddr = .error (.bubble c) →
      errbub = .null → X m t)
    (hbubbled : ∀ c, m.shared.merge P.host dataTypeName stateSlice peerAddr = .error (.bubble c) →
      Q (-1) m (t ++ [.marked (.bubbled c)]))
    (hthrown : m.shared.merge P.host dataTypeName stateSlice peerAddr = .error .exception →
      ∀ changes, Q changes m
        (t ++ [.called m .indeterminate changes] ++ [.marked (.merged dataTypeName changes)])) :
    wp R X (mergeSlice P dataTypeName stateSlice peerAddr errbub) Q m t := by
  rw [mergeSlice, wp_bind, wp_memory]
  cases hmerge : m.shared.merge P.host dataTypeName stateSlice peerAddr with
  | ok result => exact hmerged result.1 result.2 hmerge
  | error e =>
      cases e with
      | exception => exact fun changes _ => hthrown hmerge changes
      | bubble c =>
          cases errbub with
          | null => exact hexit c hmerge rfl
          | storage => exact hbubbled c hmerge

/-! ### Sessions -/

/-- The process may end at any time. -/
def AnyExit (_ : Process D) (_ : Trace D) : Prop := True

/-- The object after `mStates[typeName]`, which makes an empty state where there is
none. -/
def SharedState.touch (s : SharedState D) (typeName : StdString) : SharedState D :=
  { s with mStates := s.mStates.insertIfNew typeName ∅ }

omit [BEq D] in
/-- Looking up a state that is there changes nothing. -/
lemma touch_of_some {s : SharedState D} {typeName : StdString} {tState : StateMap D}
    (h : s.mStates[typeName]? = some tState) :
    s.touch typeName = s := by
  have hstates : s.mStates.insertIfNew typeName ∅ = s.mStates := by
    refine Std.ExtTreeMap.ext_getElem? fun t => ?_
    rw [OrdMap.getElem?_insertIfNew_eq, h, Option.getD_some]
    split_ifs with ht
    · rw [← ht, h]
    · rfl
  rw [SharedState.touch, hstates]

/-- `mStates[typeName]`. -/
def stateOf (typeName : StdString) : Io D (StateMap D) := do
  let m ← memory
  setMemory { m with shared := m.shared.touch typeName }
  return (m.shared.touch typeName).mStates[typeName]?.getD ∅

omit [BEq D] in
@[simp] lemma wp_stateOf {R : Rely SysCall Ans (Process D) Mark} {X : Process D → Trace D → Prop}
    (typeName : StdString) {Q : StateMap D → Process D → Trace D → Prop} {m : Process D}
    {t : Trace D} :
    wp R X (stateOf typeName) Q m t ↔ Q ((m.shared.touch typeName).mStates[typeName]?.getD ∅)
      { m with shared := m.shared.touch typeName } t :=
  Iff.rfl

/-- `SharedState::handleReqSyncConnection`. Asking for the peer's address is not
given an error pointer, and neither is closing the socket. -/
def handleReqSyncConnection (P : Platform D) (pSocket : ObjId) (errbub : ErrBub) :
    Io D Bool := do
  let mPeer ← getPeerAddr pSocket
  let netStats : NetworkStats := { mPeer := mPeer.getD [] }
  let (handShaken, netStats) ← serverHandShake P.endian pSocket netStats errbub
  if !handShaken then
    let _ ← closeAFD (some pSocket)
    return false
  let (totalReceived, networkMessage, netStats) ←
    receiveNetworkMessage P.endian pSocket netStats .storage
  if totalReceived < 0 then
    let _ ← closeAFD (some pSocket)
    return false
  event (.messageIn networkMessage.mTypeName networkMessage.mData)
  let _ ← sysCall .steadyClock
  let peerState := P.toStateSlice networkMessage.mData
  let changes ← mergeSlice P networkMessage.mTypeName peerState netStats.mPeer errbub
  if changes = -1 then
    let _ ← closeAFD (some pSocket)
    return false
  let _ ← sysCall .steadyClock
  let tState ← stateOf networkMessage.mTypeName
  let networkMessage := { networkMessage with mData := P.fromStateSlice tState }
  event (.messageOut networkMessage.mTypeName networkMessage.mData)
  let (totalSent, netStats) ←
    sendNetworkMessage P.endian pSocket networkMessage netStats errbub
  if totalSent = -1 then
    let _ ← closeAFD (some pSocket)
    return false
  let _ ← closeAFD (some pSocket)
  let collected ← collectStat P netStats errbub
  if !collected then return false
  let m ← memory
  if m.shared.isPeer ∧ changes > 0 then notifyHooks P networkMessage.mTypeName errbub
  else return true

/-- The state of a type through the reference `syncWithPeer` took before it
connected. -/
def referencedState (dataTypeName : StdString) : Io D (StateMap D) := do
  let m ← memory
  match m.shared.mStates[dataTypeName]? with
  | some tState => return tState
  | none =>
      event (.danglingState dataTypeName)
      return ∅

omit [BEq D] in
lemma uses_referencedState {C : SysCall → Prop} {E : Mark → Prop}
    {W : Process D → Process D → Prop} {Z : Prop} {dataTypeName : StdString}
    (hE : E (.danglingState dataTypeName)) :
    (referencedState dataTypeName : Io D _).Uses C E W Z := by
  refine uses_bind uses_memory fun m => ?_
  cases m.shared.mStates[dataTypeName]? with
  | none => exact uses_bind (uses_event hE) fun _ => uses_pure _
  | some tState => exact uses_pure tState

/-- `SharedState::syncWithPeer`. -/
def syncWithPeer (P : Platform D) (dataTypeName : StdString) (peerAddr : SockAddr)
    (errbub : ErrBub) : Io D Bool := do
  let m ← memory
  if !m.shared.mStates.contains dataTypeName then
    rs_error_bubble_or_exit .unkownDataType errbub
    return false
  match ← connect P.addrCheck peerAddr errbub with
  | none => return false
  | some tSocket =>
      let netStats : NetworkStats := { mPeer := peerAddr }
      let (handShaken, netStats) ← clientHandShake P.endian tSocket netStats errbub
      if !handShaken then
        let _ ← closeAFD (some tSocket)
        return false
      let tState ← referencedState dataTypeName
      let netMessage : NetworkMessage := ⟨dataTypeName, P.fromStateSlice tState⟩
      event (.messageOut netMessage.mTypeName netMessage.mData)
      let (totalSent, netStats) ← sendNetworkMessage P.endian tSocket netMessage netStats errbub
      if totalSent = -1 then
        let _ ← closeAFD (some tSocket)
        return false
      let (totalReceived, netMessage, netStats) ←
        receiveNetworkMessage P.endian tSocket netStats errbub
      if totalReceived = -1 then
        let _ ← closeAFD (some tSocket)
        return false
      event (.messageIn netMessage.mTypeName netMessage.mData)
      let _ ← sysCall .steadyClock
      let receivedState := P.toStateSlice netMessage.mData
      let changes ← mergeSlice P netMessage.mTypeName receivedState peerAddr errbub
      if changes = -1 then
        let _ ← closeAFD (some tSocket)
        return false
      let _ ← sysCall .steadyClock
      let _ ← closeAFD (some tSocket)
      let collected ← collectStat P netStats errbub
      if !collected then return false
      let m ← memory
      if m.shared.isPeer ∧ changes > 0 then notifyHooks P netMessage.mTypeName errbub
      else return true

/-- `SharedStateCli::acceptReqSyncConnectionsLoop`, for the first `n` connections.
Every session has an error variable of its own. -/
def acceptReqSyncConnectionsLoop (P : Platform D) (listener : ObjId) : ℕ → Io D Unit
  | 0 => pure ()
  | n + 1 => do
      match ← accept listener with
      -- the pointer would be dereferenced; `accept` gives none only after an exit
      | none => .exit
      | some socket =>
          let _ ← handleReqSyncConnection P socket .storage
          acceptReqSyncConnectionsLoop P listener n

/-! ### A sample to run sessions on -/

/-- A slice with one entry. -/
def sampleSlice : StateMap ℕ := (∅ : StateMap ℕ).insert (bytes "k") ⟨bytes "a", 9, 1⟩

/-- The message text of that slice. -/
def sampleText : StdString :=
  bytes ("\x7b\"stateSlice\":[\x7b\"key\":\"k\",\"value\":\x7b\"mAuthor\":\"a\"," ++
    "\"mData\":1,\"mTtl\":\x7b\"xint64\":9,\"xstr64\":\"9\"\x7d\x7d\x7d]\x7d")

/-- The message text of an empty slice. -/
def emptyText : StdString := bytes "\x7b\"stateSlice\":[]\x7d"

/-- A host that knows the texts of the two slices. -/
def samplePlatform (authorPlaceOlder : StdString) : Platform ℕ where
  host := ⟨authorPlaceOlder, fun _ => false⟩
  endian := .little
  addrCheck := ⟨fun _ => true, some⟩
  ipToString := id
  fromStateSlice := fun s => if s.isEmpty then emptyText else sampleText
  toStateSlice := fun text => if text = sampleText then sampleSlice else ∅
  cleanJsonData := fun s => if s.isEmpty then bytes "\x7b\x7d" else bytes "\x7b\"k\":1\x7d"
  loadStats := fun _ => ∅
  printStats := fun _ => none
  statFileLocking := false

/-- A peer with one type, and a connection on descriptor 4. -/
def sampleProcess (tState : StateMap ℕ) : Process ℕ :=
  Process.register { shared :=
    { mStates := (∅ : OrdMap StdString (StateMap ℕ)).insert (bytes "A") tState
      mTypeConf := (∅ : OrdMap StdString DataTypeConf).insert (bytes "A")
        ⟨bytes "A", bytes "community", 30, 300⟩
      isPeer := true } } 4

/-- The acknowledgement of a message with the given data. -/
def acknowledgement (data : StdString) : StdString :=
  toBytes (NetworkMessage.mk (bytes "A") data).frame.length

/-- What a client sends: its side of the handshake, the slice, and the
acknowledgement of the answer, if it waits for it. -/
def clientStream (ack : StdString) : StdString :=
  toBytes WIRE_PROTO_VERSION ++ [1, 0, 0, 0] ++ (NetworkMessage.mk (bytes "A") sampleText).frame
    ++ ack

/-- What a server sends: its side of the handshake, the acknowledgement of the
request, and the slice. -/
def serverStream (request : StdString) : StdString :=
  toBytes WIRE_PROTO_VERSION ++ acknowledgement request
    ++ (NetworkMessage.mk (bytes "A") sampleText).frame

end SharedStateAsync
