/-
The limit on the data of a message, and states that grow.

The receiver of a message refuses data of more than `DATA_MAX_LENGHT` bytes; the
sender never asks for the length of what it sends. A merge unites the keys of two
states, so that two states which fit a message each may make one which does not.

* `SliceJson`: how long the text of a slice is;
* `WithinLimit`: the lengths the receiver accepts;
* `merge_weight`: the weight of a merged state, from the two states;
* `length_merge`, `length_merge_le`: the length of its text;
* `receive_frame_iff`: the receiver on a frame of any length;
* `answer_withinLimit_iff`: when a server can send the state a merge left it.
-/
import SharedStateAsync.Lib.MapWeight
import SharedStateAsync.Session.Agreement
import SharedStateAsync.Wire.Receive

namespace SharedStateAsync

open Coro ByteOrder

variable {D σ : Type}

/-- The JSON text of a slice is an object with one array: its length is that of the
object without entries, of the texts of the entries, and of a comma between any
two. -/
structure SliceJson (fromStateSlice : StateMap D → StdString) where
  overhead : ℕ
  entryLength : StateKey → StateEntry D → ℕ
  two_le_overhead : 2 ≤ overhead
  length_eq : ∀ s : StateMap D,
    (fromStateSlice s).length = overhead + s.weight entryLength + (s.size - 1)

/-- The length check of `receiveNetworkMessage`. -/
def WithinLimit (data : StdString) : Prop := 2 ≤ data.length ∧ data.length ≤ DATA_MAX_LENGHT

/-! ### The text of a merged state -/

section Merge

variable [BEq D] (h : StdString) (r : Bool) (stateA stateB : StateMap D)

/-- The server's entries of keys the client does not have. -/
def onlyServer (stateA stateB : StateMap D) : StateMap D :=
  stateB.filter fun k _ => !stateA.contains k

omit [BEq D] in
lemma onlyServer_getElem? (k : StateKey) :
    (onlyServer stateA stateB)[k]? = if stateA[k]?.isSome then none else stateB[k]? := by
  rw [onlyServer, Std.ExtTreeMap.getElem?_filter', Std.ExtTreeMap.contains_eq_isSome_getElem?]
  cases stateA[k]? with
  | none => cases stateB[k]? <;> rfl
  | some e => cases stateB[k]? <;> rfl

/-- **The weight of a merged state**: the server's entries of keys the client does
not have, and for each entry of the client the copy that is kept. -/
theorem merge_weight (w : StateKey → StateEntry D → ℕ) :
    (mergeState h r stateB stateA).weight w = (onlyServer stateA stateB).weight w
      + stateA.weight fun k e => w k (resolve h r stateB[k]? e) := by
  refine OrdMap.weight_eq_add fun k => ?_
  rw [OrdMap.weightAt, OrdMap.weightAt, OrdMap.weightAt, onlyServer_getElem?]
  cases he : stateA[k]? with
  | none => simp [mergeState_getElem?_of_none he]
  | some e => simp [mergeState_getElem?_of_some he]

/-- A merged state weighs no more than the two states together. -/
lemma merge_weight_le (w : StateKey → StateEntry D → ℕ) :
    (mergeState h r stateB stateA).weight w ≤ stateA.weight w + stateB.weight w := by
  refine OrdMap.weight_le_add fun k => ?_
  rw [OrdMap.weightAt, OrdMap.weightAt, OrdMap.weightAt]
  cases hk : (mergeState h r stateB stateA)[k]? with
  | none => simp
  | some e =>
      rcases mergeState_eq_some hk with hB | hA
      · simp [hB]
      · simp [hA]

lemma merge_size : (mergeState h r stateB stateA).size
    = (onlyServer stateA stateB).size + stateA.size := by
  rw [OrdMap.size_eq_weight, merge_weight, OrdMap.size_eq_weight, OrdMap.size_eq_weight]

lemma merge_size_le : (mergeState h r stateB stateA).size ≤ stateA.size + stateB.size := by
  rw [OrdMap.size_eq_weight, OrdMap.size_eq_weight, OrdMap.size_eq_weight]
  exact merge_weight_le h r stateA stateB _

variable {fromStateSlice : StateMap D → StdString} (json : SliceJson fromStateSlice)

/-- The length of what a merge keeps, as a text. -/
def SliceJson.keptLength (json : SliceJson fromStateSlice) (h : StdString) (r : Bool)
    (stateA stateB : StateMap D) : ℕ :=
  json.overhead + (onlyServer stateA stateB).weight json.entryLength
    + (stateA.weight fun k e => json.entryLength k (resolve h r stateB[k]? e))
    + ((onlyServer stateA stateB).size + stateA.size - 1)

lemma length_merge : (fromStateSlice (mergeState h r stateB stateA)).length
    = json.keptLength h r stateA stateB := by
  rw [json.length_eq, merge_weight, merge_size, SliceJson.keptLength]
  omega

include json in
/-- The text of a merged state is no longer than those of the two states
together. -/
lemma length_merge_le : (fromStateSlice (mergeState h r stateB stateA)).length
    ≤ (fromStateSlice stateA).length + (fromStateSlice stateB).length := by
  have hweight := merge_weight_le h r stateA stateB json.entryLength
  have hsize := merge_size_le h r stateA stateB
  have hoverhead := json.two_le_overhead
  rw [json.length_eq, json.length_eq, json.length_eq]
  omega

omit [BEq D] in
include json in
lemma two_le_length (s : StateMap D) : 2 ≤ (fromStateSlice s).length := by
  have hoverhead := json.two_le_overhead
  rw [json.length_eq]
  omega

end Merge

/-! ### The receiver -/

/-- **The receiver and the length of the data.** On a frame whose name is within
bounds, and whose length fits the field for it, a receiver whose transport does
not fail accepts the message exactly when the length of the data is within the
limit. -/
theorem receive_frame_iff {env : Env SysCall Ans (Process D) σ} {s : σ} {m : Process D}
    {endian : Endian} {pSocket : ObjId} {netStats : NetworkStats} (msg : NetworkMessage)
    (hname : 1 ≤ msg.mTypeName.length ∧ msg.mTypeName.length ≤ DATA_TYPE_NAME_MAX_LENGHT)
    (hdata : msg.mData.length < 2 ^ 32) :
    let run := (receiveNetworkMessage endian pSocket netStats .storage).exec env ⟨s, m, []⟩
    Meets (FromStream msg.frame) [] run.2.trace → Meets TransportOk [] run.2.trace →
      ∃ r, run.1 = some r ∧ (0 ≤ r.1 ↔ WithinLimit msg.mData) := by
  intro run hstream hok
  obtain ⟨r, hr, inp, out, ok, hprog, -, hcases⟩ := receive_ends rfl hstream
  refine ⟨r, hr, ?_⟩
  have hshort : msg.mTypeName.length < 256 := by
    have := hname.2
    rw [DATA_TYPE_NAME_MAX_LENGHT] at this
    omega
  obtain ⟨hnameLength, hdataLength⟩ := frame_lengths msg hshort hdata []
  rw [List.append_nil] at hnameLength hdataLength
  have hannounces : Announces msg.frame ↔ WithinLimit msg.mData := by
    constructor
    · intro hann
      have hge := hann.data_ge
      have hle := hann.data_le
      rw [hdataLength] at hge hle
      exact ⟨hge, hle⟩
    · intro hlimit
      exact ⟨by omega, by omega, by rw [hdataLength]; exact hlimit.1,
        by rw [hdataLength]; exact hlimit.2⟩
  have hok' : ok := hprog.ok_iff.mp hok
  rw [← hannounces]
  rcases hcases with ⟨hret, -, hbad⟩ | ⟨hann, -, -, -, hokret, hret⟩
  · exact iff_of_false (by omega) (hbad hok')
  · obtain ⟨hret, -⟩ := hret (hokret.mp hok')
    exact iff_of_true (by omega) hann

/-! ### The answer of a server -/

/-- **When a server can send what it holds after a merge.** A server and a client
hold states of a registered type whose texts are within the limit, and the server
has received the client's. Then it sends an answer, which is the text of the state it
holds after the merge and has at least two bytes; it is within the limit exactly
when the entries that the merge keeps fit, and so in any case when the two texts
together do; and a receiver accepts the answer exactly then. -/
theorem answer_withinLimit_iff [BEq D] (P : Platform D) (json : SliceJson P.fromStateSlice)
    (env : Env SysCall Ans (Process D) σ) (st : σ) (m : Process D) (pSocket : ObjId)
    (typeName : StdString) (stateA stateB : StateMap D) (isLocal : Bool)
    (hname : 1 ≤ typeName.length ∧ typeName.length ≤ DATA_TYPE_NAME_MAX_LENGHT)
    (hreg : m.shared.Registered typeName) (hB : m.shared.mStates[typeName]? = some stateB)
    (hjson : P.toStateSlice (P.fromStateSlice stateA) = stateA)
    (hlimitA : WithinLimit (P.fromStateSlice stateA))
    (hlimitB : WithinLimit (P.fromStateSlice stateB)) :
    let server := (handleReqSyncConnection P pSocket .storage).exec env ⟨st, m, []⟩
    server.1 ≠ none →
    Meets (Alone fun addr => P.host.isLoopbackNet addr = isLocal) [] server.2.trace →
    .messageIn typeName (P.fromStateSlice stateA) ∈ marks server.2.trace →
    ∃ stateB', server.2.mem.shared.mStates[typeName]? = some stateB' ∧
      (∀ typeName' data, .messageOut typeName' data ∈ marks server.2.trace ↔
        typeName' = typeName ∧ data = P.fromStateSlice stateB') ∧
      2 ≤ (P.fromStateSlice stateB').length ∧
      (WithinLimit (P.fromStateSlice stateB') ↔
        json.keptLength P.host.authorPlaceOlder (!isLocal) stateA stateB ≤ DATA_MAX_LENGHT) ∧
      ((P.fromStateSlice stateA).length + (P.fromStateSlice stateB).length ≤ DATA_MAX_LENGHT →
        WithinLimit (P.fromStateSlice stateB')) ∧
      ∀ {σ' : Type} (env' : Env SysCall Ans (Process D) σ') (st' : σ') (m' : Process D)
        (endian : Endian) (pSocket' : ObjId) (netStats : NetworkStats),
        let run := (receiveNetworkMessage endian pSocket' netStats .storage).exec env'
          ⟨st', m', []⟩
        Meets (FromStream (NetworkMessage.mk typeName (P.fromStateSlice stateB')).frame) []
            run.2.trace →
          Meets TransportOk [] run.2.trace →
            ∃ r, run.1 = some r ∧ (0 ≤ r.1 ↔ WithinLimit (P.fromStateSlice stateB')) := by
  intro server hreturns halone hin
  obtain ⟨-, -, hdone⟩ := exec_returns (handleReqSyncConnection_done ⟨rfl, rfl⟩) halone hreturns
  rcases hdone with ⟨-, hnone⟩ | ⟨typeB, changes, request, addr, s', hlocal, hmerged, hkept⟩
  · exact absurd hreg (hnone typeName _ ((mem_newsOf rfl).mpr hin))
  have hin' := (hkept.mem_marks rfl).mp hin
  obtain ⟨rfl, rfl⟩ : typeName = typeB ∧ P.fromStateSlice stateA = request := by simpa using hin'
  obtain ⟨-, rfl⟩ := hmerged.of_registered hreg hB hjson
  rw [hlocal] at hkept
  have hstate := SharedState.setState_getElem?_self m.shared typeName (mergeState
    P.host.authorPlaceOlder (!isLocal) stateB stateA)
  rw [touch_of_some hstate, hstate, Option.getD_some] at hkept
  have htwo := two_le_length json (mergeState P.host.authorPlaceOlder (!isLocal) stateB stateA)
  have hle := length_merge_le P.host.authorPlaceOlder (!isLocal) stateA stateB json
  refine ⟨_, ?_, fun typeName' data => ?_, htwo, ?_, fun hboth => ⟨htwo, by omega⟩, ?_⟩
  · rw [show server.2.mem.shared = _ from hkept.shared_eq, hstate]
  · rw [hkept.mem_marks rfl]
    simp
  · rw [WithinLimit, length_merge P.host.authorPlaceOlder (!isLocal) stateA stateB json]
    refine and_iff_right ?_
    rwa [← length_merge P.host.authorPlaceOlder (!isLocal) stateA stateB json]
  · intro σ' env' st' m' endian pSocket' netStats run hstream hok
    refine receive_frame_iff ⟨typeName, _⟩ hname ?_ hstream hok
    have hA := hlimitA.2
    have hB' := hlimitB.2
    rw [DATA_MAX_LENGHT] at hA hB'
    change (P.fromStateSlice _).length < 2 ^ 32
    omega

/-! ### Two states that fit, and one that does not -/

/-- The text of an entry, the data being given by its own text; keys and authors
that need escapes are left aside. -/
def entryText (k : StateKey) (e : StateEntry StdString) : StdString :=
  bytes "\x7b\"key\":\"" ++ k ++ bytes "\",\"value\":\x7b\"mAuthor\":\"" ++ e.mAuthor
    ++ bytes "\",\"mData\":" ++ e.mData ++ bytes ",\"mTtl\":\x7b\"xint64\":"
    ++ bytes (toString e.mTtl) ++ bytes ",\"xstr64\":\"" ++ bytes (toString e.mTtl)
    ++ bytes "\"\x7d\x7d\x7d"

/-- The text of a slice. -/
def sliceText (s : StateMap StdString) : StdString :=
  bytes "\x7b\"stateSlice\":[" ++ List.intercalate [44] (s.toList.map fun p => entryText p.1 p.2)
    ++ bytes "]\x7d"

lemma length_intercalate_comma (l : List StdString) :
    (List.intercalate [44] l).length = (l.map List.length).sum + (l.length - 1) := by
  induction l with
  | nil => rfl
  | cons a l ih =>
      cases l with
      | nil => simp
      | cons b l =>
          rw [List.intercalate_cons_cons]
          simp only [List.length_append, List.map_cons, List.sum_cons, List.length_cons,
            List.length_nil] at ih ⊢
          omega

lemma length_sliceText (s : StateMap StdString) : (sliceText s).length
    = 17 + s.weight (fun k e => (entryText k e).length) + (s.size - 1) := by
  have hopen : (bytes "\x7b\"stateSlice\":[").length = 15 := by decide +kernel
  have hclose : (bytes "]\x7d").length = 2 := by decide +kernel
  rw [sliceText, List.length_append, List.length_append, length_intercalate_comma, hopen, hclose,
    List.map_map, List.length_map, Std.ExtTreeMap.length_toList, OrdMap.weight]
  simp only [Function.comp_def]
  omega

/-- These texts are as long as JSON is. -/
def sliceTextJson : SliceJson sliceText where
  overhead := 17
  entryLength := fun k e => (entryText k e).length
  two_le_overhead := Nat.le_add_left 2 15
  length_eq := length_sliceText

/-- A state with one entry, whose data is a string of `n` characters. -/
def bulkState (k : StateKey) (n : ℕ) : StateMap StdString :=
  (∅ : StateMap StdString).insert k ⟨bytes "a", 9, 34 :: (List.replicate n 120 ++ [34])⟩

lemma weight_bulkState (w : StateKey → StateEntry StdString → ℕ) (k : StateKey) (n : ℕ) :
    (bulkState k n).weight w = w k ⟨bytes "a", 9, 34 :: (List.replicate n 120 ++ [34])⟩ := by
  have hkeys : (bulkState k n).keySet ⊆ {k} := by
    intro k' hk'
    rw [OrdMap.mem_keySet, bulkState, OrdMap.getElem?_insert_eq] at hk'
    by_cases hkk' : k = k'
    · simp [hkk']
    · simp [hkk'] at hk'
  rw [OrdMap.weight_eq_sum w _ hkeys, Finset.sum_singleton, OrdMap.weightAt, bulkState,
    OrdMap.getElem?_insert_eq, if_pos rfl, Option.elim_some]

lemma size_bulkState (k : StateKey) (n : ℕ) : (bulkState k n).size = 1 := by
  rw [OrdMap.size_eq_weight, weight_bulkState]

lemma length_entryText (k : StateKey) (e : StateEntry StdString) :
    (entryText k e).length = (entryText k { e with mData := [] }).length + e.mData.length := by
  simp only [entryText, List.length_append, List.length_nil]
  omega

/-- The text of such an entry, for a key of one character. -/
lemma length_entryText_bulk {k : StateKey} (hk : k = bytes "x" ∨ k = bytes "y") (n : ℕ) :
    (entryText k ⟨bytes "a", 9, 34 :: (List.replicate n 120 ++ [34])⟩).length = 79 + n := by
  have hempty : (entryText k ⟨bytes "a", 9, []⟩).length = 77 := by
    rcases hk with rfl | rfl
    · decide +kernel
    · decide +kernel
  rw [length_entryText, hempty]
  simp only [List.length_cons, List.length_append, List.length_replicate, List.length_nil]
  omega

/-- A server that holds such a state of the type `A`. -/
def bulkServer (n : ℕ) : SharedState StdString where
  mStates := (∅ : OrdMap StdString (StateMap StdString)).insert (bytes "A")
    (bulkState (bytes "y") n)
  mTypeConf := (∅ : OrdMap StdString DataTypeConf).insert (bytes "A")
    ⟨bytes "A", bytes "community", 30, 300⟩

lemma length_sliceText_bulk {k : StateKey} (hk : k = bytes "x" ∨ k = bytes "y") (n : ℕ) :
    (sliceText (bulkState k n)).length = 96 + n := by
  rw [sliceTextJson.length_eq, weight_bulkState, size_bulkState]
  change 17 + (entryText k _).length + (1 - 1) = 96 + n
  rw [length_entryText_bulk hk]
  omega

/-- The keys differ, so that a merge keeps both entries. -/
lemma length_sliceText_merge_bulk (n : ℕ) :
    (sliceText (mergeState (bytes "b") true (bulkState (bytes "y") n)
      (bulkState (bytes "x") n))).length = 176 + 2 * n := by
  have hne : bytes "y" ≠ bytes "x" := by decide +kernel
  have hother : (bulkState (bytes "y") n)[bytes "x"]? = none := by
    rw [bulkState, OrdMap.getElem?_insert_eq, if_neg hne]
    rfl
  have honly : onlyServer (bulkState (bytes "x") n) (bulkState (bytes "y") n)
      = bulkState (bytes "y") n := by
    refine Std.ExtTreeMap.ext_getElem? fun k => ?_
    rw [onlyServer_getElem?]
    split_ifs with hk
    · obtain rfl : bytes "x" = k := by
        by_contra hx
        rw [bulkState, OrdMap.getElem?_insert_eq, if_neg hx] at hk
        cases hk
      exact hother.symm
    · rfl
  rw [length_merge _ _ _ _ sliceTextJson, SliceJson.keptLength, honly, weight_bulkState,
    weight_bulkState, size_bulkState, size_bulkState, hother, resolve_none]
  change 17 + (entryText _ _).length + (entryText _ _).length + (1 + 1 - 1) = 176 + 2 * n
  rw [length_entryText_bulk (Or.inl rfl), length_entryText_bulk (Or.inr rfl)]
  omega

lemma bulkServer_merge (n : ℕ) : ∃ changes,
    (bulkServer n).merge ⟨bytes "b", fun _ => false⟩ (bytes "A") (bulkState (bytes "x") n) []
      = .ok (changes, (bulkServer n).setState (bytes "A") (mergeState (bytes "b") true
          (bulkState (bytes "y") n) (bulkState (bytes "x") n))) := by
  have hreg : (bulkServer n).Registered (bytes "A") := by
    constructor
    · rw [bulkServer, OrdMap.getElem?_insert_eq, if_pos rfl]
      rfl
    · rw [bulkServer, OrdMap.getElem?_insert_eq, if_pos rfl]
      rfl
  obtain ⟨tState, hstate, hmerge⟩ := SharedState.merge_eq_ok ⟨bytes "b", fun _ => false⟩ hreg
    (bulkState (bytes "x") n) []
  rw [bulkServer, OrdMap.getElem?_insert_eq, if_pos rfl] at hstate
  obtain rfl := Option.some.inj hstate
  exact ⟨_, hmerge⟩

/-- What happens to two such states. -/
lemma bulk_outgrows {n : ℕ} (hfit : 96 + n ≤ DATA_MAX_LENGHT)
    (hout : DATA_MAX_LENGHT < 176 + 2 * n) :
    WithinLimit (sliceText (bulkState (bytes "x") n)) ∧
      WithinLimit (sliceText (bulkState (bytes "y") n)) ∧
      ∃ changes s' stateB', (bulkServer n).merge ⟨bytes "b", fun _ => false⟩ (bytes "A")
          (bulkState (bytes "x") n) [] = .ok (changes, s') ∧
        s'.mStates[bytes "A"]? = some stateB' ∧ ¬ WithinLimit (sliceText stateB') ∧
        ∃ r, ((receiveNetworkMessage .little 0 {} .storage).exec readySocket
            ⟨(NetworkMessage.mk (bytes "A") (sliceText stateB')).frame, emptyProcess, []⟩).1
          = some r ∧ r.1 < 0 := by
  have hlimit : ∀ k, k = bytes "x" ∨ k = bytes "y" → WithinLimit (sliceText (bulkState k n)) := by
    intro k hk
    rw [WithinLimit, length_sliceText_bulk hk]
    omega
  obtain ⟨changes, hmerge⟩ := bulkServer_merge n
  have hlength := length_sliceText_merge_bulk n
  generalize mergeState (bytes "b") true (bulkState (bytes "y") n) (bulkState (bytes "x") n)
    = stateB' at hmerge hlength
  have hbeyond : ¬ WithinLimit (sliceText stateB') := by
    rw [WithinLimit]
    omega
  refine ⟨hlimit _ (Or.inl rfl), hlimit _ (Or.inr rfl), changes, _, stateB', hmerge,
    SharedState.setState_getElem?_self _ _ _, hbeyond, ?_⟩
  obtain ⟨hstream, hok⟩ := readySocket_meets (receiveNetworkMessage .little 0 {} .storage)
    emptyProcess (NetworkMessage.mk (bytes "A") (sliceText stateB')).frame
  have hname : 1 ≤ (bytes "A").length ∧ (bytes "A").length ≤ DATA_TYPE_NAME_MAX_LENGHT := by
    decide +kernel
  have hfield : (sliceText stateB').length < 2 ^ 32 := by
    rw [DATA_MAX_LENGHT] at hfit
    omega
  obtain ⟨r, hr, hiff⟩ := receive_frame_iff ⟨bytes "A", sliceText stateB'⟩ hname hfield hstream hok
  exact ⟨r, hr, not_le.mp fun h => hbeyond (hiff.mp h)⟩

/-- Two states of 600000 characters each: the texts of both are within the limit,
that of the merged state is not, and a receiver rejects it. -/
theorem merge_outgrows_limit :
    WithinLimit (sliceText (bulkState (bytes "x") 600000)) ∧
      WithinLimit (sliceText (bulkState (bytes "y") 600000)) ∧
      ∃ changes s' stateB', (bulkServer 600000).merge ⟨bytes "b", fun _ => false⟩ (bytes "A")
          (bulkState (bytes "x") 600000) [] = .ok (changes, s') ∧
        s'.mStates[bytes "A"]? = some stateB' ∧ ¬ WithinLimit (sliceText stateB') ∧
        ∃ r, ((receiveNetworkMessage .little 0 {} .storage).exec readySocket
            ⟨(NetworkMessage.mk (bytes "A") (sliceText stateB')).frame, emptyProcess, []⟩).1
          = some r ∧ r.1 < 0 :=
  bulk_outgrows (by rw [DATA_MAX_LENGHT]; norm_num) (by rw [DATA_MAX_LENGHT]; norm_num)

/-! ### A state that fits -/

/-- The slice of the sample, its data as a text. -/
def textSlice : StateMap StdString :=
  (∅ : StateMap StdString).insert (bytes "k") ⟨bytes "a", 9, bytes "1"⟩

/-- A host with these texts, that reads the one of the sample. -/
def textPlatform : Platform StdString where
  host := ⟨bytes "b", fun _ => false⟩
  endian := .little
  addrCheck := ⟨fun _ => true, some⟩
  ipToString := id
  fromStateSlice := sliceText
  toStateSlice := fun text => if text = sampleText then textSlice else ∅
  cleanJsonData := fun _ => bytes "\x7b\x7d"
  loadStats := fun _ => ∅
  printStats := fun _ => none
  statFileLocking := false

/-- A server without entries, and a connection on descriptor 4. -/
def textProcess : Process StdString :=
  Process.register { shared :=
    { mStates := (∅ : OrdMap StdString (StateMap StdString)).insert (bytes "A") ∅
      mTypeConf := (∅ : OrdMap StdString DataTypeConf).insert (bytes "A")
        ⟨bytes "A", bytes "community", 30, 300⟩ } } 4

/-- A server that gets the slice of the sample can send what it holds then. -/
theorem answer_withinLimit_sample :
    let server := (handleReqSyncConnection textPlatform 0 .storage).exec readySocket
      ⟨clientStream (acknowledgement sampleText), textProcess, []⟩
    ∃ stateB', server.2.mem.shared.mStates[bytes "A"]? = some stateB' ∧
      sampleText = sliceText stateB' ∧ WithinLimit sampleText := by
  intro server
  have hserver : server.1.isSome ∧ marks server.2.trace = [.messageIn (bytes "A") sampleText,
      .merged (bytes "A") 1, .messageOut (bytes "A") sampleText, .bubbled .ioError] := by
    decide +kernel
  have htext : sliceText textSlice = sampleText := by decide +kernel
  have hlength : (sliceText textSlice).length = 95 ∧ (sliceText ∅).length = 17 := by
    decide +kernel
  have hin : .messageIn (bytes "A") (textPlatform.fromStateSlice textSlice)
      ∈ marks server.2.trace := by
    rw [hserver.2]
    simp [textPlatform, htext]
  have hout : .messageOut (bytes "A") sampleText ∈ marks server.2.trace := by
    rw [hserver.2]
    simp
  obtain ⟨stateB', hstate, hsends, -, -, hfits, -⟩ :=
    answer_withinLimit_iff textPlatform sliceTextJson readySocket
      (clientStream (acknowledgement sampleText)) textProcess 0 (bytes "A") textSlice ∅ false
      (by decide +kernel) ⟨by decide +kernel, by decide +kernel⟩ (by decide +kernel)
      (by decide +kernel) ⟨by decide +kernel, by decide +kernel⟩
      ⟨by decide +kernel, by decide +kernel⟩ (Option.isSome_iff_ne_none.mp hserver.1)
      (readySocket_alone (by rfl) _ _ _) hin
  have hdata : sampleText = sliceText stateB' := ((hsends _ _).mp hout).2
  refine ⟨stateB', hstate, hdata, hdata ▸ hfits ?_⟩
  change (sliceText textSlice).length + (sliceText ∅).length ≤ DATA_MAX_LENGHT
  rw [hlength.1, hlength.2, DATA_MAX_LENGHT]
  norm_num

end SharedStateAsync
