/-
The registered types and their file (`src/sharedstate.cc`,
`loadRegisteredTypes` and `registerDataType`).

The file holds the configurations of all registered types as one JSON document.
Reading and printing JSON is rapidjson's and libretroshare's work and a
parameter here; what the code does with the outcome is not.

* `ConfJson`: reading and printing the document;
* `SharedState.loadRegisteredTypes`: the reload, which also gives every
  registered type a state and drops the states of all others;
* `reloaded_getElem?`: the states after a reload that gets past the parser;
* `FailsSafely`, `failsSafely_iff`: what a reload that fails leaves;
* `SharedState.registerDataType`: the text a `register` command writes;
* `registerDataType_ok`: what it leaves when it succeeds.
-/
import SharedStateAsync.Store.Merge

namespace SharedStateAsync

def DATA_TYPE_NAME_MAX_LENGHT : ℕ := 128

/-- JSON of the configuration file. `load` is the parse of a text followed by
`RS_SERIAL_PROCESS` into an empty map: nothing when the parse fails, otherwise
the map that was filled and `ctx.mOk`. `print` is the way back, with the
`ctx.mOk` of the serializer. -/
structure ConfJson where
  load : StdString → Option (OrdMap StdString DataTypeConf × Bool)
  print : OrdMap StdString DataTypeConf → StdString × Bool

variable {D : Type}

/-! ### Reload -/

/-- Give every type in `mTypeConf` a state, the one it has if it has one. -/
def createStates (mTypeConf : OrdMap StdString DataTypeConf)
    (mStates : OrdMap StdString (StateMap D)) : OrdMap StdString (StateMap D) :=
  mTypeConf.foldl (fun states typeName _ => states.insertIfNew typeName ∅) mStates

/-- Remove the states of the types that are not in `mTypeConf`. -/
def removeStates (mTypeConf : OrdMap StdString DataTypeConf)
    (mStates : OrdMap StdString (StateMap D)) : OrdMap StdString (StateMap D) :=
  mStates.filter fun typeName _ => mTypeConf.contains typeName

/-- The object once a reload has read `mTypeConf`. -/
def SharedState.reloaded (s : SharedState D) (mTypeConf : OrdMap StdString DataTypeConf) :
    SharedState D :=
  { s with
    mTypeConf := mTypeConf
    mStates := removeStates mTypeConf (createStates mTypeConf s.mStates) }

/-- `SharedState::loadRegisteredTypes` on a file with the given content, or no
file. `errno` is what that variable holds when an error is reported; after a
failed parse it is left over from some earlier call. -/
def SharedState.loadRegisteredTypes (json : ConfJson) (errno : Errno)
    (file : Option StdString) (s : SharedState D) : Except Raised (Bool × SharedState D) :=
  match file with
  | none => .error (.bubble (.errno errno))
  | some text =>
      match json.load text with
      | none => .error (.bubble (.errno errno))
      | some (mTypeConf, mOk) => .ok (mOk, s.reloaded mTypeConf)

lemma createStates_getElem? (mTypeConf : OrdMap StdString DataTypeConf)
    (mStates : OrdMap StdString (StateMap D)) (t : StdString) :
    (createStates mTypeConf mStates)[t]?
      = mTypeConf[t]?.elim mStates[t]? fun _ => some (mStates[t]?.getD ∅) := by
  have hkeyed : OrdMap.KeyedStep
      (fun (states : OrdMap StdString (StateMap D)) typeName (_ : DataTypeConf) =>
        states.insertIfNew typeName ∅)
      (fun o _ => some (o.getD ∅)) :=
    fun m k _ a => OrdMap.getElem?_insertIfNew_eq m k a ∅
  exact hkeyed.foldl_getElem? mTypeConf mStates t

/-- **The states after a reload**: every registered type has the state it had,
or an empty one, and no other type has a state. -/
theorem reloaded_getElem? (s : SharedState D) (mTypeConf : OrdMap StdString DataTypeConf)
    (t : StdString) :
    (s.reloaded mTypeConf).mStates[t]? = mTypeConf[t]?.map fun _ => s.mStates[t]?.getD ∅ := by
  rw [SharedState.reloaded, removeStates, Std.ExtTreeMap.getElem?_filter',
    createStates_getElem?, Std.ExtTreeMap.contains_eq_isSome_getElem?]
  cases mTypeConf[t]? with
  | none =>
      cases s.mStates[t]? with
      | none => rfl
      | some state => rfl
  | some conf => rfl

/-- A reload keeps the entries of every type that is registered afterwards. -/
lemma reloaded_keeps {s : SharedState D} {mTypeConf : OrdMap StdString DataTypeConf}
    {t : StdString} {entries : StateMap D} (ht : mTypeConf[t]?.isSome)
    (hs : s.mStates[t]? = some entries) : (s.reloaded mTypeConf).mStates[t]? = some entries := by
  obtain ⟨conf, hconf⟩ := Option.isSome_iff_exists.mp ht
  rw [reloaded_getElem?, hconf, hs, Option.map_some, Option.getD_some]

lemma loadRegisteredTypes_of_load {json : ConfJson} {text : StdString}
    {mTypeConf : OrdMap StdString DataTypeConf} {mOk : Bool}
    (hload : json.load text = some (mTypeConf, mOk)) (errno : Errno) (s : SharedState D) :
    s.loadRegisteredTypes json errno (some text) = .ok (mOk, s.reloaded mTypeConf) := by
  rw [SharedState.loadRegisteredTypes]
  simp only [hload]

lemma loadRegisteredTypes_of_parseError {json : ConfJson} {text : StdString}
    (hload : json.load text = none) (errno : Errno) (s : SharedState D) :
    s.loadRegisteredTypes json errno (some text) = .error (.bubble (.errno errno)) := by
  rw [SharedState.loadRegisteredTypes]
  simp only [hload]

/-- A reload that got past the parser. -/
lemma loadRegisteredTypes_ok {json : ConfJson} {errno : Errno} {file : Option StdString}
    {s s' : SharedState D} {mOk : Bool}
    (h : s.loadRegisteredTypes json errno file = .ok (mOk, s')) :
    ∃ text mTypeConf, file = some text ∧ json.load text = some (mTypeConf, mOk) ∧
      s' = s.reloaded mTypeConf := by
  cases file with
  | none => cases h
  | some text =>
      cases hload : json.load text with
      | none =>
          rw [loadRegisteredTypes_of_parseError hload] at h
          cases h
      | some loaded =>
          rw [loadRegisteredTypes_of_load hload] at h
          obtain ⟨rfl, rfl⟩ := Prod.mk.inj (Except.ok.inj h)
          exact ⟨text, loaded.1, rfl, hload, rfl⟩

/-- `loadRegisteredTypes` with an error pointer: the returned value, and the object
afterwards. -/
def SharedState.tryLoad (json : ConfJson) (errno : Errno) (file : Option StdString)
    (s : SharedState D) : Bool × SharedState D :=
  match s.loadRegisteredTypes json errno file with
  | .ok (mOk, s') => (mOk, s')
  | .error _ => (false, s)

/-- What an attempt to read the file leaves. -/
lemma tryLoad_cases (json : ConfJson) (errno : Errno) (file : Option StdString)
    (s : SharedState D) :
    (s.tryLoad json errno file).2 = s ∨ ∃ text mTypeConf mOk, file = some text ∧
      json.load text = some (mTypeConf, mOk) ∧
      (s.tryLoad json errno file).2 = s.reloaded mTypeConf := by
  rw [SharedState.tryLoad]
  cases hload : s.loadRegisteredTypes json errno file with
  | error e => exact Or.inl rfl
  | ok result =>
      obtain ⟨text, mTypeConf, hfile, htext, hs'⟩ := loadRegisteredTypes_ok hload
      exact Or.inr ⟨text, mTypeConf, result.1, hfile, htext, hs'⟩

lemma tryLoad_of_load {json : ConfJson} {text : StdString}
    {mTypeConf : OrdMap StdString DataTypeConf} {mOk : Bool}
    (hload : json.load text = some (mTypeConf, mOk)) (errno : Errno) (s : SharedState D) :
    s.tryLoad json errno (some text) = (mOk, s.reloaded mTypeConf) := by
  rw [SharedState.tryLoad, loadRegisteredTypes_of_load hload]

lemma tryLoad_of_parseError {json : ConfJson} {text : StdString}
    (hload : json.load text = none) (errno : Errno) (s : SharedState D) :
    s.tryLoad json errno (some text) = (false, s) := by
  rw [SharedState.tryLoad, loadRegisteredTypes_of_parseError hload]

/-! ### Reloads that fail -/

/-- If the reload returns false, the types and their states are what they were. -/
def FailsSafely (json : ConfJson) (errno : Errno) (file : Option StdString) (s : SharedState D) :
    Prop :=
  (s.tryLoad json errno file).1 = false →
    (s.tryLoad json errno file).2.mTypeConf = s.mTypeConf ∧
      (s.tryLoad json errno file).2.mStates = s.mStates

/-- A reload leaves the states alone if the types it reads are those that have one. -/
lemma reloaded_mStates_eq_iff (s : SharedState D) (mTypeConf : OrdMap StdString DataTypeConf) :
    (s.reloaded mTypeConf).mStates = s.mStates ↔
      ∀ t : StdString, s.mStates[t]?.isSome ↔ mTypeConf[t]?.isSome := by
  constructor
  · intro hsame t
    rw [← hsame, reloaded_getElem?, Option.isSome_map]
  · intro htypes
    refine Std.ExtTreeMap.ext_getElem? fun t => ?_
    have ht := htypes t
    rw [reloaded_getElem?]
    cases hconf : mTypeConf[t]? with
    | none =>
        rw [hconf] at ht
        exact (Option.not_isSome_iff_eq_none.mp fun hsome => by cases ht.mp hsome).symm
    | some conf =>
        rw [hconf] at ht
        obtain ⟨tState, hstate⟩ := Option.isSome_iff_exists.mp (ht.mpr rfl)
        rw [hstate]
        rfl

/-- **When a failed reload changes nothing**: not when the text parses and the types cannot be
read from it, unless what was read of them is what there was. -/
theorem failsSafely_iff (json : ConfJson) (errno : Errno) (file : Option StdString)
    (s : SharedState D) :
    FailsSafely json errno file s ↔
      ∀ text mTypeConf, file = some text → json.load text = some (mTypeConf, false) →
        mTypeConf = s.mTypeConf ∧ ∀ t : StdString, s.mStates[t]?.isSome ↔ mTypeConf[t]?.isSome := by
  cases file with
  | none => exact iff_of_true (fun _ => ⟨rfl, rfl⟩) fun text _ hfile => by cases hfile
  | some text =>
      rw [FailsSafely]
      cases hload : json.load text with
      | none =>
          rw [tryLoad_of_parseError hload]
          refine iff_of_true (fun _ => ⟨rfl, rfl⟩) fun text' _ htext hload' => ?_
          obtain rfl := Option.some.inj htext
          cases hload.symm.trans hload'
      | some loaded =>
          obtain ⟨mTypeConf, mOk⟩ := loaded
          rw [tryLoad_of_load hload]
          constructor
          · intro hsafe text' mTypeConf' htext hload'
            obtain rfl := Option.some.inj htext
            obtain ⟨rfl, rfl⟩ := Prod.mk.inj (Option.some.inj (hload.symm.trans hload'))
            obtain ⟨hconf, hstates⟩ := hsafe rfl
            exact ⟨hconf, (reloaded_mStates_eq_iff _ _).mp hstates⟩
          · rintro hall rfl
            obtain ⟨hconf, htypes⟩ := hall text mTypeConf rfl hload
            exact ⟨hconf, (reloaded_mStates_eq_iff _ _).mpr htypes⟩

/-- An object without members, which no member can be read from. -/
def bareDocument : StdString := bytes "\x7b\x7d"

/-- The JSON of that document. -/
def bareJson : ConfJson where
  load := fun text => if text = bareDocument then some (∅, false) else none
  print := fun _ => (bareDocument, true)

/-- A daemon with one type and one entry. -/
def bareDaemon : SharedState ℕ where
  mStates := (∅ : OrdMap StdString (StateMap ℕ)).insert (bytes "t")
    ((∅ : StateMap ℕ).insert (bytes "k") ⟨bytes "a", 9, 1⟩)
  mTypeConf := (∅ : OrdMap StdString DataTypeConf).insert (bytes "t")
    ⟨bytes "t", bytes "c", 30, 300⟩
  isPeer := true

/-- The reload of an object without members fails, and the type is gone with its
entries. -/
theorem not_failsSafely_bareDocument :
    ¬ FailsSafely bareJson (.other 0) (some bareDocument) bareDaemon := by
  have hload : bareJson.load bareDocument = some (∅, false) := if_pos rfl
  intro hsafe
  rw [FailsSafely, tryLoad_of_load hload] at hsafe
  have hconf : (∅ : OrdMap StdString DataTypeConf) = bareDaemon.mTypeConf := (hsafe rfl).1
  have hkey := congrArg (·[bytes "t"]?) hconf
  rw [bareDaemon] at hkey
  simp at hkey

/-! ### Register -/

/-- The configuration directory as a `register` command meets it: the content
of the file, what creating the directory reports, and whether the file opens
for writing. -/
structure ConfDir where
  content : Option StdString
  errno : Errno
  createDirErr : Option Errno
  writable : Bool

/-- `SharedState::registerDataType`: the object afterwards, the text that was
written to the file, ended by `std::endl`, and the returned value. -/
def SharedState.registerDataType (json : ConfJson) (dir : ConfDir) (s : SharedState D)
    (typeName typeScope : StdString) (updateInterval TTL : ℤ) :
    Except Raised (SharedState D × StdString × Bool) :=
  if typeName.isEmpty then .error (.bubble .invalidArgument)
  else if DATA_TYPE_NAME_MAX_LENGHT < typeName.length then .error (.bubble .invalidArgument)
  else
    let (loaded, s) :=
      match s.loadRegisteredTypes json dir.errno dir.content with
      | .ok (mOk, s') => (mOk, s')
      | .error _ => (false, s)
    match if loaded then none else dir.createDirErr with
    | some err => .error (.bubble (.errno err))
    | none =>
        let mTypeConf := s.mTypeConf.insert typeName ⟨typeName, typeScope, updateInterval, TTL⟩
        let (text, mOk) := json.print mTypeConf
        if dir.writable then .ok ({ s with mTypeConf := mTypeConf }, text ++ [10], mOk)
        else .error (.bubble .ioError)

/-- **A registration that succeeds**: the name is in order, the directory was there or
could be made, and the types that were loaded, with the new one, were written. -/
theorem registerDataType_ok {json : ConfJson} {dir : ConfDir} {s s' : SharedState D}
    {typeName typeScope text : StdString} {updateInterval TTL : ℤ} {mOk : Bool}
    (h : s.registerDataType json dir typeName typeScope updateInterval TTL
      = .ok (s', text, mOk)) :
    ¬ typeName.isEmpty ∧ ¬ DATA_TYPE_NAME_MAX_LENGHT < typeName.length ∧
      (if (s.tryLoad json dir.errno dir.content).1 then none else dir.createDirErr) = none ∧
      s' = { (s.tryLoad json dir.errno dir.content).2 with
        mTypeConf := (s.tryLoad json dir.errno dir.content).2.mTypeConf.insert typeName
          ⟨typeName, typeScope, updateInterval, TTL⟩ } ∧
      text = (json.print s'.mTypeConf).1 ++ [10] ∧ mOk = (json.print s'.mTypeConf).2 := by
  have hloaded : s.registerDataType json dir typeName typeScope updateInterval TTL
      = if typeName.isEmpty then .error (.bubble .invalidArgument)
        else if DATA_TYPE_NAME_MAX_LENGHT < typeName.length then .error (.bubble .invalidArgument)
        else
          let loaded := s.tryLoad json dir.errno dir.content
          match if loaded.1 then none else dir.createDirErr with
          | some err => .error (.bubble (.errno err))
          | none =>
              let mTypeConf := loaded.2.mTypeConf.insert typeName
                ⟨typeName, typeScope, updateInterval, TTL⟩
              if dir.writable then .ok ({ loaded.2 with mTypeConf := mTypeConf },
                (json.print mTypeConf).1 ++ [10], (json.print mTypeConf).2)
              else .error (.bubble .ioError) := rfl
  rw [hloaded] at h
  generalize s.tryLoad json dir.errno dir.content = loaded at h ⊢
  simp only at h ⊢
  by_cases hempty : typeName.isEmpty
  · rw [if_pos hempty] at h
    cases h
  by_cases hlong : DATA_TYPE_NAME_MAX_LENGHT < typeName.length
  · rw [if_neg hempty, if_pos hlong] at h
    cases h
  rw [if_neg hempty, if_neg hlong] at h
  cases hdir : (if loaded.1 then none else dir.createDirErr) with
  | some err =>
      simp only [hdir] at h
      cases h
  | none =>
      simp only [hdir] at h
      split_ifs at h
      obtain ⟨rfl, htext⟩ := Prod.mk.inj (Except.ok.inj h)
      obtain ⟨rfl, rfl⟩ := Prod.mk.inj htext
      exact ⟨hempty, hlong, rfl, rfl, rfl, rfl⟩

end SharedStateAsync
