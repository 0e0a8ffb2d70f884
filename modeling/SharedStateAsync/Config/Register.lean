/-
The numbers of a registration (`app/shared-state-async.cc`, `register`).

The interval and the TTL of a type are read with `std::stoul` and converted to seconds,
which are signed. They are stored as they are, and other processes divide by the one and
add both.

* `stoul`: the numbers the command accepts;
* `SharedState.registerCommand`: the command;
* `DataTypeConf.insertTtlChecked`: the TTL of an insert, if it does not overflow;
* `SafeToRunWith`, `safeToRunWith_iff`: what the other processes need of the two numbers;
* `registration_safe_iff`: which registrations are safe.
-/
import SharedStateAsync.Config.FirstRegistration
import SharedStateAsync.Daemon.PeerLoop
import SharedStateAsync.Gossip.Network

namespace SharedStateAsync

open Signed64

/-! ### The command -/

/-- `isspace` in the C locale. -/
def isSpace (c : UInt8) : Bool := c == 32 || (9 ≤ c && c ≤ 13)

def isDigit (c : UInt8) : Bool := 48 ≤ c && c ≤ 57

def digitsValue (digits : List UInt8) : ℕ := digits.foldl (fun n c => 10 * n + (c.toNat - 48)) 0

/-- `std::stoul` in base 10, or nothing when it throws. Leading space is skipped, what follows
the digits is ignored, and a minus sign negates modulo `2 ^ 64`. -/
def stoul (text : StdString) : Option ℕ :=
  let text := text.dropWhile isSpace
  let (negative, text) :=
    match text with
    | 43 :: rest => (false, rest)
    | 45 :: rest => (true, rest)
    | _ => (false, text)
  let digits := text.takeWhile isDigit
  if digits.isEmpty then none
  else if digitsValue digits ≥ 2 ^ 64 then none
  else if negative then some ((2 ^ 64 - digitsValue digits) % 2 ^ 64)
  else some (digitsValue digits)

variable {D : Type}

/-- The `register` operation of `main`; nothing when the number of arguments is wrong or when a
number cannot be read, which ends the process. -/
def SharedState.registerCommand (json : ConfJson) (dir : ConfDir) (s : SharedState D) :
    List StdString → Option (Except Raised (SharedState D × StdString × Bool))
  | [_, _, dataTypeName, typeSope, updateInterval, bleachTTL] => do
      let updateInterval ← stoul updateInterval
      let bleachTTL ← stoul bleachTTL
      return s.registerDataType json dir dataTypeName typeSope (ofUnsigned updateInterval)
        (ofUnsigned bleachTTL)
  | _ => none

/-! ### What the numbers are used for -/

/-- The TTL `SharedStateCli::insert` gives to the entries it makes, if it does not overflow. -/
def DataTypeConf.insertTtlChecked (conf : DataTypeConf) : Option ℤ := do
  let sum ← checkedAdd conf.mBleachTTL conf.mUpdateInterval
  checkedAdd sum 1

lemma insertTtlChecked_eq (conf : DataTypeConf) :
    conf.insertTtlChecked
      = if InRange (conf.mBleachTTL + conf.mUpdateInterval) ∧ InRange conf.insertTtl
        then some conf.insertTtl else none := by
  rw [DataTypeConf.insertTtlChecked, DataTypeConf.insertTtl, checkedAdd]
  split_ifs with hsum hboth hboth
  · exact if_pos hboth.2
  · exact if_neg fun hc => hboth ⟨hsum, hc⟩
  · exact absurd hboth.1 hsum
  · rfl

/-- What the other processes do with the numbers of a type is defined: the loop of the daemon
can divide by the interval at any time, and an insert has a TTL, of at least 1. -/
structure SafeToRunWith (conf : DataTypeConf) : Prop where
  remainder : ∀ now, (conf.shouldSync now).isSome
  insertTtl : ∃ mTtl, conf.insertTtlChecked = some mTtl ∧ 1 ≤ mTtl

theorem safeToRunWith_iff (conf : DataTypeConf) :
    SafeToRunWith conf ↔ conf.mUpdateInterval ≠ 0 ∧
      0 ≤ conf.mBleachTTL + conf.mUpdateInterval ∧
      conf.mBleachTTL + conf.mUpdateInterval < 2 ^ 63 - 1 := by
  constructor
  · rintro ⟨hrem, mTtl, hmTtl, hle⟩
    have hzero : conf.mUpdateInterval ≠ 0 := by
      intro hc
      have hsome := hrem 0
      rw [shouldSync_eq, if_pos hc] at hsome
      cases hsome
    rw [insertTtlChecked_eq] at hmTtl
    split_ifs at hmTtl with hrange
    obtain rfl := Option.some.inj hmTtl
    rw [DataTypeConf.insertTtl] at hle hrange
    obtain ⟨-, -, hlt⟩ := hrange
    exact ⟨hzero, by omega, by omega⟩
  · rintro ⟨hzero, hnonneg, hlt⟩
    refine ⟨fun now => ?_, conf.insertTtl, ?_, ?_⟩
    · rw [shouldSync_eq, if_neg hzero]
      rfl
    · rw [insertTtlChecked_eq, if_pos]
      rw [DataTypeConf.insertTtl]
      exact ⟨⟨by omega, by omega⟩, by omega, by omega⟩
    · rw [DataTypeConf.insertTtl]
      omega

/-! ### Registrations -/

section Register

variable {json : ConfJson} {dir : ConfDir} {s s' : SharedState D}
  {exe operation typeName typeScope updateInterval bleachTTL text : StdString} {n m : ℕ}
  {mOk : Bool}

lemma registerCommand_eq (hn : stoul updateInterval = some n) (hm : stoul bleachTTL = some m) :
    s.registerCommand json dir [exe, operation, typeName, typeScope, updateInterval, bleachTTL]
      = some (s.registerDataType json dir typeName typeScope (ofUnsigned n) (ofUnsigned m)) := by
  rw [SharedState.registerCommand, hn, hm]
  rfl

/-- What a registration leaves in the object and in the file. -/
lemma registerCommand_ok (hn : stoul updateInterval = some n) (hm : stoul bleachTTL = some m)
    (hreg : s.registerCommand json dir
      [exe, operation, typeName, typeScope, updateInterval, bleachTTL]
        = some (.ok (s', text, mOk))) :
    s'.mTypeConf[typeName]? = some ⟨typeName, typeScope, ofUnsigned n, ofUnsigned m⟩ ∧
      text = (json.print s'.mTypeConf).1 ++ [10] := by
  rw [registerCommand_eq hn hm] at hreg
  obtain ⟨-, -, -, hs', htext, -⟩ := registerDataType_ok (Option.some.inj hreg)
  refine ⟨?_, htext⟩
  rw [hs', OrdMap.getElem?_insert_eq, if_pos rfl]

/-- **Which registrations are safe to run with**, in a process that reads the file they leave:
those whose interval is not zero and whose numbers, as signed ones, have a sum from 0 to
`2 ^ 63 - 2`. -/
theorem registration_safe_iff (hn : stoul updateInterval = some n) (hm : stoul bleachTTL = some m)
    (hreg : s.registerCommand json dir
      [exe, operation, typeName, typeScope, updateInterval, bleachTTL] = some (.ok (s', text, mOk)))
    (hjson : json.load ((json.print s'.mTypeConf).1 ++ [10]) = some (s'.mTypeConf, true))
    (errno : Errno) (other : SharedState D) :
    ∃ other' conf, other.loadRegisteredTypes json errno (some text) = .ok (true, other') ∧
      other'.mTypeConf[typeName]? = some conf ∧
      (SafeToRunWith conf ↔ ofUnsigned n ≠ 0 ∧ 0 ≤ ofUnsigned m + ofUnsigned n ∧
        ofUnsigned m + ofUnsigned n < 2 ^ 63 - 1) := by
  obtain ⟨hconf, htext⟩ := registerCommand_ok hn hm hreg
  have hload := loadRegisteredTypes_of_load (htext ▸ hjson) errno other
  refine ⟨other.reloaded s'.mTypeConf, _, hload, hconf, ?_⟩
  rw [safeToRunWith_iff]

end Register

/-! ### An interval of zero -/

/-- The document of a type `t` with the given interval. -/
def intervalDocument (interval : String) : StdString :=
  bytes "\x7b\"mTypeConf\":[\x7b\"key\":\"t\",\"value\":\x7b\"mName\":\"t\",\"mScope\":\"c\"," ++
  bytes "\"mUpdateInterval\":\x7b\"xint64\":" ++ bytes interval ++ bytes ",\"xstr64\":\"" ++
  bytes interval ++
  bytes "\"\x7d,\"mBleachTTL\":\x7b\"xint64\":300,\"xstr64\":\"300\"\x7d\x7d\x7d]\x7d"

def intervalType (interval : ℤ) : OrdMap StdString DataTypeConf :=
  (∅ : OrdMap StdString DataTypeConf).insert (bytes "t") ⟨bytes "t", bytes "c", interval, 300⟩

/-- The document without types. -/
def noTypesDocument : StdString := bytes "\x7b\"mTypeConf\":[]\x7d"

/-- The JSON of these documents, with the intervals 0 and 30. -/
def intervalJson : ConfJson where
  load := fun text =>
    if text = noTypesDocument ++ [10] then some (∅, true)
    else if text = intervalDocument "0" ++ [10] then some (intervalType 0, true)
    else if text = intervalDocument "30" ++ [10] then some (intervalType 30, true)
    else none
  print := fun conf =>
    match conf[bytes "t"]?.map DataTypeConf.mUpdateInterval with
    | some 0 => (intervalDocument "0", true)
    | some _ => (intervalDocument "30", true)
    | none => (noTypesDocument, true)

/-- There is a file, without types. -/
def noTypesDir : ConfDir := ⟨some (noTypesDocument ++ [10]), .other 0, none, true⟩

def registerArgs (interval : String) : List StdString :=
  [bytes "shared-state-async", bytes "register", bytes "t", bytes "c", bytes interval, bytes "300"]

lemma noTypesDocument_load : intervalJson.load (noTypesDocument ++ [10]) = some (∅, true) :=
  if_pos rfl

/-- The object of the command, after its constructor. -/
def noTypesObject : SharedState ℕ := SharedState.reloaded ⟨∅, ∅, false⟩ ∅

lemma noTypesObject_loaded :
    (⟨∅, ∅, false⟩ : SharedState ℕ).loadRegisteredTypes intervalJson noTypesDir.errno
      noTypesDir.content = .ok (true, noTypesObject) := by
  have hcontent : noTypesDir.content = some (noTypesDocument ++ [10]) := rfl
  rw [hcontent, loadRegisteredTypes_of_load noTypesDocument_load, noTypesObject]

/-- What the command leaves and writes. -/
lemma registerCommand_interval (interval : String) {n : ℕ} (hn : stoul (bytes interval) = some n) :
    ∃ s', noTypesObject.registerCommand intervalJson noTypesDir (registerArgs interval)
        = some (.ok (s', (intervalJson.print (intervalType (ofUnsigned n))).1 ++ [10],
          (intervalJson.print (intervalType (ofUnsigned n))).2)) ∧
      s'.mTypeConf = intervalType (ofUnsigned n) := by
  have hm : stoul (bytes "300") = some 300 := by decide +kernel
  have hTTL : ofUnsigned 300 = 300 := by decide
  have hlength : 1 ≤ (bytes "t").length ∧ (bytes "t").length ≤ 128 := by decide +kernel
  have hname : RegisterArgs.NameOk ⟨bytes "t", bytes "c", ofUnsigned n, 300⟩ := hlength
  have hcontent : noTypesDir.content = some (noTypesDocument ++ [10]) := rfl
  have hreg := registerDataType_of_load hname hcontent noTypesDocument_load noTypesObject
  have hwritable : noTypesDir.writable = true := rfl
  have hadded : RegisterArgs.added ⟨bytes "t", bytes "c", ofUnsigned n, 300⟩ ∅
      = intervalType (ofUnsigned n) := by
    rw [RegisterArgs.added, RegisterArgs.conf, intervalType]
  rw [if_pos hwritable, hadded, ConfJson.text] at hreg
  rw [registerArgs, registerCommand_eq hn hm, hTTL, hreg]
  exact ⟨_, rfl, rfl⟩

/-- An interval of half a minute is safe. -/
theorem registration_safe_thirty : ∃ s s' other' conf,
    (⟨∅, ∅, false⟩ : SharedState ℕ).loadRegisteredTypes intervalJson noTypesDir.errno
        noTypesDir.content = .ok (true, s) ∧
      s.registerCommand intervalJson noTypesDir (registerArgs "30")
        = some (.ok (s', intervalDocument "30" ++ [10], true)) ∧
      (⟨∅, ∅, true⟩ : SharedState ℕ).loadRegisteredTypes intervalJson (.other 0)
        (some (intervalDocument "30" ++ [10])) = .ok (true, other') ∧
      other'.mTypeConf[bytes "t"]? = some conf ∧ SafeToRunWith conf := by
  have hn : stoul (bytes "30") = some 30 := by decide +kernel
  have hm : stoul (bytes "300") = some 300 := by decide +kernel
  have hprint :
      intervalJson.print (intervalType (ofUnsigned 30)) = (intervalDocument "30", true) := by
    decide +kernel
  have hload : intervalJson.load (intervalDocument "30" ++ [10])
      = some (intervalType (ofUnsigned 30), true) := by
    have hne : intervalDocument "30" ++ [10] ≠ noTypesDocument ++ [10] := by decide +kernel
    have hne' : intervalDocument "30" ++ [10] ≠ intervalDocument "0" ++ [10] := by decide +kernel
    exact (if_neg hne).trans ((if_neg hne').trans (if_pos rfl))
  obtain ⟨s', hreg, hconf'⟩ := registerCommand_interval "30" hn
  rw [hprint] at hreg
  obtain ⟨other', conf, hother, hconf, hsafe⟩ :=
    registration_safe_iff hn hm hreg (by rw [hconf', hprint]; exact hload) (.other 0) ⟨∅, ∅, true⟩
  exact ⟨noTypesObject, s', other', conf, noTypesObject_loaded, hreg, hother, hconf,
    hsafe.mpr (by decide)⟩

/-- An interval of zero is accepted, and the loop of the daemon divides by it. -/
theorem not_safeToRunWith_zero : ∃ s s',
    (⟨∅, ∅, false⟩ : SharedState ℕ).loadRegisteredTypes intervalJson noTypesDir.errno
        noTypesDir.content = .ok (true, s) ∧
      s.registerCommand intervalJson noTypesDir (registerArgs "0")
        = some (.ok (s', intervalDocument "0" ++ [10], true)) ∧
      intervalJson.load (intervalDocument "0" ++ [10]) = some (s'.mTypeConf, true) ∧
      ∃ conf, s'.mTypeConf[bytes "t"]? = some conf ∧ conf.shouldSync 0 = none ∧
        ¬ SafeToRunWith conf := by
  have hn : stoul (bytes "0") = some 0 := by decide +kernel
  have hprint :
      intervalJson.print (intervalType (ofUnsigned 0)) = (intervalDocument "0", true) := by
    decide +kernel
  obtain ⟨s', hreg, hconf⟩ := registerCommand_interval "0" hn
  rw [hprint] at hreg
  have hne : intervalDocument "0" ++ [10] ≠ noTypesDocument ++ [10] := by decide +kernel
  refine ⟨noTypesObject, s', noTypesObject_loaded, hreg, ?_, ⟨bytes "t", bytes "c", 0, 300⟩, ?_,
    by decide, ?_⟩
  · rw [hconf]
    exact (if_neg hne).trans (if_pos rfl)
  · rw [hconf]
    exact (OrdMap.getElem?_insert_eq _ _ _ _).trans (if_pos rfl)
  · rw [safeToRunWith_iff]
    exact fun hc => hc.1 rfl

end SharedStateAsync
