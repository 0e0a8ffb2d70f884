/-
The `register` command from the start of its process (`app/shared-state-async.cc`).

`registerDataType` is written to make a new file where the old one is corrupted or does
not exist. It is not reached then: the constructor of `SharedStateCli` reads the file
before it, without an error pointer, and the process ends there.

* `SharedStateCli.registerDataType`: the command, its constructor included;
* `RegistrationWorks`: the file has the old types and the new one, or is the old file when
  the name is no good;
* `registration_works_iff`: from which files this is so.
-/
import SharedStateAsync.Config.Registrations

namespace SharedStateAsync

variable {D : Type}

/-! ### The command -/

/-- The `register` command: the object, if the process gets to its `exit(0)`, and the content
of the file in the end. Neither the constructor nor the registration is given an error
pointer. -/
def SharedStateCli.registerDataType (D : Type) (json : ConfJson) (dir : ConfDir)
    (args : RegisterArgs) : Option (SharedState D) × Option StdString :=
  match SharedState.loadRegisteredTypes json dir.errno dir.content ⟨∅, ∅, false⟩ with
  | .error _ => (none, dir.content)
  | .ok (_, s) =>
      match s.registerDataType json dir args.typeName args.typeScope args.updateInterval
        args.TTL with
      | .error _ => (none, dir.content)
      | .ok (s', text, _) => (some s', some text)

/-- The types of the file, none if it is absent or not valid. -/
def ConfDir.types (json : ConfJson) (dir : ConfDir) : OrdMap StdString DataTypeConf :=
  match dir.content.bind json.load with
  | some (conf, true) => conf
  | _ => ∅

/-- The name of the type has 1 to 128 bytes. -/
def RegisterArgs.NameOk (args : RegisterArgs) : Prop :=
  1 ≤ args.typeName.length ∧ args.typeName.length ≤ 128

/-- The file is valid and has the types of before with the new one added or replaced, and
with a name that is no good it is what it was. -/
def RegistrationWorks (json : ConfJson) (dir : ConfDir) (args : RegisterArgs)
    (file : Option StdString) : Prop :=
  (args.NameOk → ∃ text, file = some text ∧
      json.load text = some (args.added (dir.types json), true)) ∧
    (¬ args.NameOk → file = dir.content)

/-! ### From which files it works -/

section Works

variable {json : ConfJson} {dir : ConfDir} {args : RegisterArgs} {text : StdString}
  {conf : OrdMap StdString DataTypeConf}

lemma types_of_load (hcontent : dir.content = some text)
    (hload : json.load text = some (conf, true)) : dir.types json = conf := by
  rw [ConfDir.types, hcontent, Option.bind_some, hload]

lemma RegisterArgs.nameOk_iff :
    args.NameOk ↔ ¬ args.typeName.isEmpty ∧ ¬ DATA_TYPE_NAME_MAX_LENGHT < args.typeName.length := by
  rw [NameOk, List.isEmpty_iff_length_eq_zero, DATA_TYPE_NAME_MAX_LENGHT]
  omega

/-- A type that is there as it is to be registered. -/
lemma RegisterArgs.added_eq_self (h : conf[args.typeName]? = some args.conf) :
    args.added conf = conf := by
  refine Std.ExtTreeMap.ext_getElem? fun t => ?_
  rw [added, OrdMap.getElem?_insert_eq]
  split_ifs with ht
  · rw [← ht, h]
  · rfl

/-- A name that is no good. -/
lemma register_of_not_nameOk (hname : ¬ args.NameOk) :
    (SharedStateCli.registerDataType D json dir args).2 = dir.content := by
  rw [SharedStateCli.registerDataType]
  cases SharedState.loadRegisteredTypes json dir.errno dir.content
      (⟨∅, ∅, false⟩ : SharedState D) with
  | error e => rfl
  | ok loaded =>
      obtain ⟨mOk, s⟩ := loaded
      simp only
      cases hreg : s.registerDataType json dir args.typeName args.typeScope args.updateInterval
          args.TTL with
      | error e => rfl
      | ok result =>
          obtain ⟨hempty, hlong, -⟩ := registerDataType_ok hreg
          exact absurd (RegisterArgs.nameOk_iff.mpr ⟨hempty, hlong⟩) hname

/-- A file the constructor ends the process at. -/
lemma register_of_not_loaded (h : dir.content.bind json.load = none) :
    SharedStateCli.registerDataType D json dir args = (none, dir.content) := by
  rw [SharedStateCli.registerDataType]
  cases hcontent : dir.content with
  | none => rfl
  | some text =>
      rw [hcontent, Option.bind_some] at h
      rw [loadRegisteredTypes_of_parseError h]

/-- A registration in a process, from a file that is valid. -/
lemma registerDataType_of_load (hname : args.NameOk) (hcontent : dir.content = some text)
    (hload : json.load text = some (conf, true)) (s : SharedState D) :
    s.registerDataType json dir args.typeName args.typeScope args.updateInterval args.TTL
      = if dir.writable then
          .ok ({ s.reloaded conf with mTypeConf := args.added conf }, json.text (args.added conf),
            (json.print (args.added conf)).2)
        else .error (.bubble .ioError) := by
  obtain ⟨hempty, hlong⟩ := RegisterArgs.nameOk_iff.mp hname
  rw [SharedState.registerDataType, if_neg hempty, if_neg hlong, hcontent]
  simp only [loadRegisteredTypes_of_load hload, if_true]
  rfl

/-- The command from a file that is valid. -/
lemma register_of_load (hname : args.NameOk) (hcontent : dir.content = some text)
    (hload : json.load text = some (conf, true)) :
    (SharedStateCli.registerDataType D json dir args).2
      = if dir.writable then some (json.text (args.added conf)) else some text := by
  rw [SharedStateCli.registerDataType, hcontent, loadRegisteredTypes_of_load hload]
  simp only [registerDataType_of_load hname hcontent hload]
  split_ifs with hwritable
  · rfl
  · rfl

/-- **When a registration works**: with a name that is no good always, and otherwise from a
valid file only, which can be written or has the type as it is to be registered. -/
theorem registration_works_iff (D : Type) (json : ConfJson) (dir : ConfDir) (args : RegisterArgs)
    (hcontent : ∀ text conf mOk, dir.content = some text → json.load text = some (conf, mOk) →
      mOk = true)
    (hjson : json.load (json.text (args.added (dir.types json)))
      = some (args.added (dir.types json), true)) :
    RegistrationWorks json dir args (SharedStateCli.registerDataType D json dir args).2 ↔
      ¬ args.NameOk ∨ ∃ text conf, dir.content = some text ∧ json.load text = some (conf, true) ∧
        (dir.writable = true ∨ conf[args.typeName]? = some args.conf) := by
  by_cases hname : args.NameOk
  · rw [RegistrationWorks, or_iff_right (not_not.mpr hname)]
    simp only [hname, not_true_eq_false, forall_const, false_imp_iff, and_true]
    cases hload : dir.content.bind json.load with
    | none =>
        rw [register_of_not_loaded hload]
        dsimp only
        constructor
        · rintro ⟨text, htext, hload'⟩
          rw [htext, Option.bind_some, hload'] at hload
          cases hload
        · rintro ⟨text, conf, htext, hload', -⟩
          rw [htext, Option.bind_some, hload'] at hload
          cases hload
    | some loaded =>
        obtain ⟨text, htext, hload'⟩ := Option.bind_eq_some_iff.mp hload
        obtain ⟨conf, mOk⟩ := loaded
        obtain rfl := hcontent text conf mOk htext hload'
        rw [types_of_load htext hload'] at hjson ⊢
        rw [register_of_load hname htext hload']
        by_cases hwritable : dir.writable = true
        · rw [if_pos hwritable]
          exact iff_of_true ⟨_, rfl, hjson⟩ ⟨text, conf, htext, hload', Or.inl hwritable⟩
        · rw [if_neg hwritable]
          constructor
          · rintro ⟨text', htext', hadded⟩
            obtain rfl := Option.some.inj htext'
            obtain ⟨hconf, -⟩ := Prod.mk.inj (Option.some.inj (hload'.symm.trans hadded))
            refine ⟨text, conf, htext, hload', Or.inr ?_⟩
            rw [hconf, RegisterArgs.added, OrdMap.getElem?_insert_eq, if_pos rfl]
          · rintro ⟨text', conf', htext', hload'', hkept⟩
            obtain rfl := Option.some.inj (htext.symm.trans htext')
            obtain ⟨rfl, -⟩ := Prod.mk.inj (Option.some.inj (hload'.symm.trans hload''))
            refine ⟨text, rfl, ?_⟩
            rw [RegisterArgs.added_eq_self (hkept.resolve_left hwritable)]
            exact hload'
  · refine iff_of_true ⟨fun h => absurd h hname, fun _ => ?_⟩ (Or.inl hname)
    exact register_of_not_nameOk hname

end Works

/-! ### Two first registrations -/

/-- The directory with a file, or without one. -/
def confDir (content : Option StdString) : ConfDir := ⟨content, .enoent, none, true⟩

/-- From a file without types the command works. -/
theorem registration_works_emptyDocument :
    RegistrationWorks namesJson (confDir (some (namesDocument []))) (sampleArgs .left)
      (SharedStateCli.registerDataType ℕ namesJson (confDir (some (namesDocument [])))
        (sampleArgs .left)).2 := by
  refine (registration_works_iff ℕ namesJson _ _ ?_ (by decide +kernel)).mpr
    (Or.inr ⟨namesDocument [], ∅, rfl, by decide +kernel, Or.inl rfl⟩)
  intro text conf mOk htext hload
  obtain rfl := Option.some.inj htext
  have hdocument : namesJson.load (namesDocument []) = some (∅, true) := by decide +kernel
  exact (Prod.mk.inj (Option.some.inj (hload.symm.trans hdocument))).2

/-- Without a file it makes none. -/
theorem not_registration_works_noFile :
    ¬ RegistrationWorks namesJson (confDir none) (sampleArgs .left)
      (SharedStateCli.registerDataType ℕ namesJson (confDir none) (sampleArgs .left)).2 := by
  rintro ⟨hworks, -⟩
  obtain ⟨text, hfile, -⟩ := hworks (by unfold RegisterArgs.NameOk; decide +kernel)
  rw [register_of_not_loaded rfl] at hfile
  cases hfile

end SharedStateAsync
