/-
A `register` command beside a running daemon.

`registerDataType` rewrites the configuration file in place: it truncates the
file, writes the new text in as many pieces as the stream likes, and closes it.
The daemon reloads the file once a second in each of two loops, both times
without an error pointer, so that a reload which meets an unparseable text ends
the process.

* `WriteStep`, `ConfEvent`, `ConfRace.step`: the steps of the two processes on
  the shared file;
* `file_cases`: what the file can hold at any moment;
* `Undisturbed`: the daemon runs and has the entries of every type that was
  registered before;
* `undisturbed_iff`: this holds in an interleaving exactly when no reload falls
  between the truncation and the last byte of the new document.
-/
import SharedStateAsync.Lib.Machine
import SharedStateAsync.Config.Reload

namespace SharedStateAsync

open Machine

/-! ### The two processes -/

/-- The steps of a `register` command on the file. -/
inductive WriteStep where
  | truncate
  | write (piece : StdString)
  | close

/-- The steps of the command, writing the given pieces. -/
def registerSteps (pieces : List StdString) : List WriteStep :=
  .truncate :: (pieces.map .write ++ [.close])

inductive ConfEvent where
  | register (w : WriteStep)
  /-- The daemon calls `loadRegisteredTypes()` in one of its two loops. -/
  | reload (errno : Errno)

/-- The daemon process. -/
inductive Daemon (D : Type) where
  | running (s : SharedState D)
  | exited

structure ConfRace (D : Type) where
  file : StdString
  daemon : Daemon D

variable {D : Type}

/-- A reload without an error pointer: an error ends the process. -/
def Daemon.reload (json : ConfJson) (errno : Errno) (file : StdString) : Daemon D → Daemon D
  | .exited => .exited
  | .running s =>
      match s.loadRegisteredTypes json errno (some file) with
      | .ok (_, s') => .running s'
      | .error _ => .exited

/-- The content of the file after a step of the command. -/
def WriteStep.apply (file : StdString) : WriteStep → StdString
  | .truncate => []
  | .write piece => file ++ piece
  | .close => file

def ConfRace.step (json : ConfJson) (r : ConfRace D) : ConfEvent → ConfRace D
  | .register w => { r with file := w.apply r.file }
  | .reload errno => { r with daemon := r.daemon.reload json errno r.file }

/-- The steps of the command in an interleaving. -/
def writeSteps (evs : List ConfEvent) : List WriteStep :=
  evs.filterMap fun
    | .register w => some w
    | .reload _ => none

/-! ### What the file holds -/

/-- The file depends on the steps of the command only. -/
lemma run_file (json : ConfJson) (r : ConfRace D) (evs : List ConfEvent) :
    (run (ConfRace.step json) r evs).file = (writeSteps evs).foldl WriteStep.apply r.file := by
  induction evs using List.reverseRecOn with
  | nil => rfl
  | append_singleton evs ev ih =>
      rw [run_concat]
      cases ev with
      | register w => simp [ConfRace.step, writeSteps, ih]
      | reload errno => simp [ConfRace.step, writeSteps, ih]

/-- After the truncation the file holds a beginning of what is written. -/
lemma foldl_apply_prefix : ∀ (pieces : List StdString) (steps : List WriteStep) (done : StdString),
    steps <+: pieces.map .write ++ [.close] →
    steps.foldl WriteStep.apply done <+: done ++ pieces.flatten := by
  intro pieces
  induction pieces with
  | nil =>
      intro steps done hsteps
      rw [List.map_nil, List.nil_append] at hsteps
      rcases List.prefix_cons_iff.mp hsteps with rfl | ⟨rest, rfl, hrest⟩
      · simp
      · rw [List.prefix_nil.mp hrest]
        simp [WriteStep.apply]
  | cons piece pieces ih =>
      intro steps done hsteps
      rw [List.map_cons, List.cons_append] at hsteps
      rcases List.prefix_cons_iff.mp hsteps with rfl | ⟨rest, rfl, hrest⟩
      · exact List.prefix_append _ _
      · rw [List.foldl_cons, WriteStep.apply, List.flatten_cons, ← List.append_assoc]
        exact ih rest (done ++ piece) hrest

/-- At every moment the file holds the old text or a beginning of the new
one. -/
lemma file_cases (json : ConfJson) (r : ConfRace D) {pieces : List StdString}
    {evs : List ConfEvent} (hevs : writeSteps evs <+: registerSteps pieces) :
    (run (ConfRace.step json) r evs).file = r.file ∨
      (run (ConfRace.step json) r evs).file <+: pieces.flatten := by
  rw [run_file]
  rcases List.prefix_cons_iff.mp hevs with hnone | ⟨rest, hsome, hrest⟩
  · exact Or.inl (by rw [hnone]; rfl)
  · refine Or.inr ?_
    rw [hsome, List.foldl_cons, WriteStep.apply]
    exact foldl_apply_prefix pieces rest [] hrest

/-- The interleavings of the steps of a command are closed under stopping
early. -/
lemma writeSteps_mono {pre evs : List ConfEvent} (h : pre <+: evs) :
    writeSteps pre <+: writeSteps evs := by
  obtain ⟨rest, rfl⟩ := h
  rw [writeSteps, writeSteps, List.filterMap_append]
  exact List.prefix_append _ _

/-! ### The daemon -/

/-- What is known of the JSON of a configuration: it reads back as what was
printed, also with the newline `std::endl` adds, and no proper beginning of it
parses. -/
structure ConfJson.Faithful (json : ConfJson) (conf : OrdMap StdString DataTypeConf) : Prop where
  load_print : json.load (json.print conf).1 = some (conf, true)
  load_endl : json.load ((json.print conf).1 ++ [10]) = some (conf, true)
  load_prefix : ∀ p, p <+: (json.print conf).1 → p ≠ (json.print conf).1 → json.load p = none

/-- The file is between its truncation and the last byte of the document. -/
def Incomplete (document file : StdString) : Prop := file <+: document ∧ file ≠ document

/-- Along the interleaving the daemon never takes the exit path and keeps the
entries, those it had in `s`, of every type that is registered in `conf`. -/
def Undisturbed (json : ConfJson) (conf : OrdMap StdString DataTypeConf) (file : StdString)
    (s : SharedState D) (evs : List ConfEvent) : Prop :=
  ∀ pre, pre <+: evs →
    ∃ s', (run (ConfRace.step json) ⟨file, .running s⟩ pre).daemon = .running s' ∧
      ∀ (t : StdString) (entries : StateMap D), conf[t]?.isSome →
        s.mStates[t]? = some entries → s'.mStates[t]? = some entries

/-- The text a `register` command writes when it finds a valid file: the types
of that file with the new one added or replaced. -/
lemma registerDataType_text {json : ConfJson} {dir : ConfDir} {oldText : StdString}
    {oldConf : OrdMap StdString DataTypeConf} (hcontent : dir.content = some oldText)
    (hload : json.load oldText = some (oldConf, true)) {cli cli' : SharedState D}
    {typeName typeScope text : StdString} {updateInterval TTL : ℤ} {mOk : Bool}
    (hreg : cli.registerDataType json dir typeName typeScope updateInterval TTL
      = .ok (cli', text, mOk)) :
    text = (json.print (oldConf.insert typeName
      ⟨typeName, typeScope, updateInterval, TTL⟩)).1 ++ [10] := by
  obtain ⟨-, -, -, rfl, htext, -⟩ := registerDataType_ok hreg
  rw [htext, hcontent, tryLoad_of_load hload]
  rfl

section Race

variable {json : ConfJson} {oldText : StdString} {oldConf newConf : OrdMap StdString DataTypeConf}
  {pieces : List StdString}

/-- What a reload meets, at any moment of an interleaving: a document that is
not complete and does not parse, or one that parses and has the types of
before. -/
lemma load_file_cases (hold : json.load oldText = some (oldConf, true))
    (hnew : json.Faithful newConf)
    (hsub : ∀ t : StdString, oldConf[t]?.isSome → newConf[t]?.isSome)
    (hpieces : pieces.flatten = (json.print newConf).1 ++ [10]) (daemon : Daemon D)
    {evs : List ConfEvent} (hevs : writeSteps evs <+: registerSteps pieces) :
    let file := (run (ConfRace.step json) ⟨oldText, daemon⟩ evs).file
    (Incomplete (json.print newConf).1 file ∧ json.load file = none) ∨
      (¬ Incomplete (json.print newConf).1 file ∧ ∃ conf, json.load file = some (conf, true) ∧
        ∀ t : StdString, oldConf[t]?.isSome → conf[t]?.isSome) := by
  intro file
  have hloads : ∀ conf, json.load file = some (conf, true) →
      ¬ Incomplete (json.print newConf).1 file := by
    rintro conf hconf ⟨hbeginning, hne⟩
    rw [hnew.load_prefix _ hbeginning hne] at hconf
    exact absurd hconf (by simp)
  rcases file_cases json ⟨oldText, daemon⟩ hevs with hfile | hfile
  · have hload : json.load file = some (oldConf, true) := by
      rw [show file = oldText from hfile]
      exact hold
    exact Or.inr ⟨hloads _ hload, oldConf, hload, fun t ht => ht⟩
  · rw [hpieces] at hfile
    rcases List.prefix_concat_iff.mp hfile with hfull | hpart
    · have hload : json.load file = some (newConf, true) := by
        rw [show file = _ from hfull]
        exact hnew.load_endl
      exact Or.inr ⟨hloads _ hload, newConf, hload, hsub⟩
    · by_cases hdone : file = (json.print newConf).1
      · have hload : json.load file = some (newConf, true) := by
          rw [hdone]
          exact hnew.load_print
        exact Or.inr ⟨hloads _ hload, newConf, hload, hsub⟩
      · exact Or.inl ⟨⟨hpart, hdone⟩, hnew.load_prefix _ hpart hdone⟩

/-- **A registration beside a running daemon.** The daemon is undisturbed by a
`register` command exactly when none of its reloads falls between the
truncation of the file and the last byte of the new document. -/
theorem undisturbed_iff (hold : json.load oldText = some (oldConf, true))
    {dir : ConfDir} (hcontent : dir.content = some oldText) {cli cli' : SharedState D}
    {typeName typeScope text : StdString} {updateInterval TTL : ℤ} {mOk : Bool}
    (hreg : cli.registerDataType json dir typeName typeScope updateInterval TTL
      = .ok (cli', text, mOk))
    (hnew : json.Faithful
      (oldConf.insert typeName ⟨typeName, typeScope, updateInterval, TTL⟩))
    (hpieces : pieces.flatten = text) (s : SharedState D) {evs : List ConfEvent}
    (hevs : writeSteps evs <+: registerSteps pieces) :
    Undisturbed json oldConf oldText s evs ↔
      ∀ pre errno, pre ++ [.reload errno] <+: evs →
        ¬ Incomplete
          (json.print (oldConf.insert typeName ⟨typeName, typeScope, updateInterval, TTL⟩)).1
          (run (ConfRace.step json) ⟨oldText, .running s⟩ pre).file := by
  have hsub : ∀ t : StdString, oldConf[t]?.isSome →
      (oldConf.insert typeName ⟨typeName, typeScope, updateInterval, TTL⟩)[t]?.isSome := by
    intro t ht
    rw [OrdMap.getElem?_insert_eq]
    split_ifs
    · rfl
    · exact ht
  rw [registerDataType_text hcontent hold hreg] at hpieces
  have hcases : ∀ pre, pre <+: evs → _ := fun pre hpre =>
    load_file_cases hold hnew hsub hpieces (.running s) ((writeSteps_mono hpre).trans hevs)
  constructor
  · intro hrun pre errno hpre hinc
    have hpre₀ : pre <+: evs := (List.prefix_append _ _).trans hpre
    obtain ⟨s₀, hs₀, -⟩ := hrun pre hpre₀
    obtain ⟨s₁, hs₁, -⟩ := hrun _ hpre
    -- the reload meets a text that does not parse, and the process ends
    have hload : json.load (run (ConfRace.step json) ⟨oldText, .running s⟩ pre).file = none := by
      rcases hcases pre hpre₀ with ⟨-, hload⟩ | ⟨hcomplete, -⟩
      · exact hload
      · exact absurd hinc hcomplete
    rw [run_concat, ConfRace.step] at hs₁
    simp only [hs₀, Daemon.reload, loadRegisteredTypes_of_parseError hload] at hs₁
    exact absurd hs₁ (by simp)
  · intro hcomplete
    refine run_induction ⟨s, rfl, fun t entries _ hs => hs⟩ fun pre ev hpre ih => ?_
    obtain ⟨s₀, hs₀, hkeep⟩ := ih
    have hpre₀ : pre <+: evs := (List.prefix_append _ _).trans hpre
    cases ev with
    | register w =>
        refine ⟨s₀, ?_, hkeep⟩
        rw [run_concat, ConfRace.step]
        exact hs₀
    | reload errno =>
        rcases hcases pre hpre₀ with ⟨hinc, -⟩ | ⟨-, conf, hload, hconf⟩
        · exact absurd hinc (hcomplete pre errno hpre)
        · refine ⟨s₀.reloaded conf, ?_, fun t entries ht hs => ?_⟩
          · rw [run_concat, ConfRace.step]
            simp only [hs₀, Daemon.reload, loadRegisteredTypes_of_load hload]
          · exact reloaded_keeps (hconf t ht) (hkeep t entries ht hs)

end Race

/-! ### A reload in the wrong moment -/

/-- A document with no types, as the file holds it before the first
registration. -/
def emptyDocument : StdString := bytes "\x7b\"mTypeConf\":[]\x7d"

/-- The document of a single type `t` of scope `c`, updated every 30 s and
bleached after 300 s. -/
def oneTypeDocument : StdString :=
  bytes "\x7b\"mTypeConf\":[\x7b\"key\":\"t\",\"value\":\x7b\"mName\":\"t\",\"mScope\":\"c\"," ++
  bytes "\"mUpdateInterval\":\x7b\"xint64\":30,\"xstr64\":\"30\"\x7d," ++
  bytes "\"mBleachTTL\":\x7b\"xint64\":300,\"xstr64\":\"300\"\x7d\x7d\x7d]\x7d"

def oneType : OrdMap StdString DataTypeConf :=
  (∅ : OrdMap StdString DataTypeConf).insert (bytes "t") ⟨bytes "t", bytes "c", 30, 300⟩

/-- The JSON of these two documents. -/
def twoDocuments : ConfJson where
  load := fun text =>
    if text = emptyDocument then some (∅, true)
    else if text = oneTypeDocument ∨ text = oneTypeDocument ++ [10] then some (oneType, true)
    else none
  print := fun conf => if conf.isEmpty then (emptyDocument, true) else (oneTypeDocument, true)

/-- The daemon of `oneType`, holding no entries yet. -/
def oneTypeDaemon : SharedState ℕ :=
  ⟨(∅ : OrdMap StdString (StateMap ℕ)).insert (bytes "t") ∅, oneType, true⟩

/-- The steps of a re-registration of `t`, with a reload right after the
truncation. -/
def reloadAfterTruncate : List ConfEvent :=
  [.register .truncate, .reload (.other 0), .register (.write oneTypeDocument),
    .register (.write [10]), .register .close]

/-- A reload that falls right after the truncation ends the daemon. -/
theorem not_undisturbed_reloadAfterTruncate :
    ¬ Undisturbed twoDocuments oneType oneTypeDocument oneTypeDaemon reloadAfterTruncate := by
  intro hrun
  obtain ⟨s', hs', -⟩ := hrun _ List.prefix_rfl
  have hexit : (run (ConfRace.step twoDocuments)
      ⟨oneTypeDocument, .running oneTypeDaemon⟩ reloadAfterTruncate).daemon = .exited := by
    have hload : twoDocuments.load [] = none := by decide +kernel
    simp [reloadAfterTruncate, run, ConfRace.step, WriteStep.apply, Daemon.reload,
      loadRegisteredTypes_of_parseError hload]
  rw [hexit] at hs'
  exact absurd hs' (by simp)

/-! ### A registration between the reloads -/

/-- Registering the same type again changes nothing. -/
lemma oneType_insert : oneType.insert (bytes "t") ⟨bytes "t", bytes "c", 30, 300⟩ = oneType := by
  refine Std.ExtTreeMap.ext_getElem? fun t => ?_
  rw [OrdMap.getElem?_insert_eq, oneType, OrdMap.getElem?_insert_eq]
  split_ifs <;> rfl

lemma twoDocuments_print : twoDocuments.print oneType = (oneTypeDocument, true) := by
  decide +kernel

lemma twoDocuments_faithful : twoDocuments.Faithful oneType where
  load_print := by
    rw [twoDocuments_print]
    have hne : oneTypeDocument ≠ emptyDocument := by decide +kernel
    simp [twoDocuments, hne]
  load_endl := by
    rw [twoDocuments_print]
    have hne : oneTypeDocument ++ [10] ≠ emptyDocument := by decide +kernel
    simp [twoDocuments, hne]
  load_prefix := by
    rw [twoDocuments_print]
    intro p hp hne
    have hempty : p ≠ emptyDocument := by
      rintro rfl
      exact absurd hp (by decide +kernel)
    have hendl : p ≠ oneTypeDocument ++ [10] := by
      rintro rfl
      have hlen := hp.length_le
      simp at hlen
    simp [twoDocuments, hne, hempty, hendl]

/-- The steps of the same re-registration, with reloads around it and one before
the final newline. -/
def reloadsBetween : List ConfEvent :=
  [.reload (.other 0), .register .truncate, .register (.write oneTypeDocument),
    .reload (.other 0), .register (.write [10]), .register .close, .reload (.other 0)]

/-- What the `register` command for `t` finds and writes. -/
lemma registerDataType_oneType : ∃ cli' : SharedState ℕ,
    (⟨∅, ∅, false⟩ : SharedState ℕ).registerDataType twoDocuments
        ⟨some oneTypeDocument, .other 0, none, true⟩ (bytes "t") (bytes "c") 30 300
      = .ok (cli', oneTypeDocument ++ [10], true) := by
  have hload := twoDocuments_faithful.load_print
  rw [twoDocuments_print] at hload
  have hempty : (bytes "t").isEmpty = false := by decide +kernel
  have hlong : ¬ DATA_TYPE_NAME_MAX_LENGHT < (bytes "t").length := by decide +kernel
  rw [SharedState.registerDataType, loadRegisteredTypes_of_load hload, hempty]
  simp only [Bool.false_eq_true, if_false, if_neg hlong, if_true, SharedState.reloaded,
    oneType_insert, twoDocuments_print]
  exact ⟨_, rfl⟩

/-- The daemon is undisturbed by a registration none of whose incomplete texts
is read. -/
theorem undisturbed_reloadsBetween :
    Undisturbed twoDocuments oneType oneTypeDocument oneTypeDaemon reloadsBetween := by
  have hload := twoDocuments_faithful.load_print
  rw [twoDocuments_print] at hload
  obtain ⟨cli', hreg⟩ := registerDataType_oneType
  refine (undisturbed_iff hload rfl hreg (by rw [oneType_insert]; exact twoDocuments_faithful)
    (show [oneTypeDocument, [10]].flatten = _ from rfl) oneTypeDaemon List.prefix_rfl).mpr ?_
  rw [oneType_insert, twoDocuments_print]
  rintro pre errno hpre ⟨hinc, hne⟩
  rw [run_file] at hinc hne
  have htake := List.prefix_iff_eq_take.mp ((List.prefix_append _ _).trans hpre)
  have hlast := List.prefix_iff_eq_take.mp hpre
  have hlen : pre.length + 1 ≤ 7 := by simpa [reloadsBetween] using hpre.length_le
  rw [List.length_append, List.length_singleton] at hlast
  generalize pre.length = i at *
  subst htake
  -- only the reloads at 0, 3 and 6 remain, and each meets a complete text
  have hi : i = 0 ∨ i = 3 ∨ i = 6 := by
    have hlt : i < 7 := hlen
    interval_cases i <;> simp [reloadsBetween] at hlast ⊢
  rcases hi with rfl | rfl | rfl
  · exact hne rfl
  · exact hne rfl
  · have hlong := hinc.length_le
    simp [reloadsBetween, writeSteps, WriteStep.apply] at hlong

end SharedStateAsync
