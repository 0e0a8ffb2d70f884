/-
Two `register` commands at the same time.

Each command is a process of its own. It reads the configuration file when it
starts, since the constructor of `SharedStateCli` does, and again in
`registerDataType`; it then truncates the file and writes what it read with its own
type added. Nothing keeps the other command from the file in the meantime.

* `RegisterPhase`, `Registrations.step`: the steps of the two commands on the
  shared file;
* `Racing`, `Following`: what the file and the two commands can look like before
  and after one of them has read what the other wrote;
* `BothKept`: the file has all types of before, and both new ones;
* `registrations_kept`: once both have succeeded this is so if one of them has
  read the file after the other had written it, and otherwise only where there was
  nothing to lose.
-/
import SharedStateAsync.Config.Race

namespace SharedStateAsync

open Machine

variable {D : Type}

/-! ### The two commands -/

/-- The two processes. -/
inductive Side where
  | left
  | right
  deriving DecidableEq, Repr

def Side.other : Side → Side
  | .left => .right
  | .right => .left

/-- The arguments of a `register` command. -/
structure RegisterArgs where
  typeName : StdString
  typeScope : StdString
  updateInterval : ℤ
  TTL : ℤ

/-- The configuration the command is to register. -/
def RegisterArgs.conf (args : RegisterArgs) : DataTypeConf :=
  ⟨args.typeName, args.typeScope, args.updateInterval, args.TTL⟩

/-- How far a command has come. -/
inductive RegisterPhase (D : Type) where
  | started
  /-- The constructor has read the file. -/
  | constructed (s : SharedState D)
  /-- `registerDataType` has read the file and made its text. -/
  | registered (text : StdString)
  /-- The file was opened, and is empty. -/
  | truncated (text : StdString)
  /-- The process has ended with `exit(0)`. -/
  | succeeded
  /-- The process has ended with an error. -/
  | exited

/-- The next step of a command on the file: its phase and the file afterwards.
`dir` is what it finds of the directory, the content of the file apart. The file is
not opened for appending, so that the text goes to its beginning. -/
def RegisterPhase.next (json : ConfJson) (dir : ConfDir) (args : RegisterArgs)
    (file : StdString) : RegisterPhase D → RegisterPhase D × StdString
  | .started =>
      match SharedState.loadRegisteredTypes json dir.errno (some file) ⟨∅, ∅, false⟩ with
      | .ok (_, s) => (.constructed s, file)
      | .error _ => (.exited, file)
  | .constructed s =>
      match s.registerDataType json { dir with content := some file } args.typeName
        args.typeScope args.updateInterval args.TTL with
      | .ok (_, text, _) => (.registered text, file)
      | .error _ => (.exited, file)
  | .registered text => (.truncated text, [])
  | .truncated text => (.succeeded, text ++ file.drop text.length)
  | .succeeded => (.succeeded, file)
  | .exited => (.exited, file)

/-- The file and the two commands. -/
structure Registrations (D : Type) where
  file : StdString
  phase : Side → RegisterPhase D := fun _ => .started

/-- One of the commands makes its next step. -/
def Registrations.step (json : ConfJson) (dir : Side → ConfDir) (args : Side → RegisterArgs)
    (r : Registrations D) (i : Side) : Registrations D where
  file := ((r.phase i).next json (dir i) (args i) r.file).2
  phase := Function.update r.phase i ((r.phase i).next json (dir i) (args i) r.file).1

/-- The file has every type of `oldConf`, and both types as their commands gave
them. -/
def BothKept (json : ConfJson) (oldConf : OrdMap StdString DataTypeConf)
    (args : Side → RegisterArgs) (file : StdString) : Prop :=
  ∃ conf mOk, json.load file = some (conf, mOk) ∧
    (∀ t : StdString, oldConf[t]?.isSome → conf[t]?.isSome) ∧
    ∀ i, conf[(args i).typeName]? = some (args i).conf

/-- A command is about to read the file in `registerDataType`, and the other has
written it. -/
def Registrations.ReadsWritten (r : Registrations D) (i : Side) : Prop :=
  r.phase i.other = .succeeded ∧ ∃ s, r.phase i = .constructed s

/-- In the interleaving, one of the commands reads the file in `registerDataType`
when the other has written it. -/
def ReadsAfterWrite (json : ConfJson) (dir : Side → ConfDir) (args : Side → RegisterArgs)
    (r : Registrations D) (sched : List Side) : Prop :=
  ∃ pre i, pre ++ [i] <+: sched ∧
    (run (Registrations.step json dir args) r pre).ReadsWritten i

/-! ### What the commands write -/

/-- The document of a configuration, with the newline after it. -/
def ConfJson.text (json : ConfJson) (conf : OrdMap StdString DataTypeConf) : StdString :=
  (json.print conf).1 ++ [10]

/-- What is known of the JSON of a configuration: it reads back as what was
printed, and with more text after it it does so or is refused. -/
structure ConfJson.ReadsBack (json : ConfJson) (conf : OrdMap StdString DataTypeConf) : Prop where
  load_text : json.load (json.text conf) = some (conf, true)
  load_more : ∀ more conf' mOk, json.load (json.text conf ++ more) = some (conf', mOk) →
    conf' = conf

/-- The configuration with the type of a command added. -/
def RegisterArgs.added (args : RegisterArgs) (conf : OrdMap StdString DataTypeConf) :
    OrdMap StdString DataTypeConf :=
  conf.insert args.typeName args.conf

section Texts

variable {json : ConfJson} {dir : ConfDir} {args : RegisterArgs} {s s' : SharedState D}
  {file text : StdString} {conf : OrdMap StdString DataTypeConf} {mOk : Bool}

/-- A command that cannot read the file writes what it knows of it. -/
lemma registerDataType_text_of_parseError (hload : json.load file = none)
    (hreg : s.registerDataType json { dir with content := some file } args.typeName
      args.typeScope args.updateInterval args.TTL = .ok (s', text, mOk)) :
    text = json.text (args.added s.mTypeConf) := by
  obtain ⟨-, -, -, rfl, htext, -⟩ := registerDataType_ok hreg
  rw [htext, tryLoad_of_parseError hload]
  rfl

/-- The constructor on a file that does not parse. -/
lemma next_started_of_parseError (hload : json.load file = none) :
    (.started : RegisterPhase D).next json dir args file = (.exited, file) := by
  rw [RegisterPhase.next, loadRegisteredTypes_of_parseError hload]

/-- The constructor on a file that does. -/
lemma next_started_of_load (dir : ConfDir) (args : RegisterArgs)
    (hload : json.load file = some (conf, mOk)) :
    ∃ s : SharedState D, s.mTypeConf = conf ∧
      RegisterPhase.next json dir args file .started = (.constructed s, file) := by
  rw [RegisterPhase.next, loadRegisteredTypes_of_load hload]
  exact ⟨_, rfl, rfl⟩

/-- The step that reads the file again. -/
lemma next_constructed (json : ConfJson) (dir : ConfDir) (args : RegisterArgs) (file : StdString)
    (s : SharedState D) :
    (.constructed s : RegisterPhase D).next json dir args file = (.exited, file) ∨
      ∃ text, (.constructed s : RegisterPhase D).next json dir args file
          = (.registered text, file) ∧
        (json.load file = none → text = json.text (args.added s.mTypeConf)) ∧
        ∀ conf, json.load file = some (conf, true) → text = json.text (args.added conf) := by
  rw [RegisterPhase.next]
  cases hreg : s.registerDataType json { dir with content := some file } args.typeName
      args.typeScope args.updateInterval args.TTL with
  | error e => exact Or.inl rfl
  | ok result =>
      obtain ⟨s', text, mOk⟩ := result
      refine Or.inr ⟨text, rfl, fun hload => registerDataType_text_of_parseError hload hreg, ?_⟩
      exact fun conf hload => registerDataType_text rfl hload hreg

end Texts

/-! ### The interleavings -/

@[simp] lemma Side.other_other (i : Side) : i.other.other = i := by
  cases i <;> rfl

lemma Side.other_ne (i : Side) : i.other ≠ i := by
  cases i <;> decide

lemma Side.eq_or_eq_other (i j : Side) : j = i ∨ j = i.other := by
  cases i <;> cases j <;> decide

section Steps

variable {json : ConfJson} {dir : Side → ConfDir} {args : Side → RegisterArgs}
  {r : Registrations D} {i : Side} {phase phase' : RegisterPhase D} {file : StdString}

lemma step_eq (hphase : r.phase i = phase)
    (hnext : phase.next json (dir i) (args i) r.file = (phase', file)) :
    r.step json dir args i = ⟨file, Function.update r.phase i phase'⟩ := by
  rw [Registrations.step, hphase, hnext]

lemma step_registered {text : StdString} (h : r.phase i = .registered text) :
    r.step json dir args i = ⟨[], Function.update r.phase i (.truncated text)⟩ := by
  rw [Registrations.step, h]
  rfl

lemma step_truncated {text : StdString} (h : r.phase i = .truncated text) :
    r.step json dir args i
      = ⟨text ++ r.file.drop text.length, Function.update r.phase i .succeeded⟩ := by
  rw [Registrations.step, h]
  rfl

/-- A command that has ended makes no steps. -/
lemma step_ended (h : r.phase i = .succeeded ∨ r.phase i = .exited) :
    r.step json dir args i = r := by
  have hnext : (r.phase i).next json (dir i) (args i) r.file = (r.phase i, r.file) := by
    rcases h with h | h
    · rw [h]
      rfl
    · rw [h]
      rfl
  rw [Registrations.step, hnext, Function.update_eq_self]

end Steps

section Shapes

variable (json : ConfJson) (oldText : StdString) (oldConf : OrdMap StdString DataTypeConf)
  (args : Side → RegisterArgs)

/-- What a command writes that knows of the old configuration only. -/
def ownText (i : Side) : StdString := json.text ((args i).added oldConf)

/-- What a command writes that has read what the other wrote. -/
def bothText (i : Side) : StdString :=
  json.text ((args i).added ((args i.other).added oldConf))

/-- A command that has not opened the file yet, and knows of the old configuration
only. -/
inductive Waiting (i : Side) : RegisterPhase D → Prop
  | started : Waiting i .started
  | constructed (s : SharedState D) (h : s.mTypeConf = oldConf) : Waiting i (.constructed s)
  | registered : Waiting i (.registered (ownText json oldConf args i))
  | exited : Waiting i .exited

/-- A command that has not read what the other wrote, and may be about to. -/
inductive Late (i : Side) : RegisterPhase D → Prop
  | started : Late i .started
  | constructed (s : SharedState D) : Late i (.constructed s)
  | registered : Late i (.registered (ownText json oldConf args i))
  | truncated : Late i (.truncated (ownText json oldConf args i))
  | exited : Late i .exited

/-- Neither command has read what the other wrote. -/
inductive Racing (r : Registrations D) : Prop
  | untouched (hfile : r.file = oldText) (h : ∀ i, Waiting json oldConf args i (r.phase i))
  | emptied (i : Side) (hfile : r.file = [])
      (h : r.phase i = .truncated (ownText json oldConf args i))
      (h' : Waiting json oldConf args i.other (r.phase i.other) ∨
        r.phase i.other = .truncated (ownText json oldConf args i.other))
  | written (i : Side) (hfile : r.file = ownText json oldConf args i)
      (h : r.phase i = .succeeded) (h' : Late json oldConf args i.other (r.phase i.other))
  | emptiedAgain (i : Side) (hfile : r.file = []) (h : r.phase i = .succeeded)
      (h' : r.phase i.other = .truncated (ownText json oldConf args i.other))
  | overwritten (i : Side) (more : StdString) (hfile : r.file = ownText json oldConf args i ++ more)
      (h : ∀ j, r.phase j = .succeeded)

/-- One command has read what the other wrote. -/
inductive Following (r : Registrations D) : Prop
  | exited (i : Side) (h : r.phase i.other = .succeeded) (h' : r.phase i = .exited)
  | registered (i : Side) (hfile : r.file = ownText json oldConf args i.other)
      (h : r.phase i.other = .succeeded)
      (h' : r.phase i = .registered (bothText json oldConf args i))
  | truncated (i : Side) (hfile : r.file = []) (h : r.phase i.other = .succeeded)
      (h' : r.phase i = .truncated (bothText json oldConf args i))
  | succeeded (i : Side) (hfile : r.file = bothText json oldConf args i)
      (h : ∀ j, r.phase j = .succeeded)

end Shapes

section Kept

variable {json : ConfJson} {oldText : StdString} {oldConf : OrdMap StdString DataTypeConf}
  {dir : Side → ConfDir} {args : Side → RegisterArgs} {r : Registrations D}

lemma Waiting.late {i : Side} {phase : RegisterPhase D} (h : Waiting json oldConf args i phase) :
    Late json oldConf args i phase := by
  cases h with
  | started => exact .started
  | constructed s _ => exact .constructed s
  | registered => exact .registered
  | exited => exact .exited

/-- Both have succeeded, once one has and the other does. -/
lemma update_succeeded {i : Side} {phase : Side → RegisterPhase D} (h : phase i.other = .succeeded)
    (j : Side) : Function.update phase i .succeeded j = .succeeded := by
  rcases i.eq_or_eq_other j with rfl | rfl
  · exact Function.update_self _ _ _
  · rw [Function.update_of_ne i.other_ne, h]

/-- One that has read what the other wrote goes on. -/
lemma Following.step (h : Following json oldConf args r) (j : Side) :
    Following json oldConf args (r.step json dir args j) := by
  cases h with
  | exited i h h' =>
      rcases i.eq_or_eq_other j with rfl | rfl
      · rw [step_ended (Or.inr h')]
        exact .exited j h h'
      · rw [step_ended (Or.inl h)]
        exact .exited i h h'
  | registered i hfile h h' =>
      rcases i.eq_or_eq_other j with rfl | rfl
      · rw [step_registered h']
        exact .truncated j rfl ((Function.update_of_ne j.other_ne _ _).trans h)
          (Function.update_self _ _ _)
      · rw [step_ended (Or.inl h)]
        exact .registered i hfile h h'
  | truncated i hfile h h' =>
      rcases i.eq_or_eq_other j with rfl | rfl
      · rw [step_truncated h', hfile, List.drop_nil, List.append_nil]
        exact .succeeded j rfl (update_succeeded h)
      · rw [step_ended (Or.inl h)]
        exact .truncated i hfile h h'
  | succeeded i hfile h =>
      rw [step_ended (Or.inl (h j))]
      exact .succeeded i hfile h

/-- A command that has not opened the file makes a step while the file has the old
text or does not parse: it goes on waiting, or it truncates the file. -/
lemma Waiting.step (dir : Side → ConfDir) {i : Side} (h : Waiting json oldConf args i (r.phase i))
    (hfile : json.load r.file = some (oldConf, true) ∨ json.load r.file = none) :
    (∃ phase, r.step json dir args i = ⟨r.file, Function.update r.phase i phase⟩ ∧
        Waiting json oldConf args i phase) ∨
      r.step json dir args i
        = ⟨[], Function.update r.phase i (.truncated (ownText json oldConf args i))⟩ := by
  generalize hphase : r.phase i = phase at h
  cases h with
  | started =>
      rcases hfile with hload | hload
      · obtain ⟨s, hs, hnext⟩ := next_started_of_load (D := D) (dir i) (args i) hload
        refine Or.inl ⟨_, step_eq hphase hnext, .constructed s hs⟩
      · exact Or.inl ⟨_, step_eq hphase (next_started_of_parseError hload), .exited⟩
  | constructed s hs =>
      rcases next_constructed json (dir i) (args i) r.file s with
        hnext | ⟨text, hnext, hnone, hsome⟩
      · exact Or.inl ⟨_, step_eq hphase hnext, .exited⟩
      · have htext : text = ownText json oldConf args i := by
          rcases hfile with hload | hload
          · exact hsome oldConf hload
          · rw [hnone hload, hs, ownText]
        rw [htext] at hnext
        exact Or.inl ⟨_, step_eq hphase hnext, .registered⟩
  | registered => exact Or.inr (step_registered hphase)
  | exited =>
      refine Or.inl ⟨.exited, ?_, .exited⟩
      rw [step_ended (Or.inr hphase), ← hphase, Function.update_eq_self]

lemma not_readsWritten {i : Side} {phase : RegisterPhase D} (hphase : r.phase i = phase)
    (hne : ∀ s, phase ≠ .constructed s) : ¬ r.ReadsWritten i := by
  rintro ⟨-, s, hs⟩
  exact hne s (hphase.symm.trans hs)

lemma Waiting.ne_succeeded {i : Side} {phase : RegisterPhase D}
    (h : Waiting json oldConf args i phase) : phase ≠ .succeeded := by
  rintro rfl
  cases h

/-- A command makes a step after the other has written its text. -/
lemma Late.step {i : Side} (hback : json.ReadsBack ((args i).added oldConf))
    (h : Late json oldConf args i.other (r.phase i.other)) (hi : r.phase i = .succeeded)
    (hfile : r.file = ownText json oldConf args i) :
    r.ReadsWritten i.other ∧ Following json oldConf args (r.step json dir args i.other) ∨
      ¬ r.ReadsWritten i.other ∧
        Racing json oldText oldConf args (r.step json dir args i.other) := by
  have hload : json.load r.file = some ((args i).added oldConf, true) := by
    rw [hfile]
    exact hback.load_text
  have hkept : ∀ phase, Function.update r.phase i.other phase i = .succeeded := fun phase =>
    (Function.update_of_ne i.other_ne.symm _ _).trans hi
  generalize hphase : r.phase i.other = phase at h
  have hnot : (∀ s, phase ≠ .constructed s) → ¬ r.ReadsWritten i.other :=
    not_readsWritten hphase
  cases h with
  | started =>
      obtain ⟨s, -, hnext⟩ := next_started_of_load (D := D) (dir i.other) (args i.other) hload
      refine Or.inr ⟨hnot (by rintro s ⟨⟩), ?_⟩
      rw [step_eq hphase hnext]
      refine .written i hfile (hkept _) ?_
      simp only [Function.update_self]
      exact .constructed s
  | constructed s =>
      refine Or.inl ⟨⟨by rwa [Side.other_other], s, hphase⟩, ?_⟩
      rcases next_constructed json (dir i.other) (args i.other) r.file s with
        hnext | ⟨text, hnext, -, hsome⟩
      · rw [step_eq hphase hnext]
        refine .exited i.other ?_ (Function.update_self _ _ _)
        rw [Side.other_other]
        exact hkept _
      · have htext : text = bothText json oldConf args i.other := by
          rw [hsome _ hload, bothText, Side.other_other]
        rw [step_eq hphase hnext, htext]
        refine .registered i.other ?_ ?_ (Function.update_self _ _ _)
        · rw [Side.other_other]
          exact hfile
        · rw [Side.other_other]
          exact hkept _
  | registered =>
      refine Or.inr ⟨hnot (by rintro s ⟨⟩), ?_⟩
      rw [step_registered hphase]
      exact .emptiedAgain i rfl (hkept _) (Function.update_self _ _ _)
  | truncated =>
      refine Or.inr ⟨hnot (by rintro s ⟨⟩), ?_⟩
      rw [step_truncated hphase]
      exact .overwritten i.other _ rfl (update_succeeded (by rwa [Side.other_other]))
  | exited =>
      refine Or.inr ⟨hnot (by rintro s ⟨⟩), ?_⟩
      rw [step_ended (Or.inr hphase)]
      refine .written i hfile hi ?_
      rw [hphase]
      exact .exited

/-- A step of the race: it goes on, or one command reads what the other wrote. -/
lemma Racing.step (hold : json.load oldText = some (oldConf, true)) (hnil : json.load [] = none)
    (hback : ∀ i, json.ReadsBack ((args i).added oldConf)) (h : Racing json oldText oldConf args r)
    (j : Side) :
    r.ReadsWritten j ∧ Following json oldConf args (r.step json dir args j) ∨
      ¬ r.ReadsWritten j ∧ Racing json oldText oldConf args (r.step json dir args j) := by
  cases h with
  | untouched hfile h =>
      refine Or.inr ⟨fun hreads => (h j.other).ne_succeeded hreads.1, ?_⟩
      rcases (h j).step dir (Or.inl (by rw [hfile]; exact hold)) with
        ⟨phase, hstep, hphase⟩ | hstep
      · rw [hstep]
        refine .untouched hfile fun i => ?_
        rcases j.eq_or_eq_other i with rfl | rfl
        · simpa only [Function.update_self] using hphase
        · simpa only [Function.update_of_ne j.other_ne] using h j.other
      · rw [hstep]
        refine .emptied j rfl (Function.update_self _ _ _) (Or.inl ?_)
        simpa only [Function.update_of_ne j.other_ne] using h j.other
  | emptied i hfile h h' =>
      rcases i.eq_or_eq_other j with rfl | rfl
      · -- the first text is written
        refine Or.inr ⟨not_readsWritten h (by rintro s ⟨⟩), ?_⟩
        rw [step_truncated h, hfile, List.drop_nil, List.append_nil]
        refine .written j rfl (Function.update_self _ _ _) ?_
        simp only [Function.update_of_ne j.other_ne]
        rcases h' with hwaiting | htruncated
        · exact hwaiting.late
        · rw [htruncated]
          exact .truncated
      · have hkept : ∀ phase, Function.update r.phase i.other phase i
            = .truncated (ownText json oldConf args i) := fun phase =>
          (Function.update_of_ne i.other_ne.symm _ _).trans h
        refine Or.inr ⟨?_, ?_⟩
        · rintro ⟨hsucceeded, -⟩
          rw [Side.other_other, h] at hsucceeded
          cases hsucceeded
        rcases h' with hwaiting | htruncated
        · rcases hwaiting.step dir (Or.inr (by rw [hfile]; exact hnil)) with
            ⟨phase, hstep, hphase⟩ | hstep
          · rw [hstep]
            refine .emptied i hfile (hkept _) (Or.inl ?_)
            simpa only [Function.update_self] using hphase
          · rw [hstep]
            exact .emptied i rfl (hkept _) (Or.inr (Function.update_self _ _ _))
        · rw [step_truncated htruncated, hfile, List.drop_nil, List.append_nil]
          refine .written i.other rfl (Function.update_self _ _ _) ?_
          simp only [Side.other_other, hkept]
          exact .truncated
  | written i hfile h h' =>
      rcases i.eq_or_eq_other j with rfl | rfl
      · refine Or.inr ⟨not_readsWritten h (by rintro s ⟨⟩), ?_⟩
        rw [step_ended (Or.inl h)]
        exact .written j hfile h h'
      · exact h'.step (hback i) h hfile
  | emptiedAgain i hfile h h' =>
      rcases i.eq_or_eq_other j with rfl | rfl
      · refine Or.inr ⟨not_readsWritten h (by rintro s ⟨⟩), ?_⟩
        rw [step_ended (Or.inl h)]
        exact .emptiedAgain j hfile h h'
      · refine Or.inr ⟨not_readsWritten h' (by rintro s ⟨⟩), ?_⟩
        rw [step_truncated h']
        exact .overwritten i.other _ rfl (update_succeeded (by rwa [Side.other_other]))
  | overwritten i more hfile h =>
      refine Or.inr ⟨not_readsWritten (h j) (by rintro s ⟨⟩), ?_⟩
      rw [step_ended (Or.inl (h j))]
      exact .overwritten i more hfile h

/-- One more step of the interleaving. -/
lemma readsAfterWrite_concat {r₀ : Registrations D} {pre : List Side} {i : Side} :
    ReadsAfterWrite json dir args r₀ (pre ++ [i]) ↔
      ReadsAfterWrite json dir args r₀ pre ∨
        (run (Registrations.step json dir args) r₀ pre).ReadsWritten i := by
  constructor
  · rintro ⟨pre', i', hpre, hreads⟩
    rcases List.prefix_concat_iff.mp hpre with heq | hpre'
    · obtain ⟨rfl, hi⟩ := List.append_inj' heq rfl
      obtain rfl := List.singleton_inj.mp hi
      exact Or.inr hreads
    · exact Or.inl ⟨pre', i', hpre', hreads⟩
  · rintro (⟨pre', i', hpre, hreads⟩ | hreads)
    · exact ⟨pre', i', hpre.trans (List.prefix_append _ _), hreads⟩
    · exact ⟨pre, i, List.prefix_rfl, hreads⟩

/-- What an interleaving of the two commands leads to. -/
theorem registrations_cases {r₀ : Registrations D} (hstart : ∀ i, r₀.phase i = .started)
    (hold : json.load r₀.file = some (oldConf, true)) (hnil : json.load [] = none)
    (hback : ∀ i, json.ReadsBack ((args i).added oldConf)) (dir : Side → ConfDir)
    (sched : List Side) :
    let r := run (Registrations.step json dir args) r₀ sched
    ReadsAfterWrite json dir args r₀ sched ∧ Following json oldConf args r ∨
      ¬ ReadsAfterWrite json dir args r₀ sched ∧ Racing json r₀.file oldConf args r := by
  induction sched using List.reverseRecOn with
  | nil =>
      refine Or.inr ⟨?_, .untouched rfl fun i => ?_⟩
      · rintro ⟨pre, i, hpre, -⟩
        exact absurd hpre.length_le (by simp)
      · rw [run, List.foldl_nil, hstart i]
        exact .started
  | append_singleton pre i ih =>
      rw [run_concat, readsAfterWrite_concat]
      rcases ih with ⟨hreads, hfollowing⟩ | ⟨hreads, hracing⟩
      · exact Or.inl ⟨Or.inl hreads, hfollowing.step i⟩
      · rcases hracing.step hold hnil hback i with ⟨hnow, hfollowing⟩ | ⟨hnow, hracing'⟩
        · exact Or.inl ⟨Or.inr hnow, hfollowing⟩
        · exact Or.inr ⟨not_or.mpr ⟨hreads, hnow⟩, hracing'⟩

lemma added_getElem? (a : RegisterArgs) (conf : OrdMap StdString DataTypeConf) (t : StdString) :
    (a.added conf)[t]? = if a.typeName = t then some a.conf else conf[t]? :=
  OrdMap.getElem?_insert_eq _ _ _ _

/-- A file with the text of the command that followed the other has both types. -/
lemma bothKept_bothText {i : Side} (hne : (args i).typeName ≠ (args i.other).typeName)
    (hboth : json.ReadsBack ((args i).added ((args i.other).added oldConf))) :
    BothKept json oldConf args (bothText json oldConf args i) := by
  refine ⟨_, _, hboth.load_text, fun t ht => ?_, fun j => ?_⟩
  · rw [added_getElem?, added_getElem?]
    split_ifs
    · rfl
    · rfl
    · exact ht
  · rcases i.eq_or_eq_other j with rfl | rfl
    · rw [added_getElem?, if_pos rfl]
    · rw [added_getElem?, if_neg hne, added_getElem?, if_pos rfl]

/-- A file with the text of a command that knew of the old configuration only has the
other type as it was. -/
lemma BothKept.of_ownText {i : Side} {more : StdString}
    (hne : (args i).typeName ≠ (args i.other).typeName)
    (hback : json.ReadsBack ((args i).added oldConf))
    (h : BothKept json oldConf args (ownText json oldConf args i ++ more)) :
    oldConf[(args i.other).typeName]? = some (args i.other).conf := by
  obtain ⟨conf, mOk, hload, -, htypes⟩ := h
  obtain rfl := hback.load_more more conf mOk hload
  have hother := htypes i.other
  rwa [added_getElem?, if_neg hne] at hother

/-- **Two registrations at the same time.** For every valid configuration and every
interleaving of two `register` commands for different types: once both have
succeeded, the file has the types of before and both new ones if one of the
commands has read it after the other had written it; and, unless one of the types
was registered like that before, only then. -/
theorem registrations_kept {r₀ : Registrations D} (hstart : ∀ i, r₀.phase i = .started)
    (hold : json.load r₀.file = some (oldConf, true)) (hnil : json.load [] = none)
    (hback : ∀ i, json.ReadsBack ((args i).added oldConf))
    (hboth : ∀ i, json.ReadsBack ((args i).added ((args i.other).added oldConf)))
    (hne : ∀ i, (args i).typeName ≠ (args i.other).typeName) (dir : Side → ConfDir)
    (sched : List Side) :
    let r := run (Registrations.step json dir args) r₀ sched
    (∀ i, r.phase i = .succeeded) →
      (ReadsAfterWrite json dir args r₀ sched → BothKept json oldConf args r.file) ∧
      ((∀ i, oldConf[(args i).typeName]? ≠ some (args i).conf) →
        BothKept json oldConf args r.file → ReadsAfterWrite json dir args r₀ sched) := by
  intro r hdone
  rcases registrations_cases hstart hold hnil hback dir sched with
    ⟨hreads, hfollowing⟩ | ⟨hreads, hracing⟩
  · refine ⟨fun _ => ?_, fun _ _ => hreads⟩
    cases hfollowing with
    | exited i _ h' => cases (hdone i).symm.trans h'
    | registered i _ _ h' => cases (hdone i).symm.trans h'
    | truncated i _ _ h' => cases (hdone i).symm.trans h'
    | succeeded i hfile _ =>
        rw [hfile]
        exact bothKept_bothText (hne i) (hboth i)
  · refine ⟨fun hreads' => absurd hreads' hreads, fun hnew hkept => ?_⟩
    cases hracing with
    | untouched _ h =>
        exact absurd (hdone .left) (h .left).ne_succeeded
    | emptied i _ h _ => cases (hdone i).symm.trans h
    | written i _ _ h' =>
        rw [hdone i.other] at h'
        cases h'
    | emptiedAgain i _ _ h' => cases (hdone i.other).symm.trans h'
    | overwritten i more hfile _ =>
        rw [hfile] at hkept
        exact absurd (hkept.of_ownText (hne i) (hback i)) (hnew i.other)

end Kept

/-! ### Two commands on an empty configuration -/

/-- The text of a type of scope `c`, updated every 30 s and bleached after 300 s. -/
def typeText (name : StdString) : StdString :=
  bytes "\x7b\"key\":\"" ++ name ++ bytes "\",\"value\":\x7b\"mName\":\"" ++ name ++
  bytes "\",\"mScope\":\"c\",\"mUpdateInterval\":\x7b\"xint64\":30,\"xstr64\":\"30\"\x7d," ++
  bytes "\"mBleachTTL\":\x7b\"xint64\":300,\"xstr64\":\"300\"\x7d\x7d\x7d"

/-- The document of such types. -/
def namesDocument (names : List StdString) : StdString :=
  bytes "\x7b\"mTypeConf\":[" ++ ((names.map typeText).intersperse (bytes ",")).flatten ++
  bytes "]\x7d"

def namedTypes (names : List StdString) : OrdMap StdString DataTypeConf :=
  names.foldl (fun conf name => conf.insert name ⟨name, bytes "c", 30, 300⟩) ∅

/-- The configurations that two commands for `t` and `u` can lead to. -/
def sampleNames : List (List StdString) :=
  [[], [bytes "t"], [bytes "u"], [bytes "t", bytes "u"]]

/-- The JSON of these documents. -/
def namesJson : ConfJson where
  load := fun text => sampleNames.findSome? fun names =>
    if text = namesDocument names ∨ text = namesDocument names ++ [10]
    then some (namedTypes names, true) else none
  print := fun conf => (namesDocument conf.keys, true)

/-- The commands for `t` and `u`. -/
def sampleArgs : Side → RegisterArgs
  | .left => ⟨bytes "t", bytes "c", 30, 300⟩
  | .right => ⟨bytes "u", bytes "c", 30, 300⟩

/-- The file is there and can be written. -/
def sampleDir : Side → ConfDir := fun _ => ⟨none, .other 0, none, true⟩

/-- The two commands before they start, on a file without types. -/
def sampleStart : Registrations ℕ where
  file := namesDocument []

/-- The second command starts when the first has ended. -/
def oneAfterTheOther : List Side :=
  [.left, .left, .left, .left, .right, .right, .right, .right]

/-- Both commands read the file before either writes it. -/
def bothReadFirst : List Side :=
  [.left, .left, .right, .right, .left, .left, .right, .right]

def RegisterPhase.isSucceeded : RegisterPhase D → Bool
  | .succeeded => true
  | _ => false

def RegisterPhase.isConstructed : RegisterPhase D → Bool
  | .constructed _ => true
  | _ => false

lemma eq_succeeded {phase : RegisterPhase D} (h : phase.isSucceeded) : phase = .succeeded := by
  cases phase with
  | succeeded => rfl
  | _ => cases h

lemma exists_constructed {phase : RegisterPhase D} (h : phase.isConstructed) :
    ∃ s, phase = .constructed s := by
  cases phase with
  | constructed s => exact ⟨s, rfl⟩
  | _ => cases h

/-- A configuration reads back if it does as it was printed, and no other document
starts like its text. -/
lemma namesJson_readsBack {conf : OrdMap StdString DataTypeConf}
    (htext : namesJson.load (namesJson.text conf) = some (conf, true))
    (hstart : ∀ names ∈ sampleNames, namesJson.text conf <+: namesDocument names ++ [10] →
      namedTypes names = conf) : namesJson.ReadsBack conf where
  load_text := htext
  load_more := by
    intro more conf' mOk hload
    obtain ⟨names, hmem, hnames⟩ := List.exists_of_findSome?_eq_some hload
    split_ifs at hnames with hdocument
    have hconf := (Prod.mk.inj (Option.some.inj hnames)).1
    rw [← hconf]
    refine hstart names hmem ?_
    rcases hdocument with heq | heq
    · rw [← heq, List.append_assoc]
      exact List.prefix_append _ _
    · rw [← heq]
      exact List.prefix_append _ _

lemma sampleArgs_readsBack (i : Side) :
    namesJson.ReadsBack ((sampleArgs i).added ∅) ∧
      namesJson.ReadsBack ((sampleArgs i).added ((sampleArgs i.other).added ∅)) := by
  cases i with
  | left =>
      exact ⟨namesJson_readsBack (by decide +kernel) (by decide +kernel),
        namesJson_readsBack (by decide +kernel) (by decide +kernel)⟩
  | right =>
      exact ⟨namesJson_readsBack (by decide +kernel) (by decide +kernel),
        namesJson_readsBack (by decide +kernel) (by decide +kernel)⟩

/-- Two commands one after the other are both kept. -/
theorem registrations_kept_oneAfterTheOther :
    let r := run (Registrations.step namesJson sampleDir sampleArgs) sampleStart oneAfterTheOther
    (∀ i, r.phase i = .succeeded) ∧ BothKept namesJson ∅ sampleArgs r.file := by
  intro r
  have hdone : ∀ i, r.phase i = .succeeded := by
    intro i
    cases i with
    | left => exact eq_succeeded (by decide +kernel)
    | right => exact eq_succeeded (by decide +kernel)
  have hstart : ∀ i, sampleStart.phase i = .started := fun _ => rfl
  have hkept := registrations_kept hstart (by decide +kernel) (by decide +kernel)
    (fun i => (sampleArgs_readsBack i).1) (fun i => (sampleArgs_readsBack i).2)
    (by intro i; cases i <;> decide +kernel) sampleDir oneAfterTheOther hdone
  exact ⟨hdone, hkept.1 ⟨[.left, .left, .left, .left, .right], .right, by decide,
    eq_succeeded (by decide +kernel), exists_constructed (by decide +kernel)⟩⟩

/-- Two commands that both read first: both succeed, and the first registration is
lost. -/
theorem not_bothKept_bothReadFirst :
    let r := run (Registrations.step namesJson sampleDir sampleArgs) sampleStart bothReadFirst
    (∀ i, r.phase i = .succeeded) ∧ ¬ BothKept namesJson ∅ sampleArgs r.file := by
  intro r
  refine ⟨fun i => ?_, ?_⟩
  · cases i with
    | left => exact eq_succeeded (by decide +kernel)
    | right => exact eq_succeeded (by decide +kernel)
  · rintro ⟨conf, mOk, hload, -, htypes⟩
    have hfile : namesJson.load r.file = some (namedTypes [bytes "u"], true) := by decide +kernel
    obtain ⟨rfl, -⟩ := Prod.mk.inj (Option.some.inj (hfile.symm.trans hload))
    exact absurd (htypes .left) (by decide +kernel)

end SharedStateAsync
