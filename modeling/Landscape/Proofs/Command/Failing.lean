import Landscape.Command.Run
import Landscape.Proofs.Interchange.Failures
import Landscape.Proofs.Storage.Files

/-!
# Runs that cannot read their input

Before a run reads its input, it takes its settings together. If this goes well, an input that
cannot be read is what ends the run, and the error line says so if the error is one that is
reported. Every run that fails has exit code one.
-/

namespace Landscape.Command

variable {α β : Type} {o : Options} {env : Environment} {files : Files} {e : Error}
variable {level : LogLevel}

/-- A step is followed by another one if it goes well, and ends the run otherwise. -/
theorem Step.run_bind (x : Step α) (f : α → Step β) (t : Transcript) :
    (x >>= f).run t =
      match x.run t with
      | (.ok a, t') => (f a).run t'
      | (.error e, t') => (.error e, t') := by
  change (ExceptT.bindCont f (x.run t).1).run (x.run t).2 = _
  generalize x.run t = outcome
  obtain ⟨r, t'⟩ := outcome
  cases r with
  | ok a => rfl
  | error e => rfl

/-- What does not look at the transcript leaves it as it is. -/
theorem Step.run_lift_bind {r : Except Error α} {a : α} (h : r = .ok a) (f : α → Step β)
    (t : Transcript) : ((liftM r : Step α) >>= f).run t = (f a).run t := by
  rw [h]
  rfl

/-- Where steps that do not look at the transcript fail, a run that begins with them fails alike. -/
theorem Step.exists_run_lift_bind {γ : Type} {r : Except Error α} {g : α → Except Error γ}
    {f : α → Step β} {t : Transcript} (h : (r >>= g) = .error e)
    (hf : ∀ a, g a = .error e → ∃ t', (f a).run t = (.error e, t')) :
    ∃ t', ((liftM r : Step α) >>= f).run t = (.error e, t') := by
  cases r with
  | error e' =>
    cases h
    exact ⟨t, rfl⟩
  | ok a =>
    rw [Step.run_lift_bind rfl]
    exact hf a h

/-- The transcript may be changed in between. -/
theorem Step.run_modify_bind (change : Transcript → Transcript) (f : Unit → Step β)
    (t : Transcript) : ((modify change : Step Unit) >>= f).run t = (f ()).run (change t) := rfl

/-- The transcript may be looked at. -/
theorem Step.run_get_bind (f : Transcript → Step β) (t : Transcript) :
    ((get : Step Transcript) >>= f).run t = (f t).run t := rfl

/-- A file that holds no model is noted in the log before it fails. -/
theorem run_readInput_of_load_error {path : Text} {t : Transcript}
    (hsuffix : Path.lowerSuffix path = ".json") (hlevel : t.level = some level)
    (hload : Model.load t.files path = .error e) :
    (readInput path).run t =
      (.error e, { t with messages :=
        t.messages ++ logLine level .info .interchange ("Loading model from " ++ path) }) := by
  unfold readInput Step.log
  rw [if_pos (by rw [hsuffix]; exact beq_self_eq_true _), Step.run_modify_bind, Step.run_get_bind]
  rw [hlevel]
  change (Model.load t.files path, _) = _
  rw [hload]

/-- What is taken together before the input is read: it sets the level of log lines. -/
def prepare (o : Options) (env : Environment) (files : Files) : Except Error LogLevel := do
  let settings ← Settings.ofEnvironment env
  let level ← resolveLevel o settings
  let thresholds ← resolveThresholds o settings files
  let _ ← thresholds.check
  let _ ← Layout.Plan.ofRequest (layoutRequest o settings)
  return level

/-- A run ends with an error in its preparation. -/
theorem run_stages_of_prepare_error (h : prepare o env files = .error e) (entropy : Nat) :
    ∃ t, (stages o env entropy).run { files } = (.error e, t) := by
  unfold prepare at h
  unfold stages
  refine Step.exists_run_lift_bind h fun settings h => Step.exists_run_lift_bind h fun level h => ?_
  rw [Step.run_modify_bind, Step.run_get_bind]
  refine Step.exists_run_lift_bind h fun thresholds h => Step.exists_run_lift_bind h fun limits h =>
    Step.exists_run_lift_bind h fun plan h => ?_
  cases h

/-- After its preparation, a run ends with the error of an input that cannot be read. -/
theorem run_stages_of_load_error (h : prepare o env files = .ok level)
    (hsuffix : Path.lowerSuffix o.input = ".json") (hload : Model.load files o.input = .error e)
    (entropy : Nat) :
    (stages o env entropy).run { files } =
      (.error e, {
        files
        level := some level
        messages := logLine level .info .interchange ("Loading model from " ++ o.input) }) := by
  unfold prepare at h
  obtain ⟨settings, hsettings, h⟩ := bind_eq_ok_iff.mp h
  obtain ⟨level, hlevel, h⟩ := bind_eq_ok_iff.mp h
  obtain ⟨thresholds, hthresholds, h⟩ := bind_eq_ok_iff.mp h
  obtain ⟨limits, hlimits, h⟩ := bind_eq_ok_iff.mp h
  obtain ⟨plan, hplan, h⟩ := bind_eq_ok_iff.mp h
  obtain rfl := Except.ok.inj h
  unfold stages
  have hread := run_readInput_of_load_error (t := { files, level := some level }) hsuffix rfl hload
  rw [Step.run_lift_bind hsettings, Step.run_lift_bind hlevel, Step.run_modify_bind,
    Step.run_get_bind, Step.run_lift_bind hthresholds, Step.run_lift_bind hlimits,
    Step.run_lift_bind hplan, Step.run_bind, hread]
  rfl

/-- A run in which a stage fails ends with exit code one and the error. -/
theorem run_of_error {t : Transcript} {entropy : Nat}
    (h : (stages o env entropy).run { files } = (.error e, t)) :
    run o env files entropy = ⟨1, if e.isReported then
      { t with messages := t.messages ++ failureText o t e } else t, some e⟩ := by
  unfold run
  rw [h]
  dsimp only
  split
  · rfl
  · rfl

/-- Reading a document as a model fails with an error about malformed contents, unless a number in it
is too large for a double or a field cannot be spelled. Loading a file fails so, whatever is in it,
unless such a number is in it or its text is refused. A run with such an input has exit code one. If
its preparation goes well, it ends with the error of the input, and with an error line that says what
is malformed. -/
theorem failures_of_input {path : Text} {bytes : List UInt8}
    (hfile : files.read path = .ok bytes) :
    (∀ d, FailsAs d.Escapes (Model.ofJson d)) ∧
      FailsAs (Model.Escapes bytes) (Model.load files path) ∧
      ∀ (o : Options) (env : Environment) (entropy : Nat) (e : Error),
        o.input = path → Path.lowerSuffix path = ".json" → Model.load files path = .error e →
        (run o env files entropy).code = 1 ∧
          ∀ level, prepare o env files = .ok level →
            (run o env files entropy).error = some e ∧
              (e.IsMalformed → ∃ before after, (run o env files entropy).transcript.messages =
                before ++ (Console.line ("Error: " ++ e.message) ++ after)) := by
  refine ⟨Model.failsAs_ofJson, ?_, ?_⟩
  · rw [Model.load_eq hfile]
    exact Model.failsAs_ofBytes path bytes
  · rintro o env entropy e rfl hsuffix hload
    cases hprepare : prepare o env files with
    | error e' =>
      obtain ⟨t, hstages⟩ := run_stages_of_prepare_error hprepare entropy
      rw [run_of_error hstages]
      exact ⟨rfl, nofun⟩
    | ok level =>
      rw [run_of_error (run_stages_of_load_error hprepare hsuffix hload entropy)]
      refine ⟨rfl, fun _ _ => ⟨rfl, ?_⟩⟩
      rintro ⟨cause, rfl⟩
      exact ⟨_, _, rfl⟩

/-- A file that ends too early ends a run with an error line. -/
theorem failures_of_input_of_bracket :
    ({ contents := [(["m.json"], [0x5b])] } : Files).read "m.json" = .ok [0x5b] ∧
      ∃ before after,
        (run { input := "m.json" } []
          { contents := [(["m.json"], [0x5b])] } 0).transcript.messages =
          before ++ (Console.line ("Error: " ++ (Error.malformed (.invalidJson "m.json"
            "Expecting value: line 1 column 2 (char 1)")).message) ++ after) := by
  have hfile : ({ contents := [(["m.json"], [0x5b])] } : Files).read "m.json" = .ok [0x5b] := rfl
  have hchars : Files.strictChars [0x5b] = .ok ['['] :=
    Files.strictChars_encode (by simp) (by simp) rfl
  have hload : Model.load { contents := [(["m.json"], [0x5b])] } "m.json" =
      .error (.malformed (.invalidJson "m.json" "Expecting value: line 1 column 2 (char 1)")) := by
    rw [Model.load_eq hfile, Model.ofBytes, Json.ofBytes, hchars]
    rfl
  obtain ⟨-, -, hrun⟩ := failures_of_input hfile
  obtain ⟨-, hprepared⟩ := hrun { input := "m.json" } [] 0 _ rfl rfl hload
  obtain ⟨-, hline⟩ := hprepared .info rfl
  exact ⟨hfile, hline ⟨_, rfl⟩⟩

/-- A weight that is too large for a double is an error of its own. -/
theorem weight_beyond_doubles :
    Model.ofJson (.record [("nodes", .list []), ("edges", .list [.record [("from", .text "A"),
      ("to", .text "B"), ("weight", .int (10 ^ 400))]])]) = .error .numberTooLarge ∧
      ¬Error.IsMalformed .numberTooLarge := by
  have hrelation : Relation.ofJson (.record [("from", .text "A"), ("to", .text "B"),
      ("weight", .int (10 ^ 400))]) = .error .numberTooLarge :=
    Relation.ofJson_of_overflows rfl rfl rfl ⟨10 ^ 400, rfl, by decide +kernel⟩
  refine ⟨?_, nofun⟩
  generalize (10 : Int) ^ 400 = n at hrelation ⊢
  change (List.mapM Relation.ofJson [_] >>= fun relations => _) = _
  rw [List.mapM_cons, hrelation]
  rfl

end Landscape.Command
