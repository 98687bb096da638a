import Landscape.Proofs.Command.Failing
import Landscape.Proofs.Layout.Placement

/-!
# What a run finds out

A run first finds out everything that it will export, draw and report, and then does so. The first
part prints nothing and leaves the files as they are; log lines apart, it is a function of the
options, the environment and the files.
-/

namespace Landscape.Command

variable {α β : Type} {o : Options} {env : Environment} {entropy : Nat} {files : Files}

namespace Step

/-- A step that finds something out from the files: it prints nothing and writes no file. -/
def Observes (x : Step α) (outcome : Files → Except Error α) : Prop :=
  ∀ t, ∃ t', x.run t = (outcome t.files, t') ∧ t'.output = t.output ∧ t'.files = t.files

/-- A value that is known is found out. -/
theorem observes_pure (a : α) : Observes (pure a) fun _ => .ok a :=
  fun t => ⟨t, rfl, rfl, rfl⟩

/-- What does not look at the transcript observes. -/
theorem observes_lift (r : Except Error α) : Observes (liftM r) fun _ => r :=
  fun t => ⟨t, rfl, rfl, rfl⟩

/-- Whatever neither prints nor writes a file observes. -/
theorem observes_modify {change : Transcript → Transcript}
    (houtput : ∀ t, (change t).output = t.output) (hfiles : ∀ t, (change t).files = t.files) :
    Observes (modify change) fun _ => .ok () :=
  fun t => ⟨change t, rfl, houtput t, hfiles t⟩

/-- A log line is not printed with the output. -/
theorem observes_log (level : LogLevel) (source : Source) (message : Text) :
    Observes (log level source message) fun _ => .ok () := by
  refine observes_modify (fun t => ?_) fun t => ?_
  · cases t.level <;> rfl
  · cases t.level <;> rfl

/-- Observing goes on after observing. -/
theorem Observes.bind {x : Step α} {f : α → Step β} {found : Files → Except Error α}
    {next : α → Files → Except Error β} (hx : x.Observes found)
    (hf : ∀ a, (f a).Observes (next a)) :
    (x >>= f).Observes fun files => found files >>= fun a => next a files := by
  intro t
  obtain ⟨t', hrun, houtput, hfiles⟩ := hx t
  rw [run_bind, hrun]
  dsimp only
  cases found t.files with
  | error e => exact ⟨t', rfl, houtput, hfiles⟩
  | ok a =>
    obtain ⟨t'', hrun', houtput', hfiles'⟩ := hf a t'
    rw [hfiles] at hrun'
    exact ⟨t'', hrun', houtput'.trans houtput, hfiles'.trans hfiles⟩

/-- Observing goes on with what is found in any case. -/
theorem Observes.bind_ok {x : Step α} {f : α → Step β} {a : α} {found : Files → Except Error β}
    (hx : x.Observes fun _ => .ok a) (hf : (f a).Observes found) : (x >>= f).Observes found := by
  intro t
  obtain ⟨t', hrun, houtput, hfiles⟩ := hx t
  obtain ⟨t'', hrun', houtput', hfiles'⟩ := hf t'
  rw [run_bind, hrun]
  exact ⟨t'', hfiles ▸ hrun', houtput'.trans houtput, hfiles'.trans hfiles⟩

/-- Observing goes on after what does not look at the transcript. -/
theorem observes_lift_bind {r : Except Error α} {f : α → Step β}
    {next : α → Files → Except Error β} (hf : ∀ a, (f a).Observes (next a)) :
    ((liftM r : Step α) >>= f).Observes fun files => r >>= fun a => next a files :=
  (observes_lift r).bind hf

/-- What is found out from the files that are seen is found out. -/
theorem observes_get_bind {f : Transcript → Step β} {found : Files → Except Error β}
    (hf : ∀ t, (f t).Observes fun _ => found t.files) :
    ((get : Step Transcript) >>= f).Observes found :=
  fun t => hf t t

/-- Whichever of two steps is taken observes. -/
theorem observes_ite {c : Prop} [Decidable c] {x y : Step α} {found found' : Files → Except Error α}
    (hx : x.Observes found) (hy : y.Observes found') :
    Observes (if c then x else y) fun files => if c then found files else found' files := by
  split
  · exact hx
  · exact hy

/-- Steps that have nothing to say may be repeated. -/
theorem observes_forIn {items : List α} {x : α → Step Unit}
    (hx : ∀ a, (x a).Observes fun _ => .ok ()) :
    Observes (forIn items PUnit.unit fun a _ => do
      x a
      pure (ForInStep.yield PUnit.unit)) fun _ => .ok () := by
  induction items with
  | nil => exact observes_pure _
  | cons a items ih =>
    rw [List.forIn_cons, bind_assoc]
    exact (hx a).bind_ok ih

end Step

open Step

/-- The model that is read. -/
def inputModel (path : Text) (files : Files) : Except Error Model :=
  if Path.lowerSuffix path == ".json" then Model.load files path
  else do return Description.parse (← Description.load files path)

/-- A model and its layout, where one is computed. -/
def laidOut (o : Options) (plan : Layout.Plan) (entropy : Nat) (m : Model) :
    Except Error (Model × Option (Layout.Outcome × Layout.Quality)) :=
  if o.noLayout || m.elements.isEmpty then .ok (m, none)
  else do
    let (m, outcome) ← Layout.run plan entropy m
    return (m, some (outcome, ← Layout.evaluate m))

/-- Reading the input finds the model. -/
theorem observes_readInput (path : Text) : (readInput path).Observes (inputModel path) := by
  unfold readInput inputModel
  refine observes_ite ?_ ?_
  · refine (observes_log _ _ _).bind_ok ?_
    exact observes_get_bind fun t => observes_lift (Model.load t.files path)
  · refine (observes_log _ _ _).bind_ok ?_
    refine observes_get_bind fun t => observes_lift_bind fun text => ?_
    exact (observes_log _ _ _).bind_ok (observes_pure (Description.parse text))

/-- Building the matrix is all that is done to a model before its layout. -/
theorem observes_buildMatrix (m : Model) : (buildMatrix m).Observes fun _ => .ok m.build := by
  unfold buildMatrix
  split
  · exact (observes_log _ _ _).bind_ok (observes_pure m.build)
  · exact observes_pure m.build

/-- Laying out a model finds its positions. -/
theorem observes_layOut (plan : Layout.Plan) (m : Model) :
    Observes (if o.noLayout then pure (m, none) else layOut plan entropy m) fun _ =>
      laidOut o plan entropy m := by
  unfold laidOut layOut
  cases o.noLayout with
  | true => exact observes_pure _
  | false =>
    cases m.elements.isEmpty with
    | true => exact (observes_log _ _ _).bind_ok (observes_pure _)
    | false =>
      refine (observes_log _ _ _).bind_ok ?_
      refine observes_lift_bind fun (m', outcome) => ?_
      refine (observes_log _ _ _).bind_ok ?_
      exact observes_lift_bind fun quality => observes_pure _

/-- Analysing a model finds its analysis. -/
theorem observes_analyze (limits : Limits) (m : Model) :
    (analyze limits m).Observes fun _ => .ok (m.analyze limits) := by
  unfold analyze
  refine (observes_log _ _ _).bind_ok ?_
  refine (observes_forIn fun f => observes_log _ _ _).bind_ok ?_
  exact (observes_log _ _ _).bind_ok (observes_pure _)

/-- What a run finds out about its input. -/
def survey (o : Options) (env : Environment) (entropy : Nat) (files : Files) :
    Except Error Report := do
  let settings ← Settings.ofEnvironment env
  let _ ← resolveLevel o settings
  let thresholds ← resolveThresholds o settings files
  let limits ← thresholds.check
  let plan ← Layout.Plan.ofRequest (layoutRequest o settings)
  let m ← inputModel o.input files
  let (m, layout) ← laidOut o plan entropy m.build
  let cycles := if o.allCycles then some m.cycles else none
  return { model := m, thresholds, layout, analysis := m.analyze limits, cycles }

/-- Whether notes on what was written are shown. -/
def showsNotes (o : Options) : Bool := !o.quiet && o.output != some standardOutput

/-- The stages of a run that find something out. -/
def learn (o : Options) (env : Environment) (entropy : Nat) : Step Report := do
  let settings ← Settings.ofEnvironment env
  let level ← resolveLevel o settings
  modify fun t => { t with level := some level }
  let thresholds ← (do resolveThresholds o settings (← get).files : Step _)
  let limits ← thresholds.check
  let plan ← Layout.Plan.ofRequest (layoutRequest o settings)
  let m ← buildMatrix (← readInput o.input)
  let (m, layout) ← (if o.noLayout then pure (m, none) else layOut plan entropy m : Step _)
  let analysis ← analyze limits m
  let cycles := if o.allCycles then some m.cycles else none
  return { model := m, thresholds, layout, analysis, cycles }

/-- The stages of a run that make something of what was found out. -/
def deliver (o : Options) (r : Report) : Step Unit := do
  writeExport o (showsNotes o) r
  draw o (showsNotes o) r
  printReport o (showsNotes o) r

/-- A run finds out everything before it delivers anything. -/
theorem stages_eq (o : Options) (env : Environment) (entropy : Nat) :
    stages o env entropy = learn o env entropy >>= deliver o := by
  unfold stages learn deliver
  simp only [bind_assoc, pure_bind]
  refine bind_congr fun settings => bind_congr fun level => bind_congr fun _ => bind_congr fun t =>
    bind_congr fun thresholds => bind_congr fun limits => bind_congr fun plan =>
    bind_congr fun read => bind_congr fun m => ?_
  -- the stages after the layout stand in both of its branches
  split
  · rfl
  · rfl

/-- The first stages of a run find the report of the survey. -/
theorem observes_learn (o : Options) (env : Environment) (entropy : Nat) :
    (learn o env entropy).Observes (survey o env entropy) := by
  unfold learn survey
  refine observes_lift_bind fun settings => observes_lift_bind fun level => ?_
  have hlevel : Observes (modify fun t => { t with level := some level }) fun _ => .ok () :=
    observes_modify (fun _ => rfl) fun _ => rfl
  have hthresholds : Observes (get >>= fun t : Transcript =>
      liftM (resolveThresholds o settings t.files)) (resolveThresholds o settings) :=
    observes_get_bind fun t => observes_lift _
  refine hlevel.bind_ok (hthresholds.bind fun thresholds => ?_)
  refine observes_lift_bind fun limits => observes_lift_bind fun plan => ?_
  refine (observes_readInput o.input).bind fun read => (observes_buildMatrix read).bind_ok ?_
  refine (observes_layOut plan read.build).bind fun (m, layout) => ?_
  exact (observes_analyze limits m).bind_ok (observes_pure _)

/-- There is no layout exactly if none is wanted or nothing is there to be laid out. -/
theorem layout_eq_none_iff_of_laidOut {plan : Layout.Plan} {m m' : Model}
    {layout : Option (Layout.Outcome × Layout.Quality)}
    (h : laidOut o plan entropy m = .ok (m', layout)) :
    layout = none ↔ o.noLayout = true ∨ m'.elements = [] := by
  unfold laidOut at h
  split at h
  next hskipped =>
    cases h
    simpa using hskipped
  next hskipped =>
    obtain ⟨⟨placed, outcome⟩, hrun, h⟩ := bind_eq_ok_iff.mp h
    obtain ⟨quality, -, h⟩ := bind_eq_ok_iff.mp h
    cases h
    obtain ⟨positions, hpositions, rfl⟩ := Layout.run_eq_ok hrun
    have hlength := Layout.length_of_positionsOf hpositions
    simp only [Bool.or_eq_true, List.isEmpty_iff, not_or] at hskipped
    have hplaced : (Layout.place m positions).elements ≠ [] := by
      simpa [Layout.place, List.zipWith_eq_nil_iff, ← List.length_eq_zero_iff, hlength]
        using hskipped.2
    simp [hskipped.1, hplaced]

/-- The parts of a report are those of one model: the one that was read, laid out with its
matrix. -/
theorem exists_of_survey {r : Report} (h : survey o env entropy files = .ok r) :
    ∃ plan m limits, inputModel o.input files = .ok m ∧
      laidOut o plan entropy m.build = .ok (r.model, r.layout) ∧
      r.thresholds.check = .ok limits ∧ r.analysis = r.model.analyze limits ∧
      r.cycles = if o.allCycles then some r.model.cycles else none := by
  unfold survey at h
  obtain ⟨settings, -, h⟩ := bind_eq_ok_iff.mp h
  obtain ⟨level, -, h⟩ := bind_eq_ok_iff.mp h
  obtain ⟨thresholds, -, h⟩ := bind_eq_ok_iff.mp h
  obtain ⟨limits, hlimits, h⟩ := bind_eq_ok_iff.mp h
  obtain ⟨plan, -, h⟩ := bind_eq_ok_iff.mp h
  obtain ⟨m, hread, h⟩ := bind_eq_ok_iff.mp h
  obtain ⟨⟨m', layout⟩, hlaid, h⟩ := bind_eq_ok_iff.mp h
  obtain rfl := Except.ok.inj h
  exact ⟨plan, m, limits, hread, hlaid, hlimits, rfl, rfl⟩

end Landscape.Command
