import Landscape.Command.Arguments
import Landscape.Command.Log
import Landscape.Console
import Landscape.Export.Dot
import Landscape.Export.Drawing
import Landscape.Report
import Landscape.Settings
import Landscape.Storage

/-!
# Runs of the program

A run reads a description or a model, lays it out, analyses it, exports it and reports on it. What a
run does is a value: what it printed, the files as it left them, and what it drew. It stops at the
first error and keeps what was done before.
-/

namespace Landscape.Command

/-- What a run did so far. -/
structure Transcript where
  output : Text := []
  messages : Text := []
  files : Files
  drawings : List Drawing := []
  /-- The level of log lines in force, once the settings are known. -/
  level : Option LogLevel := none

/-- A step of a run: an error keeps what was done before it. -/
abbrev Step := ExceptT Error (StateM Transcript)

namespace Step

/-- Print on the terminal. -/
def print (text : Text) : Step Unit := modify fun t => { t with output := t.output ++ text }

/-- Write a log line. -/
def log (level : LogLevel) (source : Source) (message : Text) : Step Unit :=
  modify fun t =>
    match t.level with
    | some inForce => { t with messages := t.messages ++ logLine inForce level source message }
    | none => t

/-- Do something with the files. -/
def withFiles (change : Files → Except Error Files) : Step Unit := do
  let files ← change (← get).files
  modify fun t => { t with files }

end Step

open Step

/-- What stands for an option's value in a layout request; no value at all is an empty list. -/
def Given.toJson {α : Type} (write : α → Json) : Given α → Json
  | .value a => write a
  | .nothing => .list []

/-- The seed that an option asks for; no value at all seeds like zero. -/
def Given.seed (g : Given Int) : Int := g.value?.getD 0

/-- The layout that is asked for: options override settings. -/
def layoutRequest (o : Options) (s : Settings) : Layout.Request :=
  let r := s.request
  {
    iterations := (o.iterations.map (Given.toJson .int)).getD r.iterations
    learningRate := (o.learningRate.map (Given.toJson .float)).getD r.learningRate
    area := (o.area.map (Given.toJson .float)).or r.area
    seed := (o.seed.map Given.seed).or r.seed }

/-- The level of log lines that is in force. -/
def resolveLevel (o : Options) (s : Settings) : Except Error LogLevel :=
  if o.verbose then .ok .debug
  else if o.quiet then .ok .warning
  else LogLevel.ofName s.logLevel

/-- A path that was given and is not empty. -/
def givenPath (path : Option Text) : Option Text := path.filter (!·.isEmpty)

/-- A threshold, which an option overrides; no value at all compares with no number. -/
def overrideThreshold (key : String) (option : Option (Given Int)) (current : Int) :
    Except Error Int := do
  let n ←
    match option with
    | none => pure current
    | some (.value n) => pure n
    | some .nothing => throw (.notComparable "<" (Json.list []).typeName)
  let _ ← Limit.ofJson key (.int n)
  return n

/-- The thresholds: of the settings, then of the configuration file, then of the options. -/
def resolveThresholds (o : Options) (s : Settings) (files : Files) : Except Error Thresholds := do
  let _ ← s.thresholds.check
  let t ←
    match givenPath o.config with
    | some path => s.thresholds.override (← ConfigDocument.load files path).overrides
    | none => pure s.thresholds
  let bottleneck ← overrideThreshold Thresholds.bottleneckKey o.bottleneck t.bottleneck
  let overCoupling ← overrideThreshold Thresholds.overCouplingKey o.overCoupling t.overCoupling
  return { bottleneck, overCoupling, isolated := t.isolated && !o.noIsolated }

/-- Read the input: a model from a JSON file, a description from any other. -/
def readInput (path : Text) : Step Model := do
  if Path.lowerSuffix path == ".json" then
    log .info .interchange ("Loading model from " ++ path)
    Model.load (← get).files path
  else
    log .info .description ("Parsing DSL file: " ++ path)
    let text ← Description.load (← get).files path
    let m := Description.parse text
    log .debug .description <|
      "Parsed DSL (" ++ toString text.length ++ " chars): " ++ toString m.elements.length
        ++ " nodes, " ++ toString m.relations.length ++ " edges"
    return m

/-- Cache the matrix of a model. -/
def buildMatrix (m : Model) : Step Model := do
  if !m.elements.isEmpty && 0 < m.unresolved then
    log .debug .model <|
      "Skipped " ++ toString m.unresolved ++ " edge(s) with unresolved endpoints"
  return m.build

/-- Lay out a model; without elements there is no layout. -/
def layOut (plan : Layout.Plan) (entropy : Nat) (m : Model) :
    Step (Model × Option (Layout.Outcome × Layout.Quality)) := do
  if m.elements.isEmpty then
    log .warning .command "Model has no nodes; skipping layout"
    return (m, none)
  log .debug .layout <|
    "Optimizing layout: " ++ toString m.elements.length ++ " nodes, "
      ++ toString m.relations.length ++ " edges, iterations=" ++ toString plan.iterations
      ++ ", eta=" ++ Number.text plan.learningRate ++ ", area=" ++ Number.text plan.area
      ++ ", k=" ++ Number.fixed 4 plan.idealDistance
  let (m, outcome) ← Layout.run plan entropy m
  log .info .layout <|
    "Layout converged after " ++ toString outcome.iterations ++ " iterations ("
      ++ Number.fixed 1 outcome.milliseconds ++ " ms, final temperature "
      ++ Number.fixed 4 outcome.finalTemperature ++ ")"
  return (m, some (outcome, ← Layout.evaluate m))

/-- Analyse a model. -/
def analyze (limits : Limits) (m : Model) : Step Analysis := do
  log .info .detection "Starting anti-pattern detection..."
  let analysis := m.analyze limits
  for f in analysis.findings do
    log .info .detection <|
      "Pattern detected: " ++ f.smell.name ++ " nodes="
        ++ (Json.list (f.elements.map .text)).shown
        ++ " severity=" ++ Number.fixed 2 f.severity.toFloat
  log .info .detection <|
    "Anti-pattern detection complete. Found " ++ toString analysis.findings.length ++ " patterns."
  return analysis

/-- The text of a report. -/
def reportText (r : Report) : Except Error Text := do
  r.thresholds.checkWritable
  return Json.print (.indented 2) (← r.toJson) ++ "\n"

/-- The text of an export; without the name of a format it is the report. -/
def exportText (format : Given Format) (r : Report) : Except Error Text :=
  match format with
  | .value .dot => Dot.render r.model r.analysis.findings
  | .value .positions => Dot.renderPinned r.model
  | .value .json | .nothing => reportText r

/-- What a note calls the format of an export. -/
def formatName : Given Format → String
  | .value format => format.name
  | .nothing => (Json.list []).shown

/-- The name by which the terminal is asked for in place of a file. -/
def standardOutput : Text := "-"

/-- Write the export to a file, or print it where the file is called `-`. -/
def writeExport (o : Options) (showNotes : Bool) (r : Report) : Step Unit := do
  match givenPath o.output with
  | none => return
  | some path =>
    let text ← exportText o.format r
    if path == standardOutput then print text
    else withFiles fun files => files.save path text
    if showNotes then
      print (Console.success false (formatName o.format ++ " export written to: " ++ path))

/-- Draw the layout. -/
def draw (o : Options) (showNotes : Bool) (r : Report) : Step Unit := do
  match givenPath o.image with
  | none => return
  | some path =>
    if r.layout.isNone then
      print (Console.warning false "No layout computed; skipping image rendering")
    else
      let drawing ← Drawing.ofModel r.model r.analysis.findings path
      withFiles fun files => files.makeDirectory (Path.parent path)
      modify fun t => { t with drawings := t.drawings ++ [drawing] }
      log .info .drawing ("Layout image saved to " ++ drawing.path)
      if showNotes then print (Console.success false ("Layout image written to: " ++ path))

/-- Print the report, as a document or for a reader. -/
def printReport (o : Options) (showNotes : Bool) (r : Report) : Step Unit := do
  if o.json then print (← reportText r)
  else if showNotes then
    print (Console.modelReport false r.model.statistics)
    if let some (outcome, quality) := r.layout then
      print (Console.layoutReport false outcome (some quality))
    print (← Console.analysisReport false r.analysis r.cycles)

/-- All stages of a run. -/
def stages (o : Options) (env : Environment) (entropy : Nat) : Step Unit := do
  let settings ← Settings.ofEnvironment env
  let level ← resolveLevel o settings
  modify fun t => { t with level := some level }
  let thresholds ← resolveThresholds o settings (← get).files
  let limits ← thresholds.check
  let plan ← Layout.Plan.ofRequest (layoutRequest o settings)
  let m ← buildMatrix (← readInput o.input)
  let (m, layout) ← if o.noLayout then pure (m, none) else layOut plan entropy m
  let analysis ← analyze limits m
  let cycles := if o.allCycles then some m.cycles else none
  let r : Report := { model := m, thresholds, layout, analysis, cycles }
  let showNotes := !o.quiet && o.output != some standardOutput
  writeExport o showNotes r
  draw o showNotes r
  printReport o showNotes r

/-- What is printed about an error that ends a run. -/
def failureText (o : Options) (t : Transcript) (e : Error) : Text :=
  let trace : Text :=
    if !o.verbose then []
    else
      match t.level with
      | some inForce => logLine inForce .error .root "Analysis failed"
      | none => "ERROR:root:Analysis failed\n"
  Console.line ("Error: " ++ e.message) ++ trace

/-- How a call ends: with what it did and its exit code, and with the error if there was one. -/
structure Outcome where
  code : Nat
  transcript : Transcript
  error : Option Error := none

/-- Run the program with options; `entropy` seeds a layout that asks for no seed. -/
def run (o : Options) (env : Environment) (files : Files) (entropy : Nat) : Outcome :=
  match (stages o env entropy).run { files } with
  | (.ok (), t) => ⟨0, t, none⟩
  | (.error e, t) =>
    if e.isReported then ⟨1, { t with messages := t.messages ++ failureText o t e }, some e⟩
    else ⟨1, t, some e⟩

/-- The name and the version of the program. -/
def versionText : String := "archgraph 1.0.0\n"

/-- How the program is called. -/
def usageText : String :=
  "usage: archgraph [options] INPUT\n\n"
    ++ String.join (Flag.all.map fun flag => "  " ++ ", ".intercalate flag.spellings ++ "\n")

/-- Carry out a call of the program. -/
def call (arguments : List Text) (env : Environment) (files : Files) (entropy : Nat) : Outcome :=
  match Call.ofArguments arguments with
  | .ok (.run options) => run options env files entropy
  | .ok .help => ⟨0, { files, output := usageText }, none⟩
  | .ok .version => ⟨0, { files, output := versionText }, none⟩
  | .error r => ⟨2, { files, messages := "archgraph: error: " ++ r.message ++ "\n" }, none⟩

end Landscape.Command
