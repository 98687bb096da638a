import Landscape.Text.Quoted

/-!
# Options of the command line

The options that the command line knows, how they are spelled, and what can be wrong with the
arguments of a call.
-/

namespace Landscape.Command

/-- An option of the command line. -/
inductive Flag where
  | help
  | version
  | iterations
  | learningRate
  | area
  | seed
  | noLayout
  | bottleneck
  | overCoupling
  | noIsolated
  | config
  | allCycles
  | format
  | output
  | image
  | json
  | quiet
  | verbose
  deriving DecidableEq, Repr

namespace Flag

/-- Every option, in order. -/
def all : List Flag :=
  [.help, .version, .iterations, .learningRate, .area, .seed, .noLayout, .bottleneck, .overCoupling,
   .noIsolated, .config, .allCycles, .format, .output, .image, .json, .quiet, .verbose]

/-- The spellings of an option. -/
def spellings : Flag → List String
  | .help => ["-h", "--help"]
  | .version => ["--version"]
  | .iterations => ["--iterations", "-n"]
  | .learningRate => ["--learning-rate"]
  | .area => ["--area"]
  | .seed => ["--seed"]
  | .noLayout => ["--no-layout"]
  | .bottleneck => ["--bottleneck-threshold"]
  | .overCoupling => ["--over-coupling-threshold"]
  | .noIsolated => ["--no-isolated"]
  | .config => ["--config"]
  | .allCycles => ["--all-cycles"]
  | .format => ["--format", "-f"]
  | .output => ["--output", "-o"]
  | .image => ["--image"]
  | .json => ["--json"]
  | .quiet => ["--quiet", "-q"]
  | .verbose => ["--verbose", "-v"]

/-- Whether an option has a value. -/
def takesValue : Flag → Bool
  | .iterations | .learningRate | .area | .seed | .bottleneck | .overCoupling | .config | .format
  | .output | .image => true
  | .help | .version | .noLayout | .noIsolated | .allCycles | .json | .quiet | .verbose => false

/-- The name of an option in messages: all its spellings. -/
def title (flag : Flag) : String := "/".intercalate flag.spellings

/-- Every spelling with its option, in order. -/
def spelled : List (Text × Flag) :=
  all.flatMap fun flag => flag.spellings.map fun (s : String) => ((s : Text), flag)

/-- The option of a spelling. -/
def ofSpelling? (t : Text) : Option Flag := spelled.lookup t

/-- No option is left out. -/
theorem mem_all (flag : Flag) : flag ∈ all := by cases flag <;> decide

end Flag

/-- A format of the exported model. -/
inductive Format where
  | dot
  | positions
  | json
  deriving DecidableEq, Repr

namespace Format

/-- Every format, in order. -/
def all : List Format := [.dot, .positions, .json]

/-- The name of a format. -/
def name : Format → String
  | .dot => "dot"
  | .positions => "positions"
  | .json => "json"

/-- The format of a name. -/
def ofName? (t : Text) : Option Format := all.find? (·.name == t)

end Format

/-- The kinds of number that an option may want. -/
inductive NumberKind where
  | integer
  | double
  deriving DecidableEq, Repr

/-- The name of a kind of number in messages. -/
def NumberKind.name : NumberKind → String
  | .integer => "int"
  | .double => "float"

/-- What is wrong with the arguments of a call. -/
inductive Refusal where
  | ambiguous (given : Text) (candidates : List Text)
  | missingValue (flag : Flag)
  | needlessValue (flag : Flag) (text : Text)
  | notANumber (flag : Flag) (kind : NumberKind) (text : Text)
  | unknownFormat (text : Text)
  | missingInput
  | unrecognized (arguments : List Text)
  deriving DecidableEq, Repr

namespace Refusal

/-- What is wrong with an option. -/
private def about (flag : Flag) (text : String) : String :=
  "argument " ++ flag.title ++ ": " ++ text

/-- What is wrong with a call in words. -/
def message : Refusal → Text
  | .ambiguous given candidates =>
    "ambiguous option: " ++ given ++ " could match " ++ Text.joinWith ", " candidates
  | .missingValue flag => about flag "expected one argument"
  | .needlessValue flag text => about flag ("ignored explicit argument " ++ Text.quoted text)
  | .notANumber flag kind text =>
    about flag ("invalid " ++ kind.name ++ " value: " ++ Text.quoted text)
  | .unknownFormat text =>
    about .format <| "invalid choice: " ++ Text.quoted text ++ " (choose from "
      ++ ", ".intercalate (Format.all.map fun format => Text.quoted format.name) ++ ")"
  | .missingInput => "the following arguments are required: INPUT"
  | .unrecognized arguments => "unrecognized arguments: " ++ Text.joinWith " " arguments

end Refusal

end Landscape.Command
