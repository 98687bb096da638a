import Landscape.Command.Usage
import Landscape.Number.Reading

/-!
# Arguments of the command line

Each argument is first taken for itself: it is a value, an option in one of its spellings or in an
unambiguous beginning of one, or the divider after which everything is a value. Then options are
carried out from left to right and take the values they need. The first value that no option takes
is the input; all others are refused. Options of one letter may stand together in one argument. Main
statement: of those only the last has a value.
-/

namespace Landscape.Command

/-- The argument after which everything is a value. -/
def divider : Text := "--"

/-- What stands where an option has its value: the divider there means that it has none. -/
inductive Given (α : Type) where
  | value (a : α)
  | nothing
  deriving DecidableEq, Repr

namespace Given

/-- The value, if there is one. -/
def value? {α : Type} : Given α → Option α
  | .value a => some a
  | .nothing => none

/-- Read what stands where an option has its value. -/
def ofText {α ε : Type} (read : Text → Except ε α) (text : Text) : Except ε (Given α) :=
  if text == divider then .ok .nothing else .value <$> read text

end Given

/-- What a call asks for. -/
structure Options where
  input : Text := []
  iterations : Option (Given Int) := none
  learningRate : Option (Given Float) := none
  area : Option (Given Float) := none
  seed : Option (Given Int) := none
  noLayout : Bool := false
  bottleneck : Option (Given Int) := none
  overCoupling : Option (Given Int) := none
  noIsolated : Bool := false
  config : Option Text := none
  allCycles : Bool := false
  format : Given Format := .value .dot
  output : Option Text := none
  image : Option Text := none
  json : Bool := false
  quiet : Bool := false
  verbose : Bool := false

/-- What a call comes to. -/
inductive Call where
  | help
  | version
  | run (options : Options)

/-- What an argument is, seen for itself; an option may have a text attached to it. -/
inductive Role where
  | value
  | divider
  | option (flag : Flag) (short : Bool) (attached : Option Text)
  | unknown
  deriving DecidableEq, Repr

/-- Whether a symbol is a decimal digit. -/
def isDigit (s : Symbol) : Bool := s.isA fun c => (Text.digitValue? c).isSome

/-- Whether a text is a minus and then only decimal digits, with a point or without. -/
def looksNegative (t : Text) : Bool :=
  match t with
  | .char '-' :: rest =>
    let whole := rest.takeWhile isDigit
    match rest.dropWhile isDigit with
    | [] | [.char '\n'] => !whole.isEmpty
    | .char '.' :: fraction =>
      let digits := fraction.takeWhile isDigit
      let tail := fraction.dropWhile isDigit
      !digits.isEmpty && (tail.isEmpty || tail == "\n")
    | _ => false
  | _ => false

/-- A text before its first equals sign, and what follows that. -/
def splitEquals (t : Text) : Text × Option Text :=
  match t.dropWhile (· != .char '=') with
  | [] => (t, none)
  | _ :: rest => (t.takeWhile (· != .char '='), some rest)

/-- The spelling of one letter. -/
def shortSpelling (letter : Symbol) : Text := [.char '-', letter]

/-- The options that begin like an argument. -/
def candidates (argument : Text) : List (Text × Role) :=
  match argument with
  | .char '-' :: .char '-' :: _ =>
    let (start, attached) := splitEquals argument
    (Flag.spelled.filter fun (spelling, _) => start.isPrefixOf spelling).map
      fun (spelling, flag) => (spelling, .option flag false attached)
  | .char '-' :: letter :: rest =>
    match Flag.ofSpelling? (shortSpelling letter) with
    | some flag => [(shortSpelling letter, .option flag true (some rest))]
    | none => []
  | _ => []

/-- Whether a spelling has one dash. -/
def isShort (t : Text) : Bool := t[1]? != some (.char '-')

/-- The role of an argument that begins with a dash and more. -/
def dashedRole (argument : Text) : Except Refusal Role :=
  match Flag.ofSpelling? argument with
  | some flag => .ok (.option flag (isShort argument) none)
  | none =>
    let (start, attached) := splitEquals argument
    match attached, Flag.ofSpelling? start with
    | some text, some flag => .ok (.option flag (isShort start) (some text))
    | _, _ =>
      match candidates argument with
      | [(_, role)] => .ok role
      | [] => .ok (if looksNegative argument || argument.contains ' ' then .value else .unknown)
      | many => .error (.ambiguous argument (many.map Prod.fst))

/-- The role of an argument. -/
def role (argument : Text) : Except Refusal Role :=
  match argument with
  | .char '-' :: _ :: _ => dashedRole argument
  | _ => .ok .value

/-- The roles of all arguments; after the divider everything is a value. -/
def roles : List Text → Except Refusal (List (Text × Role))
  | [] => .ok []
  | argument :: rest =>
    if argument == divider then .ok ((argument, .divider) :: rest.map (·, .value))
    else do
      let role ← role argument
      return (argument, role) :: (← roles rest)

/-- What was read of a call. -/
structure Reading where
  options : Options := {}
  input : Option Text := none
  rest : List Text := []

/-- Why a call is not read to its end. -/
inductive Stop where
  | refused (r : Refusal)
  | help
  | version

/-- The number that an option wants. -/
def readNumber {α : Type} (flag : Flag) (kind : NumberKind) (read : Text → Option α) :
    Text → Except Stop (Given α) :=
  Given.ofText fun text =>
    match read text with
    | some x => .ok x
    | none => .error (.refused (.notANumber flag kind text))

/-- The format that an option names. -/
def readFormat : Text → Except Stop (Given Format) :=
  Given.ofText fun text =>
    match Format.ofName? text with
    | some format => .ok format
    | none => .error (.refused (.unknownFormat text))

/-- The text that an option wants. -/
def readText (text : Text) : Option Text := if text == divider then none else some text

/-- Carry out an option with its value. -/
def Options.set (o : Options) (flag : Flag) (text : Text) : Except Stop Options :=
  match flag with
  | .help => .error .help
  | .version => .error .version
  | .iterations => do
    return { o with iterations := ← readNumber flag .integer Number.readInt? text }
  | .learningRate => do
    return { o with learningRate := ← readNumber flag .double Number.readFloat? text }
  | .area => do return { o with area := ← readNumber flag .double Number.readFloat? text }
  | .seed => do return { o with seed := ← readNumber flag .integer Number.readInt? text }
  | .noLayout => .ok { o with noLayout := true }
  | .bottleneck => do
    return { o with bottleneck := ← readNumber flag .integer Number.readInt? text }
  | .overCoupling => do
    return { o with overCoupling := ← readNumber flag .integer Number.readInt? text }
  | .noIsolated => .ok { o with noIsolated := true }
  | .config => .ok { o with config := readText text }
  | .allCycles => .ok { o with allCycles := true }
  | .format => do return { o with format := ← readFormat text }
  | .output => .ok { o with output := readText text }
  | .image => .ok { o with image := readText text }
  | .json => .ok { o with json := true }
  | .quiet => .ok { o with quiet := true }
  | .verbose => .ok { o with verbose := true }

/--
The options in one argument: those that come first and have no value, and the last of them with its
value if that is attached.
-/
structure Cluster where
  first : List Flag := []
  last : Flag
  value : Option Text := none
  deriving DecidableEq, Repr

/--
The options in an argument that begins with an option and goes on with a text: the text is the value
of the option, or the letters of further options.
-/
def cluster (short : Bool) : (flag : Flag) → (attached : Text) → Except Refusal Cluster
  | flag, [] => if flag.takesValue then .ok ⟨[], flag, some []⟩ else .error (.needlessValue flag [])
  | flag, letter :: rest =>
    if flag.takesValue then .ok ⟨[], flag, some (letter :: rest)⟩
    else
      match if short then Flag.ofSpelling? (shortSpelling letter) else none with
      | none => .error (.needlessValue flag (letter :: rest))
      | some next =>
        if rest.isEmpty then .ok ⟨[flag], next, none⟩
        else do
          let c ← cluster short next rest
          return { c with first := flag :: c.first }

/-- The options in an argument. -/
def clusterOf (flag : Flag) (short : Bool) (attached : Option Text) : Except Refusal Cluster :=
  match attached with
  | none => .ok ⟨[], flag, none⟩
  | some text => cluster short flag text

/-- The value that an option takes from the next argument. -/
def nextValue (flag : Flag) : List (Text × Role) → Except Stop (Text × List (Text × Role))
  | (text, .value) :: rest => .ok (text, rest)
  | _ => .error (.refused (.missingValue flag))

/-- The value of the last option of an argument, and what is left of the arguments after it. -/
def Cluster.lastValue (c : Cluster) (rest : List (Text × Role)) :
    Except Stop (Text × List (Text × Role)) :=
  match c.value with
  | some text => .ok (text, rest)
  | none => if c.last.takesValue then nextValue c.last rest else .ok ([], rest)

/-- Carry out the options of an argument; what is left of the arguments after it. -/
def Cluster.carryOut (c : Cluster) (o : Options) (rest : List (Text × Role)) :
    Except Stop (Options × List (Text × Role)) := do
  let (text, rest) ← c.lastValue rest
  let o ← c.first.foldlM (fun o flag => o.set flag []) o
  return (← o.set c.last text, rest)

/-- Read arguments whose roles are known. -/
def readArguments : (fuel : Nat) → Reading → List (Text × Role) → Except Stop Reading
  | 0, r, _ | _, r, [] => .ok r
  | fuel + 1, r, (text, role) :: rest =>
    match role, r.input, rest with
    | .value, none, (_, .divider) :: rest => readArguments fuel { r with input := some text } rest
    | .value, none, rest => readArguments fuel { r with input := some text } rest
    | .divider, none, (value, _) :: rest => readArguments fuel { r with input := some value } rest
    | .divider, _, rest | .value, _, rest | .unknown, _, rest =>
      readArguments fuel { r with rest := r.rest ++ [text] } rest
    | .option flag short attached, _, rest => do
      let c ← (clusterOf flag short attached).mapError .refused
      let (options, rest) ← c.carryOut r.options rest
      readArguments fuel { r with options } rest

/-- What is read has an input and nothing else that is not understood. -/
def Reading.finish (r : Reading) : Except Refusal Options :=
  match r.input, r.rest with
  | none, _ => .error .missingInput
  | some input, [] => .ok { r.options with input }
  | some _, rest => .error (.unrecognized rest)

/-- What the arguments of a call come to. -/
def Call.ofArguments (arguments : List Text) : Except Refusal Call := do
  let marked ← roles arguments
  match readArguments (arguments.length + 1) {} marked with
  | .ok r => return .run (← r.finish)
  | .error .help => return .help
  | .error .version => return .version
  | .error (.refused r) => throw r

end Landscape.Command
