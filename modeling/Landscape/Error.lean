import Landscape.Calendar
import Landscape.Json.Shown
import Landscape.Text.Utf8

/-!
# Errors

Every way in which an operation of this library can fail is a cause of its own; the wording of each
is in `Error.message`.
-/

namespace Landscape

/-- What a document describes. -/
inductive Part where
  | model
  | node
  | edge
  | config
  deriving DecidableEq, Repr

/-- The name of a part where the whole of it is refused. -/
def Part.title : Part → String
  | .model => "Model payload"
  | .node => "Node entry"
  | .edge => "Edge entry"
  | .config => "Config payload"

/-- The name of a part where a field of it is missing. -/
def Part.name : Part → String
  | .model => "Model"
  | .node => "Node"
  | .edge => "Edge"
  | .config => "Config"

/-- What is wrong with the contents of a document. -/
inductive Malformed where
  | notAnObject (part : Part) (found : String)
  | missingArray (key : String)
  | notAnArray (key : String)
  | missingField (part : Part) (key : String)
  | unknownKind (value : Json)
  | badPosition (id : Text) (value : Json)
  | badWeight (value : Json)
  | invalidJson (path : Text) (detail : String)
  | unreadableConfig (path : Text) (detail : Option String)
  | configNotAnObject (path : Text) (found : String)
  | notAnInteger (key shown : String)
  | notABoolean (key shown : String)
  deriving DecidableEq

/-- What is wrong with a document in words. -/
def Malformed.message : Malformed → Text
  | .notAnObject part found => part.title ++ " must be an object, got " ++ found
  | .missingArray key => "Model payload is missing '" ++ key ++ "' array"
  | .notAnArray key => "'" ++ key ++ "' must be an array"
  | .missingField part key => part.name ++ " is missing required field '" ++ key ++ "'"
  | .unknownKind value => "Unknown node type: " ++ value.shown
  | .badPosition id value => "Node '" ++ id ++ "' has malformed position " ++ value.shown
  | .badWeight value => "Edge weight must be numeric, got " ++ value.shown
  | .invalidJson path detail => "Invalid JSON in " ++ path ++ ": " ++ detail
  | .unreadableConfig path detail =>
    "Could not parse config file " ++ path ++ (detail.map fun text => ": " ++ text).getD ""
  | .configNotAnObject path found =>
    "Config file " ++ path ++ " must contain an object, got " ++ found
  | .notAnInteger key shown => "'" ++ key ++ "' must be an integer, got " ++ shown
  | .notABoolean key shown => "'" ++ key ++ "' must be a boolean, got " ++ shown

/-- A setting outside its range; a number is kept as it was given. -/
inductive InvalidSetting where
  | threshold (key : String) (value : Json)
  | iterations (value : Json)
  | area (value : Json)
  | environment (name : String) (text : Text)
  deriving DecidableEq

/-- What is wrong with a setting in words. -/
def InvalidSetting.message : InvalidSetting → String
  | .threshold key value => "Invalid " ++ key ++ ": " ++ value.shown ++ " (must be >= 1)"
  | .iterations value => "iterations must be >= 0, got " ++ value.shown
  | .area value => "area must be positive, got " ++ value.shown
  | .environment name text => "Invalid " ++ name ++ ": " ++ Text.quoted text

/-- Why a file could not be opened or made. -/
inductive FileFault where
  | notFound
  | isDirectory
  | exists
  | notDirectory
  | nameTooLong
  deriving DecidableEq, Repr

/-- The number and the wording of a fault with a file. -/
def FileFault.message : FileFault → String
  | .notFound => "[Errno 2] No such file or directory"
  | .isDirectory => "[Errno 21] Is a directory"
  | .exists => "[Errno 17] File exists"
  | .notDirectory => "[Errno 20] Not a directory"
  | .nameTooLong => "[Errno 36] File name too long"

/-- A place that a list or a text does not have, or that no list can have. -/
inductive IndexFault where
  | popFromEmpty
  | popOutOfRange
  | popTooFar
  | outOfRange
  | tooFar
  | emptyText
  deriving DecidableEq, Repr

/-- A place that a list or a text does not have, in words. -/
def IndexFault.message : IndexFault → String
  | .popFromEmpty => "pop from empty list"
  | .popOutOfRange => "pop index out of range"
  | .popTooFar => "Python int too large to convert to C ssize_t"
  | .outOfRange => "list index out of range"
  | .tooFar => "cannot fit 'int' into an index-sized integer"
  | .emptyText => "string index out of range"

/-- Why a text is no integer. -/
inductive NumeralFault where
  | notANumeral (base : Nat) (text : Text)
  | tooLong (digits : Nat)
  deriving DecidableEq, Repr

/-- Why a text is no integer, in words; no more than 200 characters of the text are shown. -/
def NumeralFault.message : NumeralFault → String
  | .notANumeral base text =>
    "invalid literal for int() with base " ++ toString base ++ ": "
      ++ String.ofList ((Text.quoted text).toList.take 200)
  | .tooLong digits =>
    "Exceeds the limit (4300 digits) for integer string conversion: value has " ++ toString digits
      ++ " digits; use sys.set_int_max_str_digits() to increase the limit"

/-- A code point that no symbol has: beyond the last one, or beyond every integer of 32 bits. -/
inductive CodePointFault where
  | outOfRange
  | tooLarge
  deriving DecidableEq, Repr

/-- A code point that no symbol has, in words. -/
def CodePointFault.message : CodePointFault → String
  | .outOfRange => "chr() arg not in range(0x110000)"
  | .tooLarge => "Python int too large to convert to C int"

/-- What is nested too deeply to be followed: a text that is read, a node of YAML, or a value that is
spelled or written. -/
inductive Nesting where
  | list
  | record
  | node
  | value
  | written
  deriving DecidableEq, Repr

/-- What is nested too deeply, in words. -/
def Nesting.message : Nesting → String
  | .list => "maximum recursion depth exceeded while decoding a JSON array from a unicode string"
  | .record => "maximum recursion depth exceeded while decoding a JSON object from a unicode string"
  | .node => "maximum recursion depth exceeded"
  | .value => "maximum recursion depth exceeded while getting the repr of an object"
  | .written => "maximum recursion depth exceeded while calling a Python object"

/-- Why an operation failed. -/
inductive Error where
  | malformed (cause : Malformed)
  | invalid (cause : InvalidSetting)
  | emptyModel
  | matrixNotBuilt
  | file (fault : FileFault) (path : Text)
  | index (fault : IndexFault)
  | numeral (fault : NumeralFault)
  | calendar (fault : CalendarFault)
  | codePoint (fault : CodePointFault)
  | unencodable (cause : Text.HalfError)
  | nulInPath
  | numberTooLarge
  | ratioTooLarge
  | unprintableInteger
  | notConvertible (value : Json)
  | notComparable (operation typeName : String)
  | notDivisible (typeName : String)
  | nanToInteger
  | infinityToInteger
  | unboundedSquare
  | negativeSeed
  | negativeLimit
  | nothingPositioned
  | unknownSmell (name : Text)
  | unknownArgument (name : Text)
  | notATruthValue (text : Text)
  | notATimestamp
  | timestampOfRecord
  | logLevelName (text : String)
  | logLevelType (shown : String)
  | tooDeep (nesting : Nesting)
  deriving DecidableEq

namespace Error

/-- The error in words. -/
def message : Error → Text
  | .malformed cause => cause.message
  | .invalid cause => cause.message
  | .emptyModel => "empty model"
  | .matrixNotBuilt => "adjacency matrix not built"
  | .file fault path => fault.message ++ ": " ++ Text.quoted path
  | .index fault => fault.message
  | .numeral fault => fault.message
  | .calendar fault => fault.message
  | .codePoint fault => fault.message
  | .unencodable cause => cause.message
  | .nulInPath => "embedded null byte"
  | .numberTooLarge => "int too large to convert to float"
  | .ratioTooLarge => "integer division result too large for a float"
  | .unprintableInteger =>
    "Exceeds the limit (4300 digits) for integer string conversion; "
      ++ "use sys.set_int_max_str_digits() to increase the limit"
  | .notConvertible (.text s) => "could not convert string to float: " ++ Text.quoted s
  | .notConvertible value =>
    "float() argument must be a string or a real number, not '" ++ value.typeName ++ "'"
  | .notComparable operation typeName =>
    "'" ++ operation ++ "' not supported between instances of '" ++ typeName ++ "' and 'int'"
  | .notDivisible typeName =>
    "unsupported operand type(s) for /: '" ++ typeName ++ "' and 'int'"
  | .nanToInteger => "cannot convert float NaN to integer"
  | .infinityToInteger => "cannot convert float infinity to integer"
  | .unboundedSquare => "high - low range exceeds valid bounds"
  | .negativeSeed => "expected non-negative integer"
  | .negativeLimit => "Stop argument for islice() must be None or an integer: 0 <= x <= sys.maxsize."
  | .nothingPositioned => "No positioned nodes to render; run the layout optimizer first"
  | .unknownSmell name => Text.quoted name ++ " is not a valid AntiPatternType"
  | .unknownArgument name =>
    "AntiPatternConfig.__init__() got an unexpected keyword argument '" ++ name ++ "'"
  | .notATruthValue text => Text.quoted text
  | .notATimestamp => "'NoneType' object has no attribute 'groupdict'"
  | .timestampOfRecord => "expected string or bytes-like object, got 'list'"
  | .logLevelName text => "Unknown level: " ++ Text.quoted text
  | .logLevelType shown => "Level not an integer or a valid string: " ++ shown
  | .tooDeep nesting => nesting.message

/-- Whether the command line reports the error; the others are failures of the program itself. -/
def isReported : Error → Bool
  | .malformed _ | .invalid _ | .emptyModel | .matrixNotBuilt | .file _ _ => true
  | _ => false

end Error

end Landscape
