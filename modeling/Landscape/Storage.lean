import Landscape.Description
import Landscape.Files
import Landscape.Interchange
import Landscape.Json.Printer
import Landscape.Json.Reader
import Landscape.Thresholds
import Landscape.Yaml.Construction

/-!
# Models and configurations in files

A model is read from a description or from its interchange document, and written as the latter. A
configuration is a JSON or a YAML document, by the suffix of its file.
-/

namespace Landscape

/-- Why the bytes of a file are no JSON text. -/
inductive Json.FileError where
  | encoding (e : Text.Utf8Error)
  | text (e : Json.ReadError)

/-- The value in the bytes of a JSON file. -/
def Json.ofBytes (bytes : List UInt8) : Except Json.FileError Json := do
  let cs ← (Files.strictChars bytes).mapError .encoding
  (Json.readChars cs).mapError .text

/-- The error of a file: a text that is refused has its own, all else is malformed. -/
def Json.FileError.toError (cause : (detail : String) → Malformed) : Json.FileError → Error
  | .encoding e => .malformed (cause e.message)
  | .text (.refused e) => e
  | .text (.malformed e) => .malformed (cause e.message)

namespace Model

/-- The model in the bytes of an interchange file; `path` is named in errors. -/
def ofBytes (path : Text) (bytes : List UInt8) : Except Error Model := do
  let d ← (Json.ofBytes bytes).mapError (·.toError (.invalidJson path))
  Model.ofJson d

/-- Load a model from an interchange file. -/
def load (files : Files) (path : Text) : Except Error Model := do
  ofBytes path (← files.read path)

/-- The text of a model's interchange file. -/
def fileText (layout : Json.Layout) (m : Model) : String := Json.print layout m.toJson

/-- Save a model as an interchange file. Where writing stops, the file holds what was written, and
the error comes with the files. -/
def save (layout : Json.Layout) (m : Model) (files : Files) (path : Text) :
    Except Error Unit × Files :=
  let (outcome, text) : Except Error Unit × String :=
    match (Json.write layout m.toJson).run "" with
    | .ok _ text => (.ok (), text)
    | .error e text => (.error e, text)
  match files.save path text with
  | .ok files => (outcome, files)
  | .error e => (.error e, files)

end Model

/-- The text of a description file. -/
def Description.load (files : Files) (path : Text) : Except Error Text :=
  Files.lenientText <$> files.read path

/-- Whether a file is a YAML text, by its suffix. -/
def isYamlPath (path : Text) : Bool :=
  Path.lowerSuffix path == ".yaml" || Path.lowerSuffix path == ".yml"

/-- Whether a file is called a YAML text, be it by its suffix or by its whole name. -/
def isYamlName (path : Text) : Bool :=
  let name := Text.lower path
  name.endsWith ".yaml" || name.endsWith ".yml"

/-- A document that may hold a configuration. -/
inductive ConfigDocument where
  | json (d : Json)
  | yaml (d : Yaml.Document)

namespace ConfigDocument

/-- A YAML value in a configuration. -/
def ofYaml : Yaml.Value → ConfigValue
  | .atom (.scalar (.int n)) => .integer n
  | .atom (.scalar (.bool b)) => .truth b
  | value => .other value.shown

/-- Whether a document is null. -/
def isNull : ConfigDocument → Bool
  | .json d => d == .null
  | .yaml d => d.isNull

/-- Whether a document is a record. -/
def isRecord : ConfigDocument → Bool
  | .json d => (d matches .record _)
  | .yaml d => d.isRecord

/-- The name of the type of a document. -/
def typeName : ConfigDocument → String
  | .json d => d.typeName
  | .yaml d => d.typeName

/-- The fields of a document that concern a configuration. -/
def overrides (document : ConfigDocument) : Overrides :=
  Thresholds.overridesBy fun key =>
    match document with
    | .json d => (d.get? key).map ConfigValue.ofJson
    | .yaml d => (d.field? key).map ofYaml

/--
The document in the bytes of a file; `path` is named in errors. What is wrong with it is said in
detail unless the file is called a YAML text.
-/
def ofBytes (path : Text) (bytes : List UInt8) : Except Error ConfigDocument :=
  if isYamlPath path then
    let unreadable : Error := .malformed (.unreadableConfig path none)
    match Files.strictChars bytes with
    | .error _ => .error unreadable
    | .ok cs =>
      match Yaml.Document.ofChars cs with
      | .ok d => .ok (.yaml d)
      | .error .malformed => .error unreadable
      | .error (.failure e) => .error e
  else do
    let d ← (Json.ofBytes bytes).mapError
      (·.toError fun detail =>
        .unreadableConfig path (if isYamlName path then none else some detail))
    return .json d

/-- The record in a configuration file; a null stands for an empty one. -/
def load (files : Files) (path : Text) : Except Error ConfigDocument := do
  let path := Path.normal path
  let document ← ofBytes path (← files.read path)
  if document.isNull then return .json (.record [])
  if document.isRecord then return document
  throw (.malformed (.configNotAnObject path document.typeName))

/-- The configuration of a document that is a record. -/
def thresholds (document : ConfigDocument) : Except Error Thresholds :=
  Thresholds.override {} document.overrides

end ConfigDocument

end Landscape
