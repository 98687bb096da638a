import Landscape.Json.Value
import Landscape.Number.Written
import Landscape.Text.Quoted

/-!
# Values in messages

How a value is spelled when a message shows it, whatever its size. Whether something of this size
can be spelled at all is another question.
-/

namespace Landscape

/-- The spelling of a scalar; a text is quoted. -/
def Scalar.shown : Scalar → String
  | .null => "None"
  | .bool b => if b then "True" else "False"
  | .int n => toString n
  | .float x => Number.text x
  | .text s => Text.quoted s

namespace Json

mutual

/-- The spelling of a value: brackets around items, braces around fields. -/
def shown : Json → String
  | .scalar s => s.shown
  | .list items => "[" ++ ", ".intercalate (shownItems items) ++ "]"
  | .record fields => "\x7b" ++ ", ".intercalate (shownFields fields) ++ "\x7d"

/-- The spellings of the items of a list. -/
def shownItems : List Json → List String
  | [] => []
  | x :: xs => x.shown :: shownItems xs

/-- The spellings of the fields of a record. -/
def shownFields : List (Text × Json) → List String
  | [] => []
  | (k, x) :: fs => (Text.quoted k ++ ": " ++ x.shown) :: shownFields fs

end

end Json

end Landscape
