import Landscape.Calendar
import Landscape.Json.Reader

/-!
# Types of YAML nodes

Every node has a type. A tag names one, and a plain scalar without a tag has the type that its
spelling shows: a truth value, a number, the null, a time, the key of a merge, or a text. A spelling
may end with one line feed.
-/

namespace Landscape.Yaml

/-- The type of a node. -/
inductive NodeType where
  | null
  | bool
  | int
  | float
  | binary
  | timestamp
  | str
  | seq
  | map
  | set
  | omap
  | pairs
  | merge
  | value
  | unknown
  deriving DecidableEq, Repr

namespace NodeType

/-- What the tags of the standard types begin with. -/
def standard : String := "tag:yaml.org,2002:"

/-- The standard types that values can have, by their names. -/
def names : List (String × NodeType) :=
  [("null", .null), ("bool", .bool), ("int", .int), ("float", .float), ("binary", .binary),
   ("timestamp", .timestamp), ("str", .str), ("seq", .seq), ("map", .map), ("set", .set),
   ("omap", .omap), ("pairs", .pairs), ("merge", .merge), ("value", .value)]

/-- The type that a tag names. -/
def ofTag (tag : String) : NodeType :=
  ((names.find? fun (name, _) => standard ++ name == tag).map (·.2)).getD .unknown

end NodeType

/-- A word in small letters, with a capital, and in capitals. -/
def spellings (word : String) : List String := [word, word.capitalize, word.toUpper]

/-- The words for truth values. -/
def truthWords : List (String × Bool) :=
  [("yes", true), ("no", false), ("true", true), ("false", false), ("on", true), ("off", false)]

/-- Whether some characters spell a truth value. -/
def spellsBool (cs : List Char) : Bool :=
  truthWords.any fun (word, _) => (spellings word).contains (String.ofList cs)

/-- Whether some characters, at least one, spell the null. -/
def spellsNull (cs : List Char) : Bool :=
  cs == ['~'] || (spellings "null").contains (String.ofList cs)

/-- Whether there are some characters, all of them with a property. -/
def someAll (p : Char → Bool) (cs : List Char) : Bool := !cs.isEmpty && cs.all p

/-- Whether a character is a digit or a low line. -/
def isPlace (c : Char) : Bool := c.isDigit || c == '_'

/-- Whether a character is a low line or a digit of a base. -/
def isPlaceOf (base : Nat) (c : Char) : Bool :=
  c == '_' || (Json.hexValue? c).any (· < base)

/-- Whether some characters are a place of a number in base sixty after its first. -/
def spellsSixtieth : List Char → Bool
  | [d] => d.isDigit
  | [c, d] => '0' ≤ c && c ≤ '5' && d.isDigit
  | _ => false

/-- The parts of a number in base sixty. -/
def sixtieths (cs : List Char) : List (List Char) := cs.splitOn ':'

/-- Whether some characters spell an integer after its sign. -/
def spellsNatural : List Char → Bool
  | '0' :: 'b' :: digits => someAll (isPlaceOf 2) digits
  | '0' :: 'x' :: digits => someAll (isPlaceOf 16) digits
  | '0' :: digits => digits.all (isPlaceOf 8)
  | first :: rest =>
    first.isDigit
      && match sixtieths rest with
        | places :: parts => places.all isPlace && parts.all spellsSixtieth
        | [] => false
  | [] => false

/-- Whether some characters spell an integer. -/
def spellsInt (cs : List Char) : Bool := spellsNatural (Number.splitSign cs).2

/-- An exponent, which has a sign, or nothing. -/
def isExponent : List Char → Bool
  | [] => true
  | e :: sign :: digits =>
    (e == 'e' || e == 'E') && (sign == '+' || sign == '-') && someAll Char.isDigit digits
  | _ => false

/-- Whether some characters spell a double after its sign, with at least one digit at first. -/
def spellsDecimal : List Char → Bool
  | [] => false
  | first :: rest =>
    first.isDigit
      && match rest.dropWhile isPlace with
        | '.' :: rest => isExponent (rest.dropWhile isPlace)
        | ':' :: rest =>
          match rest.dropWhile (· != '.') with
          | '.' :: fraction =>
            fraction.all isPlace && (sixtieths (rest.takeWhile (· != '.'))).all spellsSixtieth
          | _ => false
        | _ => false

/-- Whether some characters spell a fraction without a whole part. -/
def spellsFraction : List Char → Bool
  | '.' :: first :: rest => first.isDigit && isExponent (rest.dropWhile isPlace)
  | _ => false

/-- Whether some characters spell a double. -/
def spellsFloat (cs : List Char) : Bool :=
  let magnitude := (Number.splitSign cs).2
  spellsDecimal magnitude || spellsFraction cs
    || (spellings "inf").any (fun word => magnitude == '.' :: word.toList)
    || [".nan", ".NaN", ".NAN"].contains (String.ofList cs)

/-- The offset of a time, in digits. -/
structure OffsetParts where
  negative : Bool
  hour : List Char
  minute : List Char

/-- The time of a day, in digits; an offset without digits is the universal one. -/
structure TimeParts where
  hour : List Char
  minute : List Char
  second : List Char
  fraction : List Char
  offset : Option (Option OffsetParts)

/-- A date and perhaps a time, in digits. -/
structure TimestampParts where
  year : List Char
  month : List Char
  day : List Char
  time : Option TimeParts

/-- So many digits, no fewer and no more. -/
def digits? (least most : Nat) (cs : List Char) : Option (List Char × List Char) :=
  let found := (cs.take most).takeWhile Char.isDigit
  if least ≤ found.length then some (found, cs.drop found.length) else none

/-- What follows a character. -/
def after? (expected : Char) : List Char → Option (List Char)
  | c :: rest => if c == expected then some rest else none
  | [] => none

/-- Whether a character is a space or a tab. -/
def isSpaceOrTab (c : Char) : Bool := c == ' ' || c == '\t'

/-- The offset of a time, up to the end. -/
def offsetParts? (cs : List Char) : Option (Option (Option OffsetParts)) :=
  match cs, cs.dropWhile isSpaceOrTab with
  | [], _ => some none
  | _, ['Z'] => some (some none)
  | _, sign :: rest =>
    if sign != '+' && sign != '-' then none
    else do
      let (hour, rest) ← digits? 1 2 rest
      if rest.isEmpty then return some (some ⟨sign == '-', hour, []⟩)
      let (minute, rest) ← digits? 2 2 (← after? ':' rest)
      if rest.isEmpty then return some (some ⟨sign == '-', hour, minute⟩) else none
  | _, [] => none

/-- The fraction of a second, if a point stands there. -/
def fractionParts : List Char → List Char × List Char
  | '.' :: rest => (rest.takeWhile Char.isDigit, rest.dropWhile Char.isDigit)
  | rest => ([], rest)

/-- A time after its date, up to the end. -/
def timeParts? (cs : List Char) : Option TimeParts := do
  let rest ←
    match cs with
    | 't' :: rest | 'T' :: rest => some rest
    | c :: rest => if isSpaceOrTab c then some (rest.dropWhile isSpaceOrTab) else none
    | [] => none
  let (hour, rest) ← digits? 1 2 rest
  let (minute, rest) ← digits? 2 2 (← after? ':' rest)
  let (second, rest) ← digits? 2 2 (← after? ':' rest)
  let (fraction, rest) := fractionParts rest
  return ⟨hour, minute, second, fraction, ← offsetParts? rest⟩

/-- The parts of a date and perhaps a time. -/
def timestampParts? (cs : List Char) : Option TimestampParts := do
  let (year, rest) ← digits? 4 4 cs
  let (month, rest) ← digits? 1 2 (← after? '-' rest)
  let (day, rest) ← digits? 1 2 (← after? '-' rest)
  if rest.isEmpty then return ⟨year, month, day, none⟩
  return ⟨year, month, day, some (← timeParts? rest)⟩

/-- Whether some characters spell a time; a date alone has two digits for its month and its day. -/
def spellsTimestamp (cs : List Char) : Bool :=
  (timestampParts? cs).any fun parts =>
    parts.time.isSome || (parts.month.length == 2 && parts.day.length == 2)

/-- Some characters without the line feed that may end them. -/
def dropLineFeed (cs : List Char) : List Char :=
  if cs.getLast? == some '\n' then cs.dropLast else cs

/-- The type that some characters show. -/
def typeOfChars (cs : List Char) : NodeType :=
  if cs.isEmpty then .null
  else
    let body := dropLineFeed cs
    if spellsBool body then .bool
    else if spellsFloat body then .float
    else if spellsInt body then .int
    else if body == ['<', '<'] then .merge
    else if spellsNull body then .null
    else if spellsTimestamp body then .timestamp
    else if body == ['='] then .value
    else if body == ['!'] || body == ['&'] || body == ['*'] then .unknown
    else .str

/-- The type that the spelling of a scalar shows. -/
def typeOfText (t : Text) : NodeType :=
  match t.chars? with
  | some cs => typeOfChars cs
  | none => .str

end Landscape.Yaml
