import Landscape.Error
import Landscape.Path
import Landscape.Text.Classes

/-!
# Trees of files

The files that a run of the program can see, as a value: places with contents, and directories. The
directories above a file exist with it. A path is followed one piece after the other, and every
piece but the last has to lead to a directory. Reading and writing fail as an operating system would
have it, and a text is read with every line end as a line feed.
-/

namespace Landscape

/-- A place in a tree of files: the names that lead to it from the working directory. -/
abbrev Place := List Text

namespace Place

/-- The place from which rooted paths start. -/
def root : Place := ["/"]

/-- Whether a place lies at or above the working directory, or is the root. -/
def isAbove (place : Place) : Bool := place.all fun name => name == Path.up || root.contains name

/-- The place above another one; the root is above itself. -/
def parent (place : Place) : Place :=
  if place == root then root
  else if place.isAbove then place ++ [Path.up]
  else place.dropLast

/-- The place that a piece of a path leads to. -/
def enter (place : Place) (piece : Text) : Place :=
  if piece.isEmpty || piece == Path.here then place
  else if piece == Path.up then place.parent
  else place ++ [piece]

/-- The place from which a path starts. -/
def startOf (path : Text) : Place := if (Path.root path).isEmpty then [] else root

/-- The place of a path along which all directories exist. -/
def ofPath (path : Text) : Place := (Path.pieces path).foldl enter (startOf path)

/-- The path of a place. -/
def path (place : Place) : Text :=
  if root.isPrefixOf place then "/" ++ Text.joinWith "/" (place.drop 1) else Text.joinWith "/" place

end Place

/-- Whether a symbol may stand in the name of a file: a character, or a half that is one byte. -/
def isNameSymbol : Symbol → Bool
  | .char _ => true
  | .half n => 0x480 ≤ n.val && n.val < 0x500

/-- The first half that no name may hold, with the halves after it; `offset` counts on. -/
def nameFault? (offset : Nat) : Text → Option Text.HalfError
  | [] => none
  | s :: rest =>
    if isNameSymbol s then nameFault? (offset + 1) rest
    else some ⟨(s :: rest).takeWhile Text.isHalf, offset⟩

/-- How many bytes a name takes. -/
def nameSize (name : Text) : Nat :=
  name.foldl (fun size s =>
    match s with
    | .char c => size + (String.utf8EncodeChar c).length
    | .half _ => size + 1) 0

/-- The most bytes that a path may take. -/
def maxPathSize : Nat := 4095

/-- The most bytes that a name may take. -/
def maxNameSize : Nat := 255

/-- Check a path before it is followed. -/
def checkPath (path : Text) : Except Error Unit :=
  match nameFault? 0 path with
  | some fault => .error (.unencodable fault)
  | none =>
    if path.contains (.char (Char.ofNat 0)) then .error .nulInPath
    else if maxPathSize < nameSize path then .error (.file .nameTooLong path)
    else .ok ()

/-- Files and directories, by their places. -/
structure Files where
  contents : List (Place × List UInt8) := []
  directories : List Place := []

namespace Files

/-- Whether there is a file at a place. -/
def isFile (files : Files) (place : Place) : Bool := files.contents.any (·.1 == place)

/-- Whether there is a directory at a place. -/
def isDirectory (files : Files) (place : Place) : Bool :=
  place.isAbove || files.directories.any (place.isPrefixOf ·)
    || files.contents.any fun (file, _) => place.isPrefixOf file && place != file

/-- Follow the pieces of a path; what the last of them leads to need not exist. -/
def follow (files : Files) : Place → (pieces : List Text) → Except FileFault Place
  | place, [] => .ok place
  | place, piece :: pieces =>
    if files.isDirectory place then
      if maxNameSize < nameSize piece then .error .nameTooLong
      else follow files (place.enter piece) pieces
    else .error (if files.isFile place then .notDirectory else .notFound)

/-- The place that a path leads to. -/
def resolve (files : Files) (path : Text) : Except Error Place := do
  checkPath path
  if path.isEmpty then throw (.file .notFound path)
  (files.follow (Place.startOf path) (Path.pieces path)).mapError fun fault => .file fault path

/-- The bytes of a file. -/
def read (files : Files) (path : Text) : Except Error (List UInt8) := do
  let place ← files.resolve path
  if files.isDirectory place then throw (.file .isDirectory path)
  match files.contents.lookup place with
  | some bytes => return bytes
  | none => throw (.file .notFound path)

/-- Make a directory where nothing is. -/
def makeOne (files : Files) (path : Text) : Except Error Files := do
  let place ← files.resolve path
  if files.isDirectory place || files.isFile place then throw (.file .exists path)
  return { files with directories := files.directories ++ [place] }

/-- Let the failure to make a directory pass if the directory is there. -/
def orExisting (files : Files) (path : Text) (e : Error) : Except Error Files :=
  match e, files.resolve path with
  | .file _ _, .ok place => if files.isDirectory place then .ok files else .error e
  | _, _ => .error e

/-- Make a directory and those above it; the components of its path are given in reverse. -/
def makeAll (files : Files) (root : Text) : (reversed : List Text) → Except Error Files
  | [] =>
    let path := Path.assemble root []
    match files.makeOne path with
    | .ok files => .ok files
    | .error e => files.orExisting path e
  | name :: above =>
    let path := Path.assemble root (name :: above).reverse
    match files.makeOne path with
    | .ok files => .ok files
    | .error (.file .notFound _) => do
      let files ← makeAll files root above
      match files.makeOne path with
      | .ok files => .ok files
      | .error e => files.orExisting path e
    | .error e => files.orExisting path e

/-- Make a directory and those above it; one that exists is left as it is. -/
def makeDirectory (files : Files) (path : Text) : Except Error Files :=
  files.makeAll (Path.root path) (Path.components path).reverse

/-- Write a file in an existing directory. -/
def write (files : Files) (path : Text) (text : Text) : Except Error Files := do
  let place ← files.resolve path
  if files.isDirectory place then throw (.file .isDirectory path)
  let bytes ← (Text.encodeUtf8 text).mapError .unencodable
  return if files.isFile place then
    { files with
      contents := files.contents.map fun (p, old) => (p, if p == place then bytes else old) }
  else { files with contents := files.contents ++ [(place, bytes)] }

/-- Write a file, making the directories above it. -/
def save (files : Files) (path : Text) (text : Text) : Except Error Files := do
  (← files.makeDirectory (Path.parent path)).write (Path.normal path) text

/-- The characters of bytes that are read strictly. -/
def strictChars (bytes : List UInt8) : Except Text.Utf8Error (List Char) :=
  Text.unifyLines <$> Text.decodeUtf8 bytes

/-- The text of bytes that are read leniently. -/
def lenientText (bytes : List UInt8) : Text :=
  Text.ofChars (Text.unifyLines (Text.decodeUtf8Lenient bytes))

end Files

end Landscape
