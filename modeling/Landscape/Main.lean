import Landscape.Command.Run

/-!
# The program

Reads the files that a call names and the variables of the environment, carries out the call, and
writes what came of it. A drawing is not painted: what is to be drawn is written as a document next
to the place of the image.
-/

namespace Landscape.Main

/-- The characters of a text; a half of a pair shows as the replacement character. -/
def characters (t : Text) : String :=
  String.ofList <| t.map fun s =>
    match s with
    | .char c => c
    | .half _ => Char.ofNat 0xfffd

/-- Add what stands at a path to a tree of files; nothing when there is nothing. -/
def gather (files : Files) (path : String) : IO Files := do
  let place := Place.ofPath path
  try
    if ← (← IO.FS.realPath path).isDir then
      return { files with directories := files.directories ++ [place] }
    let bytes ← IO.FS.readBinFile path
    return { files with contents := files.contents ++ [(place, bytes.toList)] }
  catch _ => return files

/-- The paths in an argument: all of it, and what follows an equals sign or an option's letter. -/
def pathsIn (argument : String) : List String :=
  let cs := argument.toList
  [argument, String.ofList (cs.drop 2), String.ofList ((cs.dropWhile (· != '=')).drop 1)]

/-- The files that arguments may name, and the directories that these stand in. -/
def gatherAll (arguments : List String) : IO Files :=
  let paths := (arguments.flatMap pathsIn).filter (!·.isEmpty)
  let above := paths.map fun (path : String) => characters (Path.parent path)
  (paths ++ above).eraseDups.foldlM gather {}

/-- The variables of the environment that are settings. -/
def environment : IO Environment :=
  Settings.variableNames.filterMapM fun name => do
    let name := Settings.variablePrefix ++ name
    let value ← IO.getEnv name
    return value.map fun (value : String) => (Text.ofString name, Text.ofString value)

/-- A number that differs from run to run. -/
def entropy : IO Nat := do
  return (← IO.getRandomBytes 16).toList.foldl (fun n b => 256 * n + b.toNat) 0

/-- Write bytes to a file, making the directories above it. -/
def save (path : Text) (bytes : ByteArray) : IO Unit := do
  IO.FS.createDirAll (characters (Path.parent path))
  IO.FS.writeBinFile (characters path) bytes

/-- Write the files that a call made or changed, and what it drew. -/
def saveAll (before : Files) (t : Command.Transcript) : IO Unit := do
  for (place, bytes) in t.files.contents do
    if before.contents.lookup place != some bytes then
      save place.path ⟨bytes.toArray⟩
  for d in t.drawings do
    save (d.path ++ ".json") (Json.print (.indented 2) d.toJson ++ "\n").toUTF8

end Landscape.Main

open Landscape in
/-- Carry out a call of the program. -/
def main (arguments : List String) : IO UInt32 := do
  let files ← Landscape.Main.gatherAll arguments
  let texts := arguments.map Text.ofString
  let outcome :=
    Command.call texts (← Landscape.Main.environment) files (← Landscape.Main.entropy)
  Landscape.Main.saveAll files outcome.transcript
  IO.print (Landscape.Main.characters outcome.transcript.output)
  IO.eprint (Landscape.Main.characters outcome.transcript.messages)
  match outcome.error with
  | some e => if !e.isReported then IO.eprintln (Landscape.Main.characters e.message)
  | none => pure ()
  return outcome.code.toUInt32
