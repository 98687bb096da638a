import Landscape.Text.Case

/-!
# File paths

A path is split at its slashes. Its normal form has neither empty components nor components that
stay in place; its suffix is the last part of its name from the last dot on.
-/

namespace Landscape.Path

/-- The pieces of a path between slashes. -/
def pieces (path : Text) : List Text := path.splitOn (.char '/')

/-- The component that stays in place. -/
def here : Text := "."

/-- The component that leads up. -/
def up : Text := ".."

/-- The components of a path, without those that stay in place. -/
def components (path : Text) : List Text :=
  (pieces path).filter fun piece => piece != [] && piece != here

/-- What a path begins with: two slashes alone are kept, any other count is one root. -/
def root (path : Text) : Text :=
  match path.takeWhile (· == .char '/') with
  | [] => []
  | [slash, _] => [slash, slash]
  | slash :: _ => [slash]

/-- Put a root and components together. -/
def assemble (root : Text) (components : List Text) : Text :=
  if root.isEmpty && components.isEmpty then here else root ++ Text.joinWith "/" components

/-- The normal form of a path. -/
def normal (path : Text) : Text := assemble (root path) (components path)

/-- The directory that holds a path, itself in normal form. -/
def parent (path : Text) : Text := assemble (root path) (components path).dropLast

/-- The last component of a path. -/
def name (path : Text) : Text := (components path).getLast?.getD []

/-- The suffix of a path's name with its dot; a dot at either end of the name begins none. -/
def suffix (path : Text) : Text :=
  let reversed := (name path).reverse
  let extension := reversed.takeWhile (· != .char '.')
  match reversed.dropWhile (· != .char '.') with
  | dot :: _ :: _ => if extension.isEmpty then [] else dot :: extension.reverse
  | _ => []

/-- The suffix in lower case. -/
def lowerSuffix (path : Text) : Text := Text.lower (suffix path)

end Landscape.Path
