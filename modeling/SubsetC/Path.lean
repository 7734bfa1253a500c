import SubsetC.Text

/-!
# File paths

Paths are texts whose parts are separated by slashes. These operations look at the text of a path
only, not at any file.
-/

namespace SubsetC

/-- The pieces of a text between the occurrences of a separator; there is always one. -/
def Text.split (separator : UInt8) : Text → List Text
  | [] => [[]]
  | byte :: bytes =>
    if byte = separator then [] :: split separator bytes
    else
      match split separator bytes with
      | piece :: pieces => (byte :: piece) :: pieces
      | [] => [[byte]]

namespace Path

/-- The separator of the parts of a path. -/
def slash : UInt8 := Text.ofAscii '/'

/-- The start of an extension. -/
def dot : UInt8 := Text.ofAscii '.'

/-- Whether a path starts at the root. -/
def isAbsolute (path : Text) : Bool := path.head? = some slash

/-- The parts of a path, empty ones included. -/
def parts (path : Text) : List Text := Text.split slash path

/-- The path without its last part: everything up to and including the last slash. -/
def parent (path : Text) : Text := (path.reverse.dropWhile (· ≠ slash)).reverse

/-- The last part of a path. -/
def fileName (path : Text) : Text := (path.reverse.takeWhile (· ≠ slash)).reverse

/-- The path without the extension of its last part, which starts at the last dot. -/
def stem (path : Text) : Text :=
  let name := fileName path
  if name.contains dot then
    parent path ++ ((name.reverse.dropWhile (· ≠ dot)).drop 1).reverse
  else path

/-- The parts of the shortest equivalent path, the last one first, given those before. A part `..`
cancels a named part before it, and at the root it has no effect. -/
def cleanParts (isAbsolute : Bool) (before : List Text) : List Text → List Text
  | [] => before
  | part :: rest =>
    if part = "" ∨ part = "." then cleanParts isAbsolute before rest
    else if part = ".." then
      match before with
      | [] => cleanParts isAbsolute (if isAbsolute then [] else [part]) rest
      | last :: others =>
        cleanParts isAbsolute (if last = ".." then part :: before else others) rest
    else cleanParts isAbsolute (part :: before) rest

/-- The shortest equivalent path. -/
def clean (path : Text) : Text :=
  let cleaned := Text.join "/" (cleanParts (isAbsolute path) [] (parts path)).reverse
  if isAbsolute path then slash :: cleaned
  else if cleaned.isEmpty then "."
  else cleaned

/-- The path of a file that stands beside another one. -/
def beside (path name : Text) : Text := clean (clean (parent path) ++ [slash] ++ name)

end Path

end SubsetC
