import OperatorHealth.Text.Terminated

/-!
# Paths

A path is a text of names between slashes, absolute if it starts with one. The system reads it up
to its first zero character, and takes neither a path nor a name of any length: lengths are counted
in bytes.

## Main definitions

* `Path.join`: a path inside a directory.
* `Path.components`: the names in a text.
* `Path.names`: the names that a path walks through.
* `Path.isTooLong`, `Path.isLongName`: what the system does not take.
-/

namespace OperatorHealth.Path

/-- Whether a path starts at the root of the file system. -/
def isAbsolute (path : String) : Bool := path.toList.head? == some '/'

/-- The path `name` seen from a directory. A separator goes between unless one is there, and an
absolute `name` stands for itself. -/
def join (directory name : String) : String :=
  if isAbsolute name ∨ directory = "" then name
  else if directory.toList.getLast? = some '/' then directory ++ name
  else directory ++ "/" ++ name

/-! ### Names -/

/-- The stretches of a text between its slashes. -/
def split : List Char → List (List Char)
  | [] => [[]]
  | c :: cs =>
    if c = '/' then [] :: split cs
    else match split cs with
      | [] => [[c]]
      | w :: ws => (c :: w) :: ws

/-- The names in a text. A doubled or trailing slash leaves an empty one. -/
def components (text : String) : List String := (split text.toList).map String.ofList

/-- The names that a path walks through. -/
def names (path : String) : List String := components (terminated path)

/-- Whether a name stands for the directory it is looked up in. -/
def isHere (name : String) : Bool := name == "" || name == "."

/-- Whether a name leads further down. -/
def isProper (name : String) : Bool := !isHere name && name != ".."

/-! ### Lengths -/

/-- The longest name, in bytes. -/
def maxNameSize : Nat := 255

/-- The longest path, in bytes. -/
def maxSize : Nat := 4095

/-- Whether a name is longer than the system takes. -/
def isLongName (name : String) : Bool := maxNameSize < name.utf8ByteSize

/-- Whether a path is longer than the system takes. -/
def isTooLong (path : String) : Bool := maxSize < (terminated path).utf8ByteSize

end OperatorHealth.Path
