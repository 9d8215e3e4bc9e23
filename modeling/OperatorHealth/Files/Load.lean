import OperatorHealth.Document.Format
import OperatorHealth.Files.Tree

/-!
# Loading documents from files

## Main definitions

* `LoadError`: why a file gives no document.
* `FileTree.load?`: the document in a file.
-/

namespace OperatorHealth

/-- Why a file gives no document. -/
inductive LoadError
  /-- The file cannot be opened. -/
  | cannotOpen
  /-- Its text is no document. -/
  | malformed
  deriving DecidableEq, Repr

/-- The document in the file at the end of a path. -/
def FileTree.load? [DocumentFormat] (t : FileTree) (path : String) : Except LoadError Document :=
  match t.read? path with
  | none => .error .cannotOpen
  | some text =>
    match DocumentFormat.read? text with
    | some d => .ok d
    | none => .error .malformed

end OperatorHealth
