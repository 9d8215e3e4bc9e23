import OperatorHealth.Proofs.Files.Tree
import OperatorHealth.Proofs.Json.RoundTrip

/-!
# Files in JSON

## Main definitions

* `Json.treeOf`: a tree with a document in its only file.

## Main results

* `Json.load?_treeOf`: the document is loaded from there.
-/

namespace OperatorHealth.Json

/-- The tree with a document in its only file, in the current directory. -/
def treeOf (name : String) (d : Document) : FileTree where
  entries := [(Place.current.child name, .file (write d))]

theorem load?_treeOf {name : String} {d : Document} (hkeys : d.hasTextKeys = true)
    (hname : (treeOf name d).resolve name = .ok (Place.current.child name))
    (hstanding : (Place.current.child name).isStanding = false) :
    (treeOf name d).load? name = .ok d := by
  have hlookup : (treeOf name d).lookup (Place.current.child name) = some (.file (write d)) := by
    simp [FileTree.lookup, hstanding, treeOf]
  exact FileTree.load?_of_lookup hname hlookup (read?_write hkeys)

end OperatorHealth.Json
