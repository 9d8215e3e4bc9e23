import OperatorHealth.Text.Terminated

/-!
# Names of workloads

A workload is named by a namespace and a name, written with a slash between them, or by a name
alone if it has no namespace.

## Main definitions

* `WorkloadName`: the name of a workload.
* `WorkloadName.text`, `WorkloadName.parse?`: its text and the name in a text.
* `WorkloadName.parseAll?`: the names in several texts.
-/

namespace OperatorHealth

/-- The name of a workload in its namespace. -/
structure WorkloadName where
  ns : String
  name : String
  deriving DecidableEq, Repr

/-- Why a text names no workload. -/
inductive NameError
  | empty
  /-- A part is empty, or there are more than two. -/
  | invalid (text : String)
  deriving DecidableEq, Repr

/-- The text of the error. -/
def NameError.message : NameError → String
  | empty => "empty workload name"
  | invalid text =>
    terminated ("invalid workload name \"" ++ text ++ "\", expected namespace/name")

namespace WorkloadName

/-- The parts of a name in the order that sorts names. -/
def key (n : WorkloadName) : List String := [n.ns, n.name]

instance : LT WorkloadName := ⟨fun a b => a.key < b.key⟩

instance (a b : WorkloadName) : Decidable (a < b) :=
  inferInstanceAs (Decidable (a.key < b.key))

/-- The text of a name. -/
def text (n : WorkloadName) : String := if n.ns = "" then n.name else n.ns ++ "/" ++ n.name

/-- The name in a text: the first slash ends the namespace. -/
def parse? (text : String) : Except NameError WorkloadName :=
  let cs := text.toList
  match cs.dropWhile (· != '/') with
  | [] => if cs = [] then .error .empty else .ok ⟨"", text⟩
  | _ :: name =>
    let ns := cs.takeWhile (· != '/')
    if ns = [] ∨ name = [] ∨ '/' ∈ name then .error (.invalid text)
    else .ok ⟨String.ofList ns, String.ofList name⟩

/-- The names in texts, if each of them has one. -/
def parseAll? (texts : List String) : Except NameError (List WorkloadName) := texts.mapM parse?

end WorkloadName

end OperatorHealth
