import OperatorHealth.Document.Integer

/-!
# Documents

A document is a tree: nothing, a scalar with its text, a sequence, or a mapping from documents to
documents in the order they are written. Every number, truth value and string is a scalar, quoted
or not; what it stands for is decided when it is read. These are the node graphs of YAML, where an
alias stands for a copy of what it names, and a tag is not looked at.

Two things can go wrong when a tree is read. A key can be asked of a scalar, and a node can fail
to convert to the type that is wanted. Nodes answer as it is documented for the library that reads
YAML here:

* Asked for the entry of a text, a mapping gives the first one whose key is a scalar with that text;
  a key that is null or no scalar is never found. Nothing, and a sequence, have no such entry, and
  a scalar must not be asked (`Document.field?`).
* As a text, a scalar is its text whatever it looks like, and nothing is `null`; other nodes do not
  convert (`Document.text`).
* As an integer, a scalar is what a stream reads from its text in the base that its prefix tells, if
  that fits the type and only blanks follow it; other nodes do not convert (`Document.int64`,
  `Document.int32`).
* As a list, a sequence has its items converted one after the other; other nodes, nothing among
  them, do not convert (`Document.list`).
* As a map of texts, a mapping has each key and each value converted to a text, one entry after the
  other, and the later of two equal keys counts; other nodes do not convert (`Document.textMap`).

## Main definitions

* `Document`: the tree.
* `Document.record`: a mapping whose keys are texts.
* `NodeError`: what can go wrong.
* `Document.field?`: the entry of a key.
* `Document.text`, `Document.int64`, `Document.int32`, `Document.list`, `Document.textMap`: the
  conversions.
* `Document.hasTextKeys`: documents whose keys are texts.
-/

namespace OperatorHealth

/-- A tree of scalars, sequences and mappings. -/
inductive Document
  | null
  | scalar (text : String)
  | sequence (items : List Document)
  | mapping (entries : List (Document × Document))
  deriving Inhabited

/-- Why a node cannot be read. -/
inductive NodeError
  /-- A key was asked of a scalar. -/
  | badSubscript
  /-- The node does not convert to the type that is wanted. -/
  | badConversion
  deriving DecidableEq, Repr

/-- The text of the error. -/
def NodeError.message : NodeError → String
  | badSubscript => "a key was asked of a scalar"
  | badConversion => "a node has the wrong type"

namespace Document

/-- Whether a node stands for nothing. -/
def isNull : Document → Bool
  | null => true
  | _ => false

/-- Whether a node is a mapping. -/
def isMapping : Document → Bool
  | mapping _ => true
  | _ => false

/-- A mapping whose keys are texts. -/
def record (fields : List (String × Document)) : Document :=
  mapping (fields.map fun f => (scalar f.1, f.2))

/-- The text that a key is found by, if it is a scalar. -/
def key? : Document → Option String
  | scalar s => some s
  | _ => none

/-- The first entry of a key in a list of entries. -/
def findEntry (key : String) (es : List (Document × Document)) : Option Document :=
  (es.find? (·.1.key? == some key)).map Prod.snd

/-- The entry of a key. Only a mapping has entries, and a scalar cannot be asked. -/
def field? (key : String) : Document → Except NodeError (Option Document)
  | mapping es => .ok (findEntry key es)
  | null => .ok none
  | sequence _ => .ok none
  | scalar _ => .error .badSubscript

/-! ### Conversions -/

/-- The text of a node. -/
def text : Document → Except NodeError String
  | scalar s => .ok s
  | null => .ok "null"
  | sequence _ => .error .badConversion
  | mapping _ => .error .badConversion

/-- The integer that a scalar spells out. -/
def integer : Document → Except NodeError Int
  | scalar s => match Integer.read? s.toList with
    | some n => .ok n
    | none => .error .badConversion
  | _ => .error .badConversion

/-- The integer that a scalar spells out, if it fits 64 bits. -/
def int64 (d : Document) : Except NodeError Int64 := do
  let n ← d.integer
  if Int64.minValue.toInt ≤ n ∧ n ≤ Int64.maxValue.toInt then .ok (Int64.ofInt n)
  else .error .badConversion

/-- The integer that a scalar spells out, if it fits 32 bits. -/
def int32 (d : Document) : Except NodeError Int32 := do
  let n ← d.integer
  if Int32.minValue.toInt ≤ n ∧ n ≤ Int32.maxValue.toInt then .ok (Int32.ofInt n)
  else .error .badConversion

/-- The items of a sequence, each converted. -/
def list {α : Type} (convert : Document → Except NodeError α) :
    Document → Except NodeError (List α)
  | sequence items => items.mapM convert
  | _ => .error .badConversion

/-- The entries of a mapping, the keys and what they stand for converted to their texts. -/
def textMap : Document → Except NodeError (List (String × String))
  | mapping es => es.mapM fun e => do return (← e.1.text, ← e.2.text)
  | _ => .error .badConversion

/-! ### Keys that are texts -/

mutual

/-- Whether every key of a mapping in a document is a scalar. -/
def hasTextKeys : Document → Bool
  | null => true
  | scalar _ => true
  | sequence items => itemsHaveTextKeys items
  | mapping es => entriesHaveTextKeys es

/-- Whether the keys in the items of a sequence are scalars. -/
def itemsHaveTextKeys : List Document → Bool
  | [] => true
  | d :: ds => d.hasTextKeys && itemsHaveTextKeys ds

/-- Whether the keys of the entries, and those in the documents under them, are scalars. -/
def entriesHaveTextKeys : List (Document × Document) → Bool
  | [] => true
  | (k, d) :: es => k.key?.isSome && (d.hasTextKeys && entriesHaveTextKeys es)

end

end Document

end OperatorHealth
