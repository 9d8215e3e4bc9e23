import OperatorHealth.Document.Basic

/-!
# Writing documents in JSON

The text of a document is on one line. A sequence stands in brackets and a mapping in braces,
their parts separated by commas. Every scalar is quoted, so its text survives whatever it looks
like; inside the quotes, quotes and backslashes follow a backslash, and control characters are
spelled out. Every key has to be a scalar.

## Main definitions

* `Json.write`: the text of a document whose keys are scalars.
-/

namespace OperatorHealth.Json

/-! ### Scalars -/

/-- A character inside quotes. -/
def escape (c : Char) : List Char :=
  if c = '"' then ['\\', '"']
  else if c = '\\' then ['\\', '\\']
  else if c.toNat < 32 then
    ['\\', 'u', '0', '0', Nat.digitChar (c.toNat / 16), Nat.digitChar (c.toNat % 16)]
  else [c]

/-- A text in quotes. -/
def quote (s : String) : List Char := '"' :: (s.toList.flatMap escape ++ ['"'])

/-! ### Trees -/

/-- The characters of a key and of the colon behind it. -/
def keyChars (k : Document) : List Char := quote (k.key?.getD "") ++ [':']

mutual

/-- The characters of a document. -/
def chars : Document → List Char
  | .null => ['n', 'u', 'l', 'l']
  | .scalar s => quote s
  | .sequence [] => ['[', ']']
  | .sequence (d :: ds) => '[' :: (chars d ++ itemChars ds)
  | .mapping [] => ['{', '}']
  | .mapping ((k, d) :: es) => '{' :: (keyChars k ++ (chars d ++ entryChars es))

/-- The characters of the items after the first and of the closing bracket. -/
def itemChars : List Document → List Char
  | [] => [']']
  | d :: ds => ',' :: (chars d ++ itemChars ds)

/-- The characters of the entries after the first and of the closing brace. -/
def entryChars : List (Document × Document) → List Char
  | [] => ['}']
  | (k, d) :: es => ',' :: (keyChars k ++ (chars d ++ entryChars es))

end

/-- The text of a document whose keys are scalars. -/
def write (d : Document) : String := String.ofList (chars d)

end OperatorHealth.Json
