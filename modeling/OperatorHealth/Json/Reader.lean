import OperatorHealth.Document.Basic

/-!
# Reading documents in JSON

A blank text is the document that stands for nothing. Any other text holds one document: `null`, a
scalar, a sequence in brackets or a mapping from quoted keys in braces. A scalar is quoted, or is a
number or a truth value as it stands. Blanks may separate all of these. A text that is none of this
cannot be read.

## Main definitions

* `Json.read?`: the document in a text.
-/

namespace OperatorHealth.Json

/-- The blanks between the parts of a text: space, tab, line feed and carriage return. -/
def isSeparatorBlank (c : Char) : Bool := c == ' ' || c == '\t' || c == '\n' || c == '\r'

/-- The text after its leading blanks. -/
def skipBlanks (cs : List Char) : List Char := cs.dropWhile isSeparatorBlank

/-! ### Quoted scalars

Between quotes a character stands for itself or is spelled out after a backslash. A spelled-out
character beyond the basic plane takes two units, a high and a low surrogate.
-/

/-- The unit that a backslash and a character stand for. -/
def simpleEscape? : Char → Option Nat
  | '"' => some 34
  | '\\' => some 92
  | '/' => some 47
  | 'b' => some 8
  | 'f' => some 12
  | 'n' => some 10
  | 'r' => some 13
  | 't' => some 9
  | _ => none

/-- The number that four hexadecimal digits spell. -/
def hexUnit? (a b c d : Char) : Option Nat := do
  let a ← Integer.digitValue? a
  let b ← Integer.digitValue? b
  let c ← Integer.digitValue? c
  let d ← Integer.digitValue? d
  return ((a * 16 + b) * 16 + c) * 16 + d

/-- The units up to the closing quote and the text after it. -/
def readUnits? : List Char → Option (List Nat × List Char)
  | [] => none
  | '"' :: rest => some ([], rest)
  | '\\' :: 'u' :: a :: b :: c :: d :: rest =>
    match hexUnit? a b c d, readUnits? rest with
    | some u, some (us, rest) => some (u :: us, rest)
    | _, _ => none
  | '\\' :: c :: rest =>
    match simpleEscape? c, readUnits? rest with
    | some u, some (us, rest) => some (u :: us, rest)
    | _, _ => none
  | c :: rest =>
    if c.toNat < 32 then none else (readUnits? rest).map fun p => (c.toNat :: p.1, p.2)

/-- The characters that units stand for. A surrogate that is not part of a pair stands for
none. -/
def unitsToChars? : List Nat → Option (List Char)
  | [] => some []
  | u :: us =>
    if 0xD800 ≤ u ∧ u < 0xDC00 then
      match us with
      | [] => none
      | v :: us =>
        if 0xDC00 ≤ v ∧ v < 0xE000 then
          (unitsToChars? us).map
            (Char.ofNat (0x10000 + (u - 0xD800) * 0x400 + (v - 0xDC00)) :: ·)
        else none
    else if 0xDC00 ≤ u ∧ u < 0xE000 then none
    else (unitsToChars? us).map (Char.ofNat u :: ·)

/-- The text up to the closing quote and what follows it. -/
def readQuoted? (cs : List Char) : Option (String × List Char) := do
  let (us, rest) ← readUnits? cs
  let text ← unitsToChars? us
  return (String.ofList text, rest)

/-! ### Plain scalars -/

/-- Whether a text is an exponent, with its letter, or empty. -/
def isExponent : List Char → Bool
  | [] => true
  | e :: cs =>
    let ds := match cs with
      | '+' :: ds => ds
      | '-' :: ds => ds
      | ds => ds
    (e == 'e' || e == 'E') && !ds.isEmpty && ds.all Char.isDigit

/-- Whether a text is what may follow the whole digits of a number. -/
def isFraction : List Char → Bool
  | '.' :: cs =>
    !(cs.takeWhile Char.isDigit).isEmpty && isExponent (cs.dropWhile Char.isDigit)
  | cs => isExponent cs

/-- Whether a text is a number without a sign. Only `0` itself starts with a `0`. -/
def isUnsigned : List Char → Bool
  | '0' :: cs => isFraction cs
  | cs => !(cs.takeWhile Char.isDigit).isEmpty && isFraction (cs.dropWhile Char.isDigit)

/-- Whether a text is a number. -/
def isNumber : List Char → Bool
  | '-' :: cs => isUnsigned cs
  | cs => isUnsigned cs

/-- The document that a word without quotes stands for. -/
def ofWord? (w : List Char) : Option Document :=
  if w = ['n', 'u', 'l', 'l'] then some .null
  else if w = ['t', 'r', 'u', 'e'] ∨ w = ['f', 'a', 'l', 's', 'e'] ∨ isNumber w then
    some (.scalar (String.ofList w))
  else none

/-- Whether a character can be part of a word without quotes. -/
def isWordChar (c : Char) : Bool := c.isAlphanum || c == '-' || c == '+' || c == '.'

/-! ### Trees -/

mutual

/-- The document at the front of a text and the text after it. -/
def readNode? : Nat → List Char → Option (Document × List Char)
  | 0, _ => none
  | fuel + 1, cs =>
    match skipBlanks cs with
    | '"' :: rest => (readQuoted? rest).map fun p => (.scalar p.1, p.2)
    | '[' :: rest =>
      match skipBlanks rest with
      | ']' :: rest => some (.sequence [], rest)
      | rest => (readItems? fuel rest).map fun p => (.sequence p.1, p.2)
    | '{' :: rest =>
      match skipBlanks rest with
      | '}' :: rest => some (.mapping [], rest)
      | rest => (readEntries? fuel rest).map fun p => (.mapping p.1, p.2)
    | rest => (ofWord? (rest.takeWhile isWordChar)).map (·, rest.dropWhile isWordChar)

/-- One or more items, the closing bracket, and the text after it. -/
def readItems? : Nat → List Char → Option (List Document × List Char)
  | 0, _ => none
  | fuel + 1, cs =>
    match readNode? fuel cs with
    | none => none
    | some (d, rest) =>
      match skipBlanks rest with
      | ']' :: rest => some ([d], rest)
      | ',' :: rest => (readItems? fuel rest).map fun p => (d :: p.1, p.2)
      | _ => none

/-- One or more entries, the closing brace, and the text after it. -/
def readEntries? : Nat → List Char → Option (List (Document × Document) × List Char)
  | 0, _ => none
  | fuel + 1, cs =>
    match skipBlanks cs with
    | '"' :: rest =>
      match readQuoted? rest with
      | none => none
      | some (k, rest) =>
        match skipBlanks rest with
        | ':' :: rest =>
          match readNode? fuel rest with
          | none => none
          | some (d, rest) =>
            match skipBlanks rest with
            | '}' :: rest => some ([(.scalar k, d)], rest)
            | ',' :: rest => (readEntries? fuel rest).map fun p => ((.scalar k, d) :: p.1, p.2)
            | _ => none
        | _ => none
    | _ => none

end

/-- The document in a text. Every part of it takes at least one character, so reading needs no
more than two rounds for each. -/
def read? (text : String) : Option Document :=
  let cs := skipBlanks text.toList
  if cs = [] then some .null
  else match readNode? (2 * cs.length + 2) cs with
    | some (d, rest) => if skipBlanks rest = [] then some d else none
    | none => none

end OperatorHealth.Json
