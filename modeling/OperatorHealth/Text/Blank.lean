/-!
# Blanks

The six blank characters of plain text: space, tab, line feed, vertical tab, form feed and carriage
return.

## Main definitions

* `isBlank`: whether a character is one of them.
-/

namespace OperatorHealth

/-- Whether a character is a space or one of the five control characters from tab to carriage
return. -/
def isBlank (c : Char) : Bool := c == ' ' || (9 ≤ c.toNat && c.toNat ≤ 13)

end OperatorHealth
