/-
**The type of a written value.**

Default values and constants are not evaluated: the type is read off the form of the expression,
and an expression of any other form has none.

Main definitions:

* `HintCheck.Ty.ofLiteral` — the type of a literal expression.
-/

import HintCheck.Text.Brackets
import HintCheck.Text.Numeral
import HintCheck.Ty.Basic

set_option relaxedAutoImplicit false
set_option autoImplicit false

namespace HintCheck

namespace Ty

open Text

/-- Whether a text begins with an opening and ends with a closing square bracket, or calls
`array`. -/
def isArrayLiteral (cs : Text) : Bool :=
  (cs.head? == some '[' && cs.getLast? == some ']') ||
    match dropPrefix? "array".toList (lower cs) with
    | some rest => (trimStart rest).head? == some '('
    | none => false

/-- Whether digits, without the underscores between them, form a whole number: decimal, or with a
prefix hexadecimal or binary. -/
def isIntegerLiteral : Text → Bool
  | '0' :: 'x' :: cs => !cs.isEmpty && cs.all isHexDigit
  | '0' :: 'X' :: cs => !cs.isEmpty && cs.all isHexDigit
  | '0' :: 'b' :: cs => !cs.isEmpty && cs.all isBit
  | '0' :: 'B' :: cs => !cs.isEmpty && cs.all isBit
  | cs => isDigits cs
where
  isHexDigit (c : Char) : Bool :=
    c.isDigit || ('a'.toNat ≤ c.toLower.toNat && c.toLower.toNat ≤ 'f'.toNat)
  isBit (c : Char) : Bool := c == '0' || c == '1'

/-- A numeric literal without the sign in front and without underscores. -/
def literalDigits (cs : Text) : Text :=
  let unsigned := match cs with
    | '-' :: rest => rest
    | '+' :: rest => rest
    | _ => cs
  (trimStart unsigned).filter (· != '_')

/-- The type of a literal expression; any other expression has none. -/
def ofLiteral (raw : Text) : Ty :=
  let cs := trim raw
  if sameLetters cs "null".toList then atom .null
  else if sameLetters cs "true".toList || sameLetters cs "false".toList then atom .bool
  else if isArrayLiteral cs then atom .array
  else if isQuoted cs then atom .string
  else
    let digits := literalDigits cs
    if !digits.head?.any (fun c => c.isDigit || c == '.') then undefined
    else if isIntegerLiteral digits then atom .int
    else if isDecimal digits then atom .float
    else undefined

end Ty

end HintCheck
