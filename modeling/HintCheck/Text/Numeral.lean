/-
**Numerals.**

Whether a text is a whole number or a decimal fraction.  A whole number counts as one only as long
as it fits into 64 bits with a sign; a longer one is read as a fraction.

Main definitions:

* `HintCheck.Text.isInt64` — digits whose value fits;
* `HintCheck.Text.isDecimal` — digits with at most one point on either side or between them, and
  an optional exponent.
-/

import HintCheck.Text.Basic

set_option relaxedAutoImplicit false
set_option autoImplicit false

namespace HintCheck

namespace Text

/-- One or more digits. -/
def isDigits (cs : Text) : Bool := !cs.isEmpty && cs.all Char.isDigit

/-- The value of decimal digits. -/
def digitsValue (cs : Text) : Nat := cs.foldl (fun n c => 10 * n + (c.toNat - 48)) 0

/-- Digits whose value is below `2 ^ 63`. -/
def isInt64 (cs : Text) : Bool := isDigits cs && digitsValue cs < Nat.pow 2 63

/-- The exponent of a decimal fraction, or nothing. -/
def isExponent : Text → Bool
  | [] => true
  | mark :: cs =>
    (mark == 'e' || mark == 'E') &&
      match cs with
      | '+' :: digits => isDigits digits
      | '-' :: digits => isDigits digits
      | digits => isDigits digits

/-- A decimal fraction without a sign: digits before or after the point, or both. -/
def isDecimal (cs : Text) : Bool :=
  let whole := cs.takeWhile Char.isDigit
  match cs.dropWhile Char.isDigit with
  | '.' :: rest =>
    !(whole.isEmpty && (rest.takeWhile Char.isDigit).isEmpty) &&
      isExponent (rest.dropWhile Char.isDigit)
  | rest => !whole.isEmpty && isExponent rest

end Text

end HintCheck
