/-
**JSON texts.**

The texts of values are put together from the inside.  A list or a record takes a line for each of
its parts, two blanks further in, and stays on one line when it has none.

Main definitions:

* `HintCheck.JsonText.quote` — a text in quotation marks;
* `HintCheck.JsonText.list`, `HintCheck.JsonText.record` — texts of several parts.

Main results:

* `HintCheck.JsonText.escapeAll_append` — a text is quoted character by character.
-/

import HintCheck.Text.Basic

set_option relaxedAutoImplicit false
set_option autoImplicit false

namespace HintCheck

namespace JsonText

/-! ### Texts -/

/-- The last four hexadecimal digits of a number. -/
def hexadecimal (n : Nat) : Text := (Nat.toDigits 16 n).leftpad 4 '0'

/-- A character between quotation marks. -/
def escape (c : Char) : Text :=
  match c with
  | '"' => ['\\', '"']
  | '\\' => ['\\', '\\']
  | '\n' => ['\\', 'n']
  | '\r' => ['\\', 'r']
  | '\t' => ['\\', 't']
  | '\x08' => ['\\', 'b']
  | '\x0c' => ['\\', 'f']
  | c => if c.toNat < 32 then '\\' :: 'u' :: hexadecimal c.toNat else [c]

/-- The characters between the quotation marks. -/
def escapeAll (cs : Text) : Text := cs.flatMap escape

theorem escapeAll_append (cs ds : Text) : escapeAll (cs ++ ds) = escapeAll cs ++ escapeAll ds := by
  simp [escapeAll]

/-- A text in quotation marks. -/
def quote (cs : Text) : Text := '"' :: escapeAll cs ++ ['"']

/-! ### Values of several parts -/

/-- Parts between brackets, on lines of their own; `depth` counts the values around. -/
def block (opening closing : Char) (depth : Nat) (parts : List Text) : Text :=
  match parts with
  | [] => [opening, closing]
  | parts =>
    let indent (n : Nat) : Text := '\n' :: List.replicate (2 * n) ' '
    opening :: [','].intercalate (parts.map fun part => indent (depth + 1) ++ part) ++
      indent depth ++ [closing]

/-- A list. -/
def list (depth : Nat) (values : List Text) : Text := block '[' ']' depth values

/-- A record of fields with their values. -/
def record (depth : Nat) (fields : List (String × Text)) : Text :=
  block '\x7b' '\x7d' depth (fields.map fun f => quote f.1.toList ++ ": ".toList ++ f.2)

end JsonText

end HintCheck
