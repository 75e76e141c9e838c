/-
**What can be wrong with a declaration or its comment.**

Reading a type never fails, but a declaration without a name or a tag without a name cannot be
read.  Such a failure costs the one declaration it was found in.

Main definitions:

* `HintCheck.ReadError` — the causes;
* `HintCheck.ReadError.message` — the words for each of them.
-/

import HintCheck.Text.Basic

set_option relaxedAutoImplicit false
set_option autoImplicit false

namespace HintCheck

/-- Why a declaration or a documentation comment could not be read. -/
inductive ReadError where
  /-- A declaration of a function names none. -/
  | missingFunctionName
  /-- The list of parameters does not begin or does not end. -/
  | missingParameterList
  /-- A parameter, ended on this line, has no variable. -/
  | missingParameterName (line : Nat)
  /-- A tag on this line has no name. -/
  | emptyTagName (line : Nat)
  deriving DecidableEq, Repr

namespace ReadError

/-- The words for a failure. -/
def message : ReadError → Text
  | missingFunctionName => "expected to find function name".toList
  | missingParameterList => "expected to find parameter list".toList
  | missingParameterName line => "expected parameter name on line ".toList ++ Text.ofNat line
  | emptyTagName line => "expected tag name on line ".toList ++ Text.ofNat line

end ReadError

end HintCheck
