/-
**Signatures of functions.**

What the declaration of a function or a method says about its parameters and its result.

Main definitions:

* `HintCheck.Param` — a parameter;
* `HintCheck.Signature` — a signature;
* `HintCheck.Signature.param?` — the parameter of a name.
-/

import HintCheck.Doc.Block

set_option relaxedAutoImplicit false
set_option autoImplicit false

namespace HintCheck

/-- A parameter of a function. -/
structure Param where
  /-- The line of the variable. -/
  line : Nat
  /-- The name without the dollar sign. -/
  name : Text
  ty : Ty
  /-- The type of the default value, where there is a default. -/
  default : Option Ty
  attributes : List Text
  /-- The comment inside the parameter. -/
  doc : Doc
  variadic : Bool
  byRef : Bool
  /-- Whether the parameter of a constructor declares a property too. -/
  promoted : Bool
  deriving Repr

/-- The signature of a function or a method. -/
structure Signature where
  /-- The line of the name. -/
  line : Nat
  name : Text
  params : List Param
  /-- The type of the result. -/
  result : Ty
  /-- The line that the result type ends on, or of the end of the parameters without one. -/
  resultLine : Nat
  deriving Repr

namespace Signature

/-- The first parameter of a name. -/
def param? (s : Signature) (name : Text) : Option Param := s.params.find? (·.name == name)

end Signature

end HintCheck
