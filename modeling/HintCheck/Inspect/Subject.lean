/-
**Subjects of inspection.**

Parameters, results, properties and constants are inspected in the same way: each is a subject with
a documented and a declared type, and perhaps the type of a value.

Main definitions:

* `HintCheck.Subject` — a subject;
* `HintCheck.Subject.ofParam`, `HintCheck.Subject.ofResult`, `HintCheck.Subject.ofProperty`,
  `HintCheck.Subject.ofConstant` — the subjects that declarations give.
-/

import HintCheck.Declaration
import HintCheck.Ty.Build

set_option relaxedAutoImplicit false
set_option autoImplicit false

namespace HintCheck

/-- What kind of declaration a subject is. -/
inductive SubjectKind where
  | param
  | result
  | property
  | constant
  deriving DecidableEq, Repr

/-- One place where a type is declared and documented. -/
structure Subject where
  /-- How messages speak of the subject. -/
  name : Text
  kind : SubjectKind
  /-- The type and the line of the tag, where there is a tag. -/
  tag : Option Typing
  /-- The declared type. -/
  decl : Ty
  /-- The type of the value, where there is a value. -/
  value : Option Ty
  /-- The line of the declaration. -/
  line : Nat
  /-- Whether the declaration has a comment. -/
  documented : Bool

namespace Subject

/-- A subject without a tag. -/
def plain (name : Text) (kind : SubjectKind) (decl : Ty) (line : Nat) : Subject :=
  { name, kind, tag := none, decl, value := none, line, documented := false }

/-- A subject with the type of a tag. -/
def withTag (s : Subject) (tag : Typing) : Subject := { s with tag := some tag }

/-- The declared type of a parameter; a default value of null admits null. -/
def paramType (p : Param) : Ty :=
  match p.default with
  | some (.atom .null) => if p.ty.isDefined then p.ty.nullable else p.ty
  | _ => p.ty

/-- A parameter. -/
def ofParam (p : Param) : Subject :=
  { plain ("parameter $".toList ++ p.name) .param (paramType p) p.line with value := p.default }

/-- The result of a function. -/
def ofResult (s : Signature) : Subject := plain "return value".toList .result s.result s.resultLine

/-- A property. -/
def ofProperty (p : PropertyDecl) : Subject :=
  { plain ("property $".toList ++ p.name) .property p.ty p.line with value := p.value }

/-- A constant, which has no declared type. -/
def ofConstant (c : ConstantDecl) : Subject :=
  { plain (c.name ++ " constant".toList) .constant .undefined c.line with value := some c.value }

/-- The documented type. -/
def doc? (s : Subject) : Option Ty := s.tag.map (·.ty)

/-- The documented type, when the tag names one. -/
def definedDoc? (s : Subject) : Option Ty := s.doc?.filter Ty.isDefined

/-- Whether the documented type contains a form. -/
def docContains (s : Subject) (k : Ty.Kind) : Bool := s.doc?.any (·.contains k)

/-- The line of the tag, or of the declaration without one. -/
def docLine (s : Subject) : Nat := (s.tag.map (·.line)).getD s.line

end Subject

end HintCheck
