/-
**The declarations of a file.**

What the rules look at: the functions of a file, its classes, interfaces, traits and enumerations,
and their methods, properties and constants, each with its comment.

Main definitions:

* `HintCheck.FunctionDecl`, `HintCheck.MethodDecl`, `HintCheck.PropertyDecl`,
  `HintCheck.ConstantDecl`, `HintCheck.ClassDecl` — declarations;
* `HintCheck.SourceFile` — a file with its declarations and its silencing comments.
-/

import HintCheck.ReadError
import HintCheck.Signature.Basic
import HintCheck.Suppress

set_option relaxedAutoImplicit false
set_option autoImplicit false

namespace HintCheck

/-- A function outside of classes. -/
structure FunctionDecl where
  line : Nat
  signature : Signature
  doc : Doc
  deriving Repr

/-- The kinds of declarations that have members. -/
inductive ClassKind where
  | ordinary
  | interface
  | trait
  | enumeration
  deriving DecidableEq, Repr

/-- A method. -/
structure MethodDecl where
  line : Nat
  signature : Signature
  doc : Doc
  /-- The property that the method returns, when it does nothing else. -/
  getter : Option Text
  deriving Repr

/-- A property. -/
structure PropertyDecl where
  line : Nat
  /-- The name without the dollar sign. -/
  name : Text
  ty : Ty
  /-- The type of the default value, where there is a default. -/
  value : Option Ty
  doc : Doc
  deriving Repr

/-- A constant of a class. -/
structure ConstantDecl where
  line : Nat
  name : Text
  /-- The type of the value. -/
  value : Ty
  doc : Doc
  deriving Repr

/-- A class, an interface, a trait or an enumeration. -/
structure ClassDecl where
  /-- The line of the name. -/
  line : Nat
  kind : ClassKind
  name : Text
  /-- The name with its namespace, without a separator in front. -/
  fullName : Text
  scope : Option Text
  doc : Doc
  /-- The class that is extended, as it was written. -/
  parent : Option Text
  /-- The interfaces that are implemented, or extended by an interface, as they were written. -/
  interfaces : List Text
  methods : List MethodDecl
  properties : List PropertyDecl
  constants : List ConstantDecl
  deriving Repr

/-- The first property of a name. -/
def ClassDecl.property? (c : ClassDecl) (name : Text) : Option PropertyDecl :=
  c.properties.find? (·.name == name)

/-- A declaration that could not be read. -/
structure ReadFailure where
  line : Nat
  cause : ReadError
  deriving DecidableEq, Repr

/-- A file with its declarations. -/
structure SourceFile where
  path : Text
  source : Text
  /-- The first namespace that the file declares. -/
  scope : Option Text
  /-- The imported names under their aliases in small letters. -/
  imports : List (Text × Text)
  functions : List FunctionDecl
  classes : List ClassDecl
  failures : List ReadFailure
  suppressions : Suppressions

/-- The lines of a file. -/
def SourceFile.lines (f : SourceFile) : List Text := Text.lines f.source

end HintCheck
