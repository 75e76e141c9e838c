/-
**Names of classes.**

A class name consists of segments between separators.  A file may name a class by a part of its
full name, through an import or from within its namespace.

Main definitions:

* `HintCheck.ClassName.relative`, `HintCheck.ClassName.lastSegment` — parts of a name;
* `HintCheck.ClassName.key` — the form in which full names are compared;
* `HintCheck.ClassName.resolve` — the full name of a class that a file names.
-/

import HintCheck.Text.Lowercase
import HintCheck.Text.Basic

set_option relaxedAutoImplicit false
set_option autoImplicit false

namespace HintCheck

namespace ClassName

/-- A name without the separators in front. -/
def relative (name : Text) : Text := name.dropWhile (· == '\\')

/-- The last segment of a name. -/
def lastSegment (name : Text) : Text := (name.reverse.takeWhile (· != '\\')).reverse

/-- The form in which full names are compared: without separators in front and in small letters. -/
def key (name : Text) : Text := Text.lowercase (relative name)

/-- The full name, without a separator in front, of a class that is named in a namespace of a file.
An import of its first segment wins over the namespace. -/
def resolve (scope : Option Text) (imports : List (Text × Text)) (written : Text) : Text :=
  match written with
  | '\\' :: absolute => absolute
  | _ =>
    match imports.lookup (Text.lower (written.takeWhile (· != '\\'))) with
    | some target => target ++ written.dropWhile (· != '\\')
    | none =>
      match scope with
      | some name => name ++ '\\' :: written
      | none => written

end ClassName

end HintCheck
