/-
**The names of the built-in types.**

A built-in type has a keyword and, in documentation, many refined spellings that say more than a
declaration can (`positive-int`, `class-string`).  Each is read as the built-in type it refines, in
any case of letters.

Main definitions:

* `HintCheck.Atom.text` — the keyword that a type is written with;
* `HintCheck.Ty.keyword` — the type that a keyword stands for.

Main results:

* `HintCheck.Ty.keyword_lower` — the case of the letters does not matter.
-/

import HintCheck.Ty.Build

set_option relaxedAutoImplicit false
set_option autoImplicit false

namespace HintCheck

/-- The keyword that a built-in type is written with. -/
def Atom.text : Atom → Text
  | .int => "int".toList
  | .float => "float".toList
  | .string => "string".toList
  | .bool => "bool".toList
  | .true => "true".toList
  | .false => "false".toList
  | .null => "null".toList
  | .void => "void".toList
  | .mixed => "mixed".toList
  | .self => "self".toList
  | .static => "static".toList
  | .callable => "callable".toList
  | .object => "object".toList
  | .iterable => "iterable".toList
  | .resource => "resource".toList
  | .never => "never".toList
  | .array => "array".toList

namespace Ty

/-- The spellings of each built-in type, in small letters. -/
def keywords : List (List String × Ty) :=
  [(["int", "integer", "positive-int", "negative-int", "non-negative-int", "non-positive-int",
      "non-zero-int"], atom .int),
   (["float", "double"], atom .float),
   (["string", "class-string", "interface-string", "non-empty-string", "numeric-string",
      "literal-string", "callable-string", "lowercase-string", "non-falsy-string",
      "truthy-string"], atom .string),
   (["bool", "boolean"], atom .bool),
   (["true"], atom .true),
   (["false"], atom .false),
   (["null"], atom .null),
   (["void"], atom .void),
   (["mixed"], atom .mixed),
   (["self"], atom .self),
   (["static", "$this"], atom .static),
   (["callable"], atom .callable),
   (["object"], atom .object),
   (["iterable"], atom .iterable),
   (["resource", "closed-resource", "open-resource"], atom .resource),
   (["never", "never-return", "never-returns", "no-return", "noreturn"], atom .never),
   (["array", "list", "non-empty-array", "non-empty-list"], atom .array),
   (["array-key"], union [atom .int, atom .string]),
   (["numeric"], union [atom .int, atom .float]),
   (["scalar"], union [atom .int, atom .float, atom .string, atom .bool])]

/-- The type that a keyword stands for, whatever the case of its letters. -/
def keyword (name : Text) : Option Ty :=
  (keywords.find? fun row => row.1.any fun k => k.toList == Text.lower name).map (·.2)

/-- A keyword is recognised in any case of its letters. -/
theorem keyword_lower (name : Text) : keyword (Text.lower name) = keyword name := by
  simp [keyword, Text.lower_lower]

end Ty

end HintCheck
