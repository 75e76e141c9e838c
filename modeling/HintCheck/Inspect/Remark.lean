/-
**Remarks on a subject.**

What an inspection can find, and the words for it.  The words speak of the subject by a mark, which
gives way to the subject's name wherever it occurs.

Main definitions:

* `HintCheck.Remark` — the findings;
* `HintCheck.Remark.message` — the words for a finding on a subject.
-/

import HintCheck.Ty.Print

set_option relaxedAutoImplicit false
set_option autoImplicit false

namespace HintCheck

/-- What an inspection can find. -/
inductive Remark where
  /-- Neither declaration nor documentation give the type of a result. -/
  | untypedResult
  /-- Neither declaration nor documentation give the type of a parameter. -/
  | untypedParam
  /-- The documented type could be declared. -/
  | declarable (suggested : Ty)
  /-- The comment of an array says nothing of its values. -/
  | undocumentedArray
  /-- A property or a constant that holds an array has no tag for it. -/
  | unmarkedArray
  /-- The tag of a property or a constant has no type. -/
  | tagWithoutType
  /-- The tag of a parameter or a result has no type. -/
  | hintWithoutType (spelling : Option Text)
  /-- The documented type is spelled as in a declaration. -/
  | shortForm (documented : Ty)
  /-- The tag of a function without a result says nothing. -/
  | needlessVoid
  /-- Beside an array with a documented element there is a plain one. -/
  | needlessArray
  /-- A plain array says nothing of its values. -/
  | plainArray
  /-- The element of a documented array is a plain array. -/
  | arrayOfArrays (documented : Ty)
  /-- Only results can be of type `void`. -/
  | misplacedVoid
  /-- Documented alternatives that are not possible; `target` is what they were compared with. -/
  | impossible (alternatives : List Ty) (target : Text)
  /-- Declared alternatives that are not documented. -/
  | missing (alternatives : List Ty)
  /-- A getter's documented type leaves out the null of its property. -/
  | getterDocWithoutNull (property : Text) (suggested : Ty)
  /-- A getter's declared type leaves out the null of its property. -/
  | getterDeclWithoutNull (property : Text) (declared : Ty)
  /-- Any other words. -/
  | note (words : Text)

namespace Remark

/-- The mark that stands for the name of the subject. -/
def mark : Text := ":subject:".toList

/-- The spellings of types in documentation, between commas. -/
def spell (ts : List Ty) : Text := Text.join ", " (ts.map Ty.docText)

/-- The words for a finding, with the mark in place of the subject's name. -/
def words : Remark → Text
  | untypedResult => "Missing PHPDoc tag or void type declaration for :subject:".toList
  | untypedParam =>
    "Add type declaration for :subject: or create PHPDoc with type hint".toList
  | declarable t =>
    "Add type declaration for :subject:, e.g.: \"".toList ++ t.declText ++ "\"".toList
  | undocumentedArray =>
    ("Create PHPDoc with typed array type hint for :subject:, .e.g.: \"string[]\" or " ++
      "\"SomeClass[]\"").toList
  | unmarkedArray =>
    ("Add PHPDoc with typed array type hint for :subject:. Use mixed[] for generic " ++
      "arrays.").toList
  | tagWithoutType => "Add type hint to @var tag for :subject:".toList
  | hintWithoutType none => "Add type hint in PHPDoc tag for :subject:".toList
  | hintWithoutType (some spelling) =>
    "Add type hint in PHPDoc tag for :subject:, e.g. \"".toList ++ spelling ++ "\"".toList
  | shortForm t => "Change type hint for :subject: to compound, e.g. ".toList ++ t.docText
  | needlessVoid => "Remove @return void tag, not necessary".toList
  | needlessArray =>
    "Remove array type, typed array type is present in PHPDoc for :subject:.".toList
  | plainArray =>
    ("Replace array type with typed array type in PHPDoc for :subject:. Use mixed[] for " ++
      "generic arrays.").toList
  | arrayOfArrays t =>
    "Use a more specific type in typed array hint \"".toList ++ t.docText ++
      "\" for :subject:. Correct array depth must be specified.".toList
  | misplacedVoid => "Type hint \"void\" is not valid for :subject:".toList
  | impossible [t] target =>
    "Type hint \"".toList ++ spell [t] ++ "\" is not compatible with :subject: ".toList ++ target
  | impossible ts target =>
    "Type hints \"".toList ++ spell ts ++ "\" are not compatible with :subject: ".toList ++ target
  | missing [t] => "Missing \"".toList ++ spell [t] ++ "\" type in :subject: type hint".toList
  | missing ts => "Missing \"".toList ++ spell ts ++ "\" types in :subject: type hint".toList
  | getterDocWithoutNull property t =>
    "Returned property $".toList ++ property ++
      " is nullable, add null return doc type, e.g. ".toList ++ t.docText ++ "|null".toList
  | getterDeclWithoutNull property t =>
    "Returned property $".toList ++ property ++
      " is nullable, use nullable return type declaration, e.g. ?".toList ++ t.declText
  | note words => words

/-- The words for a finding on a subject of a name. -/
def message (r : Remark) (name : Text) : Text := Text.replaceAll mark name r.words

end Remark

end HintCheck
