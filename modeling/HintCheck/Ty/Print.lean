/-
**How types are written.**

A type has two spellings.  In documentation null is always a member, `string|null`; in a
declaration the short form `?string` is kept at the outermost place.  Elements of arrays and
parameters of classes are spelled as in documentation in both.

Main definitions:

* `HintCheck.Ty.docText` — the spelling in documentation;
* `HintCheck.Ty.declText` — the spelling in a declaration.

Main results:

* `HintCheck.Ty.docTexts_eq`, `HintCheck.Ty.declTexts_eq` — lists are spelled type by type.
-/

import HintCheck.Ty.Keyword

set_option relaxedAutoImplicit false
set_option autoImplicit false

namespace HintCheck

namespace Ty

/-- The array brackets of a depth. -/
def brackets (depth : Nat) : Text := (List.replicate depth "[]".toList).flatten

/-- The spelling of an array's element: a type of several alternatives needs parentheses. -/
def elementText (element : Ty) (spelled : Text) : Text :=
  match element with
  | union _ => "(".toList ++ spelled ++ ")".toList
  | optional _ => "(".toList ++ spelled ++ ")".toList
  | _ => spelled

mutual

/-- The spelling of a type in documentation. -/
def docText : Ty → Text
  | atom a => a.text
  | named n => n
  | array e d => elementText e (docText e) ++ brackets d
  | generic n ps => n ++ "<".toList ++ Text.join ", " (docTexts ps) ++ ">".toList
  | union ms => Text.join "|" (docTexts ms)
  | optional t => docText t ++ "|null".toList
  | undefined => []

/-- The spellings of the types of a list. -/
def docTexts : List Ty → List Text
  | [] => []
  | t :: ts => docText t :: docTexts ts

end

mutual

/-- The spelling of a type in a declaration. -/
def declText : Ty → Text
  | union ms => Text.join "|" (declTexts ms)
  | optional t => '?' :: declText t
  | t => docText t

/-- The spellings of the types of a list. -/
def declTexts : List Ty → List Text
  | [] => []
  | t :: ts => declText t :: declTexts ts

end

theorem docTexts_eq (ts : List Ty) : docTexts ts = ts.map docText := by
  induction ts with
  | nil => rfl
  | cons t ts ih => simp [docTexts, ih]

theorem declTexts_eq (ts : List Ty) : declTexts ts = ts.map declText := by
  induction ts with
  | nil => rfl
  | cons t ts ih => simp [declTexts, ih]

end Ty

end HintCheck
