/-
**Suggested types.**

When one side of a declaration lacks a type, the other side often tells which one to write.

Main definitions:

* `HintCheck.Ty.exampleDoc?` — a spelling for the documentation, from a declared type;
* `HintCheck.Ty.exampleDecl?` — a type for the declaration, from a documented one;
* `HintCheck.Ty.fakeArray?` — an array type in which `array` stands where an element belongs.

Main results:

* `HintCheck.Ty.exampleDocs_eq` — the members of a union are spelled one by one.
-/

import HintCheck.Ty.Print

set_option relaxedAutoImplicit false
set_option autoImplicit false

namespace HintCheck

namespace Ty

mutual

/-- A spelling for the documentation of a declared type.  What a plain `array` holds cannot be read
off its declaration, so an array of a class stands for it. -/
def exampleDoc? : Ty → Option Text
  | undefined => none
  | atom .array => some "SomeClass[]".toList
  | optional t => (exampleDoc? t).map (· ++ "|null".toList)
  | union ms => some (Text.join "|" (exampleDocs ms))
  | t => some t.docText

/-- The spellings of those types that have one. -/
def exampleDocs : List Ty → List Text
  | [] => []
  | t :: ts => (exampleDoc? t).toList ++ exampleDocs ts

end

theorem exampleDocs_eq (ts : List Ty) : exampleDocs ts = ts.filterMap exampleDoc? := by
  induction ts with
  | nil => rfl
  | cons t ts ih => cases h : exampleDoc? t <;> simp [exampleDocs, h, ih]

/-- The declared type for one documented alternative; `void` is a type of results only. -/
def declMember? (isReturn : Bool) : Ty → Option Ty
  | atom .int => some (atom .int)
  | atom .float => some (atom .float)
  | atom .string => some (atom .string)
  | atom .bool => some (atom .bool)
  | atom .self => some (atom .self)
  | atom .callable => some (atom .callable)
  | atom .object => some (atom .object)
  | atom .iterable => some (atom .iterable)
  | atom .array => some (atom .array)
  | atom .void => if isReturn then some (atom .void) else none
  | named n => some (named n)
  | array _ _ => some (atom .array)
  | generic n _ => some (named n)
  | _ => none

/-- The declared types that one documented member calls for; null calls for none. -/
def declMembers? (isReturn : Bool) : Ty → Option (List Ty)
  | atom .null => some []
  | optional t => (declMember? isReturn t).map ([·])
  | t => (declMember? isReturn t).map ([·])

/-- Whether a member is or contains null at its outermost place. -/
def isNullMember : Ty → Bool
  | atom .null => true
  | optional _ => true
  | _ => false

/-- The one type that a declaration can be given for a documented type, if there is one: a single
type, or `?T`. -/
def exampleDecl? (doc : Ty) (isReturn : Bool) : Option Ty :=
  match doc.members.mapM (declMembers? isReturn) with
  | none => none
  | some found =>
    match unionOf found.flatten, doc.members.any isNullMember with
    | undefined, _ => none
    | union _, _ => none
    | atom .void, true => none
    | t, true => some (nullable t)
    | t, false => some t

/-- Whether a type is an array whose element is a plain `array`. -/
def isFakeArray : Ty → Bool
  | array (atom .array) _ => true
  | _ => false

/-- The first member that states an array depth but nothing about the values. -/
def fakeArray? (t : Ty) : Option Ty := t.members.find? isFakeArray

end Ty

end HintCheck
