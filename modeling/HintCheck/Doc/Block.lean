/-
**Documentation comments.**

A documentation comment has a description and tags.  Three tags carry a type: one for a parameter,
one for the result and one for a variable; every other tag is kept as it was written.

Main definitions:

* `HintCheck.DocTag` — a tag;
* `HintCheck.DocBlock` — a comment;
* `HintCheck.Doc` — the comment of a declaration, if it has one;
* `HintCheck.Doc.paramTag?`, `HintCheck.Doc.resultTag?`, `HintCheck.Doc.varTag?` — the first tag of
  each kind.
-/

import HintCheck.Ty.Basic

set_option relaxedAutoImplicit false
set_option autoImplicit false

namespace HintCheck

/-- The type that a tag gives to something, with the line of the tag. -/
structure Typing where
  line : Nat
  ty : Ty
  deriving Repr

/-- A tag of a documentation comment. -/
inductive DocTag where
  /-- The type of a parameter, named without its dollar sign. -/
  | param (typing : Typing) (name : Text) (description : Option Text)
  /-- The type of the result. -/
  | result (typing : Typing) (description : Option Text)
  /-- The type of a variable, which may be left unnamed. -/
  | var (typing : Typing) (name : Option Text) (description : Option Text)
  /-- Any other tag, with its name in small letters. -/
  | other (line : Nat) (name : Text) (content : Option Text)
  deriving Repr

namespace DocTag

/-- The name of a tag, without the sign in front. -/
def name : DocTag → Text
  | param _ _ _ => "param".toList
  | result _ _ => "return".toList
  | var _ _ _ => "var".toList
  | other _ name _ => name

/-- The line that a tag begins on. -/
def line : DocTag → Nat
  | param typing _ _ => typing.line
  | result typing _ => typing.line
  | var typing _ _ => typing.line
  | other line _ _ => line

/-- The type that a tag carries. -/
def ty? : DocTag → Option Ty
  | param typing _ _ => some typing.ty
  | result typing _ => some typing.ty
  | var typing _ _ => some typing.ty
  | other _ _ _ => none

/-- The words behind the type and the name. -/
def description? : DocTag → Option Text
  | param _ _ description => description
  | result _ description => description
  | var _ _ description => description
  | other _ _ content => content

end DocTag

/-- A documentation comment. -/
structure DocBlock where
  /-- The lines of the description with their numbers, in order. -/
  description : List (Text × Nat)
  tags : List DocTag
  deriving Repr

/-- The documentation comment of a declaration, if it has one.  A comment without content is not
the same as no comment. -/
abbrev Doc := Option DocBlock

namespace Doc

/-- The tags, in order. -/
def tags : Doc → List DocTag
  | none => []
  | some block => block.tags

/-- The lines of the description with their numbers, in order. -/
def description : Doc → List (Text × Nat)
  | none => []
  | some block => block.description

/-- Whether the description says anything. -/
def hasDescription (doc : Doc) : Bool :=
  doc.description.any fun l => !(Text.trim l.1).isEmpty

/-- Whether some tag has a name, in any case of its letters. -/
def hasTag (doc : Doc) (name : Text) : Bool :=
  doc.tags.any fun tag => Text.sameLetters tag.name name

/-- The tags of a name, in any case of its letters. -/
def tagsNamed (doc : Doc) (name : Text) : List DocTag :=
  doc.tags.filter fun tag => Text.sameLetters tag.name name

/-- The type and the words that a tag gives to a certain parameter. -/
def paramTyping? (name : Text) : DocTag → Option (Typing × Option Text)
  | .param typing n description => if n = name then some (typing, description) else none
  | _ => none

/-- The first tag for a parameter. -/
def paramTag? (doc : Doc) (name : Text) : Option (Typing × Option Text) :=
  doc.tags.findSome? (paramTyping? name)

/-- The type and the words that a tag gives to the result. -/
def resultTyping? : DocTag → Option (Typing × Option Text)
  | .result typing description => some (typing, description)
  | _ => none

/-- The first tag for the result. -/
def resultTag? (doc : Doc) : Option (Typing × Option Text) := doc.tags.findSome? resultTyping?

/-- The type and the name that a tag gives to a variable. -/
def varTyping? : DocTag → Option (Typing × Option Text)
  | .var typing name _ => some (typing, name)
  | _ => none

/-- The first tag for a variable. -/
def varTag? (doc : Doc) : Option (Typing × Option Text) := doc.tags.findSome? varTyping?

end Doc

end HintCheck
