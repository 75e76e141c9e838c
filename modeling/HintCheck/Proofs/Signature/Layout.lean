/-
**Well-formed declarations.**

The grammar of declarations of functions, as data: every piece of a declaration is a structure that
holds the tokens of that piece, together with the conditions on them.  From such a structure come
both the tokens of the declaration, in order, and the signature that the declaration means.

Main definitions:

* `HintCheck.Layout.Nested` — tokens whose brackets are all opened and closed;
* `HintCheck.Layout.Separated` — items with commas between them, and maybe one more at the end;
* `HintCheck.Layout.AttributeClause`, `HintCheck.Layout.LeadPiece`, `HintCheck.Layout.Default`,
  `HintCheck.Layout.Parameter` — the pieces of a parameter;
* `HintCheck.Layout.Declaration` — a declaration, with its tokens and its signature.
-/

import HintCheck.Signature.Read

set_option relaxedAutoImplicit false
set_option autoImplicit false

namespace HintCheck

namespace Layout

/-! ### Tokens -/

/-- A token of a kind. -/
abbrev TokenOf (kind : TokenKind) : Type := { t : Token // t.kind = kind }

theorem isNamePart_of_tokenOf {kind : TokenKind} (t : TokenOf kind)
    (h : AttributeGroup.isNamePart kind = false) :
    AttributeGroup.isNamePart t.val.kind = false := by
  rw [t.property, h]

/-- The texts of tokens, one behind the other. -/
def spelled (ts : List Token) : Text := ts.flatMap (·.text)

@[simp] theorem spelled_nil : spelled [] = [] := rfl

@[simp] theorem spelled_cons (t : Token) (ts : List Token) :
    spelled (t :: ts) = t.text ++ spelled ts := rfl

/-- From a bracket depth on, tokens lead back to depth zero and never below it, and each token may
stand at the depth in front of it. -/
def Nested (allowed : Nat → Token → Prop) : Nat → List Token → Prop
  | d, [] => d = 0
  | d, t :: ts =>
    allowed d t ∧ (t.kind.closes = true → d ≠ 0) ∧ Nested allowed (t.kind.depthAfter d) ts

/-- Items with commas between them. -/
structure Separated (α : Type) where
  /-- The items that a comma follows. -/
  front : List (α × TokenOf .comma)
  /-- The item that no comma follows; without one, the last comma is a trailing one. -/
  last : Option α

namespace Separated

variable {α : Type}

def items (l : Separated α) : List α := l.front.map (·.1) ++ l.last.toList

def tokens (spell : α → List Token) (l : Separated α) : List Token :=
  l.front.flatMap (fun p => spell p.1 ++ [p.2.val]) ++ l.last.toList.flatMap spell

theorem tokens_cons (spell : α → List Token) (p : α × TokenOf .comma)
    (front : List (α × TokenOf .comma)) (last : Option α) :
    tokens spell ⟨p :: front, last⟩ = spell p.1 ++ p.2.val :: tokens spell ⟨front, last⟩ := by
  simp [tokens]

end Separated

/-! ### Attributes -/

/-- The arguments of an attribute. -/
structure Arguments where
  opening : TokenOf .openParen
  inner : List Token
  closing : TokenOf .closeParen
  nested : Nested (fun _ _ => True) 0 inner

def Arguments.tokens (a : Arguments) : List Token :=
  a.opening.val :: (a.inner ++ [a.closing.val])

/-- An attribute: a qualified name, with arguments or without. -/
structure Attribute where
  nameTokens : List Token
  args : Option Arguments
  ne_nil : nameTokens ≠ []
  isNamePart : ∀ t ∈ nameTokens, AttributeGroup.isNamePart t.kind = true
  text_ne_nil : ∀ t ∈ nameTokens, t.text ≠ []

namespace Attribute

def tokens (a : Attribute) : List Token :=
  a.nameTokens ++ a.args.toList.flatMap Arguments.tokens

def name (a : Attribute) : Text := spelled a.nameTokens

end Attribute

/-- A group of attributes. -/
structure AttributeClause where
  opening : TokenOf .attributeOpen
  attributes : Separated Attribute
  closing : TokenOf .closeBracket

namespace AttributeClause

def tokens (c : AttributeClause) : List Token :=
  c.opening.val :: (c.attributes.tokens Attribute.tokens ++ [c.closing.val])

def names (c : AttributeClause) : List Text := c.attributes.items.map Attribute.name

end AttributeClause

/-! ### What stands in front of a type -/

/-- A documentation comment that can be read. -/
structure Comment where
  token : TokenOf .docComment
  block : DocBlock
  read_eq : DocBlock.read token.val.text token.val.line = .ok block

/-- What can stand in front of a type, in any order. -/
inductive LeadPiece where
  | attributes (c : AttributeClause)
  | modifier (t : TokenOf .identifier) (h : Draft.isPromotion t.val.text = true)
  | comment (c : Comment)

namespace LeadPiece

@[simp] def tokens : LeadPiece → List Token
  | attributes c => c.tokens
  | modifier t _ => [t.val]
  | comment c => [c.token.val]

@[simp] def names : LeadPiece → List Text
  | attributes c => c.names
  | _ => []

@[simp] def isModifier : LeadPiece → Bool
  | modifier _ _ => true
  | _ => false

@[simp] def comment? : LeadPiece → Option Comment
  | comment c => some c
  | _ => none

end LeadPiece

/-! ### Parameters -/

/-- What the tokens of a type are: parts of types with their texts. -/
def TypeToken (t : Token) : Prop :=
  t.kind.isTypePart = true ∧ t.text ≠ [] ∧ (t.kind = .ampersand → t.text = ['&'])

/-- What can stand in a default value at a depth: anything but comments, and commas only inside of
brackets. -/
def DefaultToken (depth : Nat) (t : Token) : Prop :=
  t.kind ≠ .comment ∧ (t.kind = .comma → depth ≠ 0)

/-- The default value of a parameter. -/
structure Default where
  equals : TokenOf .equals
  value : List Token
  nested : Nested DefaultToken 0 value

def Default.tokens (d : Default) : List Token := d.equals.val :: d.value

/-- A parameter.  The first word of its type is not a modifier, and an ampersand in front of the
variable or the ellipsis is not part of the type. -/
structure Parameter where
  lead : List LeadPiece
  type : List Token
  byRef : Option (TokenOf .ampersand)
  ellipsis : Option (TokenOf .ellipsis)
  var : TokenOf .dollarName
  default : Option Default
  nested : Nested (fun _ => TypeToken) 0 type
  first : ∀ t ∈ type.head?, t.kind = .identifier → Draft.isPromotion t.text = false
  last : byRef = none → ∀ t ∈ type.getLast?, t.kind ≠ .ampersand

namespace Parameter

def tokens (p : Parameter) : List Token :=
  p.lead.flatMap LeadPiece.tokens ++ p.type ++ p.byRef.toList.map (·.val) ++
    p.ellipsis.toList.map (·.val) ++ p.var.val :: p.default.toList.flatMap Default.tokens

/-- The last comment in front of the type. -/
def comment? (p : Parameter) : Option Comment := (p.lead.filterMap LeadPiece.comment?).getLast?

/-- The parameter that is meant. -/
def param (p : Parameter) : Param where
  line := p.var.val.line
  name := p.var.val.text.dropWhile (· == '$')
  ty := Ty.read (spelled p.type)
  default := p.default.map fun d => Ty.ofLiteral (spelled d.value)
  attributes := p.lead.flatMap LeadPiece.names
  doc := p.comment?.map (·.block)
  variadic := p.ellipsis.isSome
  byRef := p.byRef.isSome
  promoted := p.lead.any LeadPiece.isModifier

end Parameter

/-! ### Declarations -/

/-- The type of a result. -/
structure Result where
  colon : TokenOf .colon
  type : List Token
  isTypePart : ∀ t ∈ type, t.kind.isTypePart = true

def Result.tokens (r : Result) : List Token := r.colon.val :: r.type

/-- A declaration, with whatever stands in front of the keyword and behind the head. -/
structure Declaration where
  before : List Token
  keyword : TokenOf .function
  name : TokenOf .identifier
  opening : TokenOf .openParen
  params : Separated Parameter
  closing : TokenOf .closeParen
  result : Option Result
  behind : List Token
  before_ne : ∀ t ∈ before, t.kind ≠ .function
  endsHead : ∀ t ∈ behind.head?, Signature.endsHead t = true

namespace Declaration

def tokens (d : Declaration) : List Token :=
  d.before ++ d.keyword.val :: d.name.val :: d.opening.val ::
    (d.params.tokens Parameter.tokens ++ d.closing.val ::
      (d.result.toList.flatMap Result.tokens ++ d.behind))

/-- The tokens of the result type, none when no result is declared. -/
def resultType (d : Declaration) : List Token := d.result.toList.flatMap Result.type

/-- The signature that is meant. -/
def signature (d : Declaration) : Signature where
  line := d.name.val.line
  name := d.name.val.text
  params := d.params.items.map Parameter.param
  result := Ty.read (spelled d.resultType)
  resultLine := (d.resultType.getLast?.map (·.line)).getD d.closing.val.line

end Declaration

end Layout

end HintCheck
