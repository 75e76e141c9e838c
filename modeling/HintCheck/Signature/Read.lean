/-
**Reading signatures.**

A signature is read in one pass over the tokens of a declaration: the name, the parameters between
commas at depth zero, and the type of the result.  Each parameter is collected in a draft, which a
comma or the end of the list completes; nothing of one draft reaches the next one.

Main definitions:

* `HintCheck.AttributeGroup.feed` — the names of attributes, token by token;
* `HintCheck.Draft` — what is known of a parameter;
* `HintCheck.Draft.finish` — the parameter of a draft;
* `HintCheck.Signature.read` — the signature that tokens spell;
* `HintCheck.Ty.ofDeclaration` — the declared type of a property.
-/

import HintCheck.Doc.Read
import HintCheck.Signature.Basic
import HintCheck.Token
import HintCheck.Ty.Literal

set_option relaxedAutoImplicit false
set_option autoImplicit false

namespace HintCheck

/-! ### Attributes -/

/-- An open group of attributes: its bracket depth, and the name that is being read, if any. -/
structure AttributeGroup where
  depth : Nat
  name : Option Text

namespace AttributeGroup

/-- The beginning of a group. -/
def start : AttributeGroup := ⟨1, some []⟩

/-- The name that ends in front of a token, when there is one. -/
def ended (g : AttributeGroup) : List Text :=
  match g.name with
  | some (c :: cs) => [c :: cs]
  | _ => []

/-- Whether a token belongs to the name of an attribute. -/
def isNamePart (kind : TokenKind) : Bool := kind == .identifier || kind == .separator

/-- The group behind a token that does not continue a name; none when the token closes it. -/
def pass (g : AttributeGroup) (kind : TokenKind) : Option AttributeGroup :=
  if kind.closes then
    if g.depth - 1 = 0 then none else some ⟨g.depth - 1, none⟩
  else if kind = .comma ∧ g.depth = 1 then some ⟨g.depth, some []⟩
  else some ⟨kind.depthAfter g.depth, none⟩

/-- The names that a token completes, and the group behind it. -/
def feed (g : AttributeGroup) (t : Token) : List Text × Option AttributeGroup :=
  match g.name with
  | some name =>
    if isNamePart t.kind then ([], some ⟨g.depth, some (name ++ t.text)⟩)
    else (g.ended, g.pass t.kind)
  | none => ([], g.pass t.kind)

end AttributeGroup

/-! ### Drafts of parameters -/

/-- What is known of the parameter that is being read. -/
structure Draft where
  typeText : Text := []
  /-- The text of the default value, once the equals sign has been read. -/
  default : Option Text := none
  /-- The variable, without the dollar sign. -/
  name : Option Text := none
  line : Nat := 0
  attributes : List Text := []
  /-- The last documentation comment. -/
  doc : Option Token := none
  variadic : Bool := false
  byRef : Bool := false
  promoted : Bool := false

namespace Draft

/-- The comment of a draft. -/
def readDoc (d : Draft) : Except ReadError Doc :=
  match d.doc with
  | some t => (DocBlock.read t.text t.line).map some
  | none => .ok none

/-- The parameter of a draft that is ended on a line.  Without any type, default or variable there
is none. -/
def finish (d : Draft) (line : Nat) : Except ReadError (Option Param) :=
  match d.name with
  | none =>
    if d.typeText.isEmpty && d.default.isNone then .ok none
    else .error (.missingParameterName line)
  | some name => d.readDoc.map fun doc =>
    some
      { line := d.line
        name
        ty := Ty.read d.typeText
        default := d.default.map Ty.ofLiteral
        attributes := d.attributes
        doc
        variadic := d.variadic
        byRef := d.byRef
        promoted := d.promoted }

/-- The modifiers that make a parameter declare a property. -/
def isPromotion (text : Text) : Bool :=
  ["public", "protected", "private", "readonly"].any fun m => Text.sameLetters m.toList text

/-- A draft with more text of its type. -/
def addType (d : Draft) (text : Text) : Draft := { d with typeText := d.typeText ++ text }

/-- Whether an ampersand in front of a token marks a parameter by reference. -/
def marksReference (next : Option Token) : Bool :=
  next.any fun t => t.kind == .dollarName || t.kind == .ellipsis

/-- The draft behind a token in front of the default value; `next` is the token that follows. -/
def take (d : Draft) (t : Token) (next : Option Token) : Draft :=
  match t.kind with
  | .docComment => { d with doc := some t }
  | .ellipsis => { d with variadic := true }
  | .ampersand => if marksReference next then { d with byRef := true } else d.addType ['&']
  | .dollarName => { d with name := some (t.text.dropWhile (· == '$')), line := t.line }
  | .identifier =>
    if d.typeText.isEmpty && d.name.isNone && isPromotion t.text then { d with promoted := true }
    else d.addType t.text
  | .separator => d.addType t.text
  | .question => d.addType t.text
  | .bar => d.addType t.text
  | .openParen => d.addType t.text
  | .closeParen => d.addType t.text
  | _ => d

end Draft

/-! ### Parameters -/

/-- The place in a list of parameters: the draft, the bracket depth and the open group of
attributes. -/
structure ParamState where
  draft : Draft := {}
  depth : Nat := 0
  group : Option AttributeGroup := none

namespace ParamState

/-- The state behind a token inside an open group of attributes. -/
def feedGroup (s : ParamState) (g : AttributeGroup) (t : Token) : ParamState :=
  let r := g.feed t
  { s with draft := { s.draft with attributes := s.draft.attributes ++ r.1 }, group := r.2 }

/-- The state behind a token that belongs to a parameter, outside of groups of attributes. -/
def step (s : ParamState) (t : Token) (next : Option Token) : ParamState :=
  match s.draft.default with
  | none =>
    if t.kind = .equals ∧ s.depth = 0 then { s with draft := { s.draft with default := some [] } }
    else if t.kind = .attributeOpen then { s with group := some .start }
    else
      { s with
        draft := s.draft.take t next
        depth := if t.kind = .openParen ∨ t.kind = .closeParen then t.kind.depthAfter s.depth
          else s.depth }
  | some text =>
    -- the text of a default value has no comments
    if t.kind = .comment then s
    else
      { s with
        draft := { s.draft with default := some (text ++ t.text) }
        depth := t.kind.depthAfter s.depth }

end ParamState

/-- A list of parameters, the line of its end and the tokens behind it. -/
structure ParamList where
  params : List Param
  endLine : Nat
  rest : List Token

namespace ParamList

/-- A list with a parameter in front, if there is one. -/
def push (p : Option Param) (l : ParamList) : ParamList := { l with params := p.toList ++ l.params }

/-- The parameters up to the parenthesis that closes the list. -/
def read (s : ParamState) : List Token → Except ReadError ParamList
  | [] => .error .missingParameterList
  | t :: ts =>
    match s.group with
    | some g => read (s.feedGroup g t) ts
    | none =>
      if t.kind = .closeParen ∧ s.depth = 0 then
        (s.draft.finish t.line).map fun p => ⟨p.toList, t.line, ts⟩
      -- a comma at depth zero starts the next parameter from nothing
      else if t.kind = .comma ∧ s.depth = 0 then
        match s.draft.finish t.line with
        | .error e => .error e
        | .ok p => (read {} ts).map (push p)
      else read (s.step t ts.head?) ts

end ParamList

/-! ### Signatures -/

namespace Signature

/-- The last identifier in front of the parameters, and the tokens behind their opening
parenthesis. -/
def readName (name : Option Token) : List Token → Except ReadError (Token × List Token)
  | [] => .error (if name.isSome then .missingParameterList else .missingFunctionName)
  | t :: ts =>
    if t.kind = .identifier then readName (some t) ts
    else if t.kind = .openParen then
      match name with
      | some n => .ok (n, ts)
      | none => .error .missingFunctionName
    else readName name ts

/-- Whether a token ends the head of a declaration. -/
def endsHead (t : Token) : Bool := t.kind == .semicolon || t.kind == .openBrace

/-- The tokens of the result type. -/
def resultTokens (ts : List Token) : List Token :=
  (ts.takeWhile (!endsHead ·)).filter (·.kind.isTypePart)

/-- The signature that tokens spell, from their first keyword of a function on. -/
def read (ts : List Token) : Except ReadError Signature :=
  match ts.dropWhile (·.kind != .function) with
  | [] => .error .missingFunctionName
  | _ :: ts => do
    let (name, ts) ← readName none ts
    let list ← ParamList.read {} ts
    let result := resultTokens list.rest
    return {
      line := name.line
      name := name.text
      params := list.params
      result := Ty.read (result.flatMap (·.text))
      resultLine := (result.getLast?.map (·.line)).getD list.endLine }

end Signature

/-! ### Properties -/

namespace Ty

/-- The modifiers of a property. -/
def isPropertyModifier (text : Text) : Bool :=
  ["public", "protected", "private", "readonly", "static", "var", "final", "abstract"].any
    fun m => Text.sameLetters m.toList text

/-- The text of a property's type: the type tokens up to the variable, outside of groups of
attributes; an identifier is a modifier only as long as no type has begun. -/
def declarationText (group : Option AttributeGroup) (text : Text) : List Token → Text
  | [] => text
  | t :: ts =>
    match group with
    | some g => declarationText (g.feed t).2 text ts
    | none =>
      if t.kind = .dollarName then text
      else if t.kind = .attributeOpen then declarationText (some .start) text ts
      else if t.kind = .identifier && text.isEmpty && isPropertyModifier t.text then
        declarationText none text ts
      else if t.kind.isTypePart then declarationText none (text ++ t.text) ts
      else declarationText none text ts

/-- The declared type of a property. -/
def ofDeclaration (ts : List Token) : Ty := read (declarationText none [] ts)

end Ty

end HintCheck
