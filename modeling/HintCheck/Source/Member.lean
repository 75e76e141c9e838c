/-
**Reading declarations from their nodes.**

A declaration is read from its node and from the node in front of it, which may be its comment.
One that cannot be read yields a failure in place of itself.

Main definitions:

* `HintCheck.Node.docBefore` — the comment in front of a declaration;
* `HintCheck.FunctionDecl.ofNode`, `HintCheck.MethodDecl.ofNode`, `HintCheck.PropertyDecl.ofNode`,
  `HintCheck.ConstantDecl.ofNode` — the readers of declarations;
* `HintCheck.Members.ofNodes` — all members of a class.

Main results:

* `HintCheck.Members.ofNodes_cons` — the members of a class are read one by one.
-/

import HintCheck.Doc.Read
import HintCheck.Signature.Read
import HintCheck.Source.Tree
import HintCheck.Text.Class
import HintCheck.Ty.Literal

set_option relaxedAutoImplicit false
set_option autoImplicit false

namespace HintCheck

/-! ### Comments in front of declarations -/

/-- The comment in front of a declaration, given the node in front of it. -/
def Node.docBefore (before : Option Node) : Except ReadFailure Doc :=
  match before.filter (·.isComment) with
  | some comment =>
    if "/**".toList.isPrefixOf comment.text then
      match DocBlock.read comment.text comment.line with
      | .ok block => .ok (some block)
      | .error cause => .error ⟨comment.line, cause⟩
    else .ok none
  | none => .ok none

/-- The signature of a function or a method. -/
def Node.readSignature (n : Node) : Except ReadFailure Signature :=
  match Signature.read n.tokens with
  | .ok s => .ok s
  | .error cause => .error ⟨n.line, cause⟩

/-- The function that a node declares. -/
def FunctionDecl.ofNode (before : Option Node) (n : Node) : Except ReadFailure FunctionDecl := do
  let signature ← n.readSignature
  let doc ← Node.docBefore before
  return { line := signature.line, signature, doc }

/-! ### Methods -/

/-- A character that can begin the name of a property. -/
def beginsPropertyName (c : Char) : Bool := Text.isLetter c || c == '_'

/-- A character of the name of a property. -/
def continuesPropertyName (c : Char) : Bool := Text.isAlphanumeric c || c == '_'

/-- The text between a beginning and an end, both of which have to be there, without blanks. -/
def between? (start stop : String) (text : Text) : Option Text := do
  let rest ← Text.dropPrefix? start.toList text
  let inside ← Text.dropSuffix? stop.toList (Text.trimStart rest)
  return Text.trim inside

/-- The property that a body returns, when it does nothing else. -/
def getterOf? (body : Text) : Option Text := do
  let statement ← between? "\x7b" "\x7d" (Text.trim body)
  let value ← between? "return" ";" statement
  let name ← Text.dropPrefix? "$this->".toList value
  if name.head?.any beginsPropertyName && name.all continuesPropertyName then some name else none

/-- The method that a node declares. -/
def MethodDecl.ofNode (before : Option Node) (n : Node) : Except ReadFailure MethodDecl := do
  let signature ← n.readSignature
  let doc ← Node.docBefore before
  let getter := (n.parts.find? (·.isForm .body)).bind fun body => getterOf? body.text
  return { line := signature.line, signature, doc, getter }

/-! ### Properties and constants -/

/-- A name, and the value behind the first equals sign. -/
def splitAssignment (text : Text) : Text × Option Text :=
  match Text.cutAt? ['='] text with
  | some (name, value) => (Text.trim name, some (Text.trim value))
  | none => (Text.trim text, none)

/-- The parts of a declaration that declare one name each, from the first name on. -/
def Node.elements (begins : Node → Bool) (n : Node) : List (List Node) :=
  let listed := (n.parts.dropWhile (!begins ·)).filter (!·.isSign ";")
  (Node.pieces (·.isSign ",") listed).filter (!·.all Node.isComment)

/-- The property that one element of a declaration declares. -/
def PropertyDecl.ofElement (ty : Ty) (doc : Doc) (element : List Node) : PropertyDecl :=
  let assigned := splitAssignment (Node.textOf element)
  { line := Node.lineOf element
    name := assigned.1.dropWhile (· == '$')
    ty
    value := assigned.2.map Ty.ofLiteral
    doc }

/-- The properties that a node declares. -/
def PropertyDecl.ofNode (before : Option Node) (n : Node) :
    Except ReadFailure (List PropertyDecl) := do
  let doc ← Node.docBefore before
  return (n.elements Node.isDollarName).map (ofElement (Ty.ofDeclaration n.tokens) doc)

/-- The constant that one element of a declaration declares. -/
def ConstantDecl.ofElement (doc : Doc) (element : List Node) : ConstantDecl :=
  let assigned := splitAssignment (Node.textOf element)
  { line := Node.lineOf element
    name := assigned.1
    value := (assigned.2.map Ty.ofLiteral).getD .undefined
    doc }

/-- The constants that a node declares; the first name stands right in front of an equals sign. -/
def ConstantDecl.ofNode (before : Option Node) (n : Node) :
    Except ReadFailure (List ConstantDecl) := do
  let doc ← Node.docBefore before
  let behind := n.parts.drop (n.parts.findIdx (·.isWord "const") + 1)
  let named := (Node.branch .constant behind).elements Node.isAnyWord
  return named.map (ofElement doc)

/-! ### All members of a class -/

/-- Members of a class, and those that could not be read. -/
structure Members where
  methods : List MethodDecl := []
  properties : List PropertyDecl := []
  constants : List ConstantDecl := []
  failures : List ReadFailure := []

namespace Members

/-- The members of two parts of a class. -/
def append (a b : Members) : Members :=
  ⟨a.methods ++ b.methods, a.properties ++ b.properties, a.constants ++ b.constants,
    a.failures ++ b.failures⟩

instance : Append Members := ⟨append⟩

/-- A member that could not be read. -/
def failed (failure : ReadFailure) : Members := { failures := [failure] }

/-- What a node among the members declares. -/
def ofNode (before : Option Node) (n : Node) : Members :=
  match n with
  | .branch .method _ =>
    match MethodDecl.ofNode before n with
    | .ok m => { methods := [m] }
    | .error failure => failed failure
  | .branch .property _ =>
    match PropertyDecl.ofNode before n with
    | .ok ps => { properties := ps }
    | .error failure => failed failure
  | .branch .constant _ =>
    match ConstantDecl.ofNode before n with
    | .ok cs => { constants := cs }
    | .error failure => failed failure
  | _ => {}

/-- What the nodes between the braces of a class declare. -/
def ofNodes (before : Option Node) : List Node → Members
  | [] => {}
  | n :: ns => ofNode before n ++ ofNodes (some n) ns

@[simp] theorem ofNodes_nil (before : Option Node) : ofNodes before [] = {} := rfl

theorem ofNodes_cons (before : Option Node) (n : Node) (ns : List Node) :
    ofNodes before (n :: ns) = ofNode before n ++ ofNodes (some n) ns := rfl

end Members

end HintCheck
