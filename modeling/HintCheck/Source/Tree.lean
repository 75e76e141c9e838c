/-
**Syntax trees of source texts.**

A tree holds the lexemes of a text in order.  Its inner nodes are brackets, bodies and the
declarations that matter here; expressions and statements are not told apart.

Main definitions:

* `HintCheck.Form`, `HintCheck.Node` — the nodes of a tree;
* `HintCheck.Node.lexemes` — the lexemes below a node;
* `HintCheck.Node.tokens` — the tokens of a declaration, where a body is a single brace;
* `HintCheck.Node.declarations` — the functions, methods and properties of a tree.

Main results:

* `HintCheck.Node.lexemesAll_eq`, `HintCheck.Node.tokensAll_eq`,
  `HintCheck.Node.declarationsAll_eq` — lists of nodes are gone through node by node.
-/

import HintCheck.Declaration
import HintCheck.Source.Lexeme

set_option relaxedAutoImplicit false
set_option autoImplicit false

namespace HintCheck

/-- What an inner node stands for. -/
inductive Form where
  /-- A pair of brackets with what is between them. -/
  | brackets
  /-- The statements of a function, or of a namespace, in braces. -/
  | body
  /-- The members of a class in braces. -/
  | members
  | function
  | method
  | property
  | constant
  | classLike (kind : ClassKind)
  /-- A namespace, with its statements when they are in braces. -/
  | scope
  /-- Imported names. -/
  | imports
  deriving DecidableEq, Repr

/-- A syntax tree. -/
inductive Node where
  | leaf (l : Lexeme)
  | branch (form : Form) (parts : List Node)

namespace Node

instance : Inhabited Node := ⟨branch .brackets []⟩

/-! ### Lexemes and text -/

mutual

/-- The lexemes below a node, in order. -/
def lexemes : Node → List Lexeme
  | leaf l => [l]
  | branch _ parts => lexemesAll parts

/-- The lexemes below several nodes, in order. -/
def lexemesAll : List Node → List Lexeme
  | [] => []
  | n :: ns => lexemes n ++ lexemesAll ns

end

theorem lexemesAll_eq (ns : List Node) : lexemesAll ns = ns.flatMap lexemes := by
  induction ns with
  | nil => rfl
  | cons n ns ih => simp [lexemesAll, ih]

/-- The source text of a node. -/
def text (n : Node) : Text := Text.trim (Lexeme.spanText n.lexemes)

/-- The source text of several nodes that follow each other, without the comments around them. -/
def textOf (ns : List Node) : Text :=
  Text.trim (Lexeme.spanText (Lexeme.dropOuterComments (lexemesAll ns)))

/-- The line that a node begins on. -/
def line (n : Node) : Nat := (n.lexemes.head?.map (·.line)).getD 0

/-- The line of the first of several nodes that is no comment. -/
def lineOf (ns : List Node) : Nat :=
  ((Lexeme.dropOuterComments (lexemesAll ns)).head?.map (·.line)).getD 0

/-! ### Parts -/

/-- The nodes right below a node. -/
def parts : Node → List Node
  | leaf _ => []
  | branch _ ps => ps

/-- The stretches between the nodes of a class. -/
def pieces (separates : Node → Bool) : List Node → List (List Node)
  | [] => [[]]
  | n :: ns =>
    if separates n then [] :: pieces separates ns
    else
      match pieces separates ns with
      | [] => [[n]]
      | p :: ps => (n :: p) :: ps

/-- Whether a node is a comment. -/
def isComment : Node → Bool
  | leaf l => l.isComment
  | _ => false

/-- Whether a node is a certain sign. -/
def isSign (sign : String) : Node → Bool
  | leaf l => l.isSign sign
  | _ => false

/-- Whether a node is a certain word. -/
def isWord (word : String) : Node → Bool
  | leaf l => l.isWord word
  | _ => false

/-- Whether a node is some word. -/
def isAnyWord : Node → Bool
  | leaf l => l.isAnyWord
  | _ => false

/-- Whether a node is a name behind a dollar sign. -/
def isDollarName : Node → Bool
  | leaf l => l.kind == .dollarName
  | _ => false

/-- Whether a node is of a form. -/
def isForm (form : Form) : Node → Bool
  | branch f _ => f == form
  | _ => false

/-! ### Tokens -/

mutual

/-- The tokens of a declaration; the body of a function is a single brace. -/
def tokens : Node → List Token
  | leaf l => l.token?.toList
  | branch .body parts =>
    match parts with
    | n :: _ => [{ kind := .openBrace, text := ['\x7b'], line := n.line }]
    | [] => []
  | branch _ parts => tokensAll parts

/-- The tokens of several nodes, in order. -/
def tokensAll : List Node → List Token
  | [] => []
  | n :: ns => tokens n ++ tokensAll ns

end

theorem tokensAll_eq (ns : List Node) : tokensAll ns = ns.flatMap tokens := by
  induction ns with
  | nil => rfl
  | cons n ns ih => simp [tokensAll, ih]

/-! ### Declarations anywhere in a tree -/

/-- Whether a node is a function, a method or a property. -/
def isTyped : Form → Bool
  | .function => true
  | .method => true
  | .property => true
  | _ => false

mutual

/-- The functions, methods and properties of a tree, outer ones before those inside them. -/
def declarations : Node → List Node
  | leaf _ => []
  | branch form parts =>
    (if isTyped form then [branch form parts] else []) ++ declarationsAll parts

/-- The functions, methods and properties of several trees. -/
def declarationsAll : List Node → List Node
  | [] => []
  | n :: ns => declarations n ++ declarationsAll ns

end

theorem declarationsAll_eq (ns : List Node) : declarationsAll ns = ns.flatMap declarations := by
  induction ns with
  | nil => rfl
  | cons n ns ih => simp [declarationsAll, ih]

end Node

end HintCheck
