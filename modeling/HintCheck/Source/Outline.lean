/-
**From lexemes to trees.**

First the brackets of a text are matched.  Then each list of bracketed lexemes is gone through from
left to right: attributes and modifiers are held back until it is known what they belong to, and a
declaration is complete with its braces or its semicolon.

Main definitions:

* `HintCheck.Nest`, `HintCheck.Nest.ofLexemes` — lexemes with matched brackets;
* `HintCheck.Outline.code` — the nodes of statements and expressions;
* `HintCheck.Outline.members` — the nodes of the members of a class;
* `HintCheck.Node.ofSource` — the tree of a source text.
-/

import HintCheck.Source.Scan
import HintCheck.Source.Tree

set_option relaxedAutoImplicit false
set_option autoImplicit false

namespace HintCheck

/-! ### Brackets -/

/-- A lexeme, or a pair of brackets with what is between them; the closing one may be missing at
the end of the text. -/
inductive Nest where
  | one (l : Lexeme)
  | pair (opening : Lexeme) (inside : List Nest) (closing : Option Lexeme)

namespace Nest

/-- Whether a lexeme opens a bracket. -/
def opens (l : Lexeme) : Bool := ["(", "[", "\x7b", "#["].any l.isSign

/-- Whether a lexeme closes a bracket. -/
def closes (l : Lexeme) : Bool := [")", "]", "\x7d"].any l.isSign

/-- Closes all brackets that are open: `outer` holds them with what is in front of them, innermost
first and backwards. -/
def closeAll (inside : List Nest) : List (Lexeme × List Nest) → List Nest
  | [] => inside.reverse
  | (opening, front) :: outer => closeAll (pair opening inside.reverse none :: front) outer

/-- Lexemes with matched brackets.  A closing bracket without a partner is a lexeme like others. -/
def ofLexemesFrom (outer : List (Lexeme × List Nest)) (inside : List Nest) :
    List Lexeme → List Nest
  | [] => closeAll inside outer
  | l :: ls =>
    if opens l then ofLexemesFrom ((l, inside) :: outer) [] ls
    else if closes l then
      match outer with
      | [] => ofLexemesFrom [] (one l :: inside) ls
      | (opening, front) :: outer =>
        ofLexemesFrom outer (pair opening inside.reverse (some l) :: front) ls
    else ofLexemesFrom outer (one l :: inside) ls

/-- Lexemes with matched brackets. -/
def ofLexemes (ls : List Lexeme) : List Nest := ofLexemesFrom [] [] ls

/-! ### Looking ahead -/

/-- Whether a nest is a comment. -/
def isComment : Nest → Bool
  | one l => l.isComment
  | _ => false

/-- The first nest that is no comment. -/
def upcoming? (ns : List Nest) : Option Nest := ns.find? (!·.isComment)

/-- Whether a nest is a word. -/
def isAnyWord : Nest → Bool
  | one l => l.isAnyWord
  | _ => false

/-- Whether a nest is a certain word. -/
def isWord (word : String) : Nest → Bool
  | one l => l.isWord word
  | _ => false

/-- Whether a nest begins with a certain bracket. -/
def isPair (opening : String) : Nest → Bool
  | pair o _ _ => o.isSign opening
  | _ => false

/-- Whether a nest is an ampersand. -/
def isAmpersand : Nest → Bool
  | one l => l.isSign "&"
  | _ => false

end Nest

namespace Outline

open Nest

/-! ### The place in a list -/

/-- What the next braces of an expression will be. -/
inductive Braces where
  | plain
  | body
  | members
  deriving DecidableEq

/-- The declaration that is under way in statements and expressions. -/
inductive CodeMode where
  /-- None, but attributes and modifiers may be held back. -/
  | free
  /-- One that ends with braces; a namespace may also end with a semicolon. -/
  | header (form : Form)
  /-- Imported names, up to a semicolon. -/
  | imports

/-- The place in a list of statements and expressions. -/
structure CodeState where
  mode : CodeMode := .free
  /-- The parts of the declaration under way, backwards. -/
  held : List Node := []
  braces : Braces := .plain
  /-- The last lexeme that is no comment, or the bracket that closed. -/
  previous : Option Lexeme := none

/-- The member that is under way. -/
inductive MemberMode where
  /-- Not known yet. -/
  | open_
  | method
  | property
  | constant
  /-- A member of another kind. -/
  | other
  deriving DecidableEq

/-- The place in a list of members. -/
structure MemberState where
  mode : MemberMode := .open_
  /-- The parts of the member under way, backwards. -/
  held : List Node := []
  braces : Braces := .plain
  /-- The last lexeme that is no comment, or the bracket that closed. -/
  previous : Option Lexeme := none

/-! ### Words that begin declarations -/

/-- Whether a word behind a lexeme is the name of a member. -/
def isAccess (previous : Option Lexeme) : Bool :=
  previous.any fun l => l.isSign "->" || l.isSign "?->" || l.isSign "::"

/-- Whether a statement can begin behind a lexeme. -/
def isBoundary (previous : Option Lexeme) : Bool :=
  previous.all fun l =>
    l.kind == .markup || [";", "\x7d", "]", ":"].any l.isSign || ["else", "do"].any l.isWord ||
      ["abstract", "final", "readonly"].any l.isWord

/-- The kind of class-like declaration that a word begins, given what follows it. -/
def classKind? (l : Lexeme) (previous : Option Lexeme) (rest : List Nest) : Option ClassKind :=
  let named := (upcoming? rest).any fun n =>
    n.isAnyWord && !n.isWord "extends" && !n.isWord "implements"
  if isAccess previous || !named then none
  else if l.isWord "class" then some .ordinary
  else if l.isWord "interface" then some .interface
  else if l.isWord "trait" then some .trait
  else if l.isWord "enum" && isBoundary previous then some .enumeration
  else none

/-- Whether a word begins a class without a name. -/
def isUnnamedClass (l : Lexeme) (previous : Option Lexeme) : Bool :=
  l.isWord "class" && !isAccess previous

/-- Whether the keyword of a function begins a declaration, given what follows it. -/
def isNamedFunction (rest : List Nest) : Bool :=
  match rest.filter (!·.isComment) with
  | n :: m :: _ => n.isAnyWord || (n.isAmpersand && m.isAnyWord)
  | _ => false

/-- Whether a word begins a namespace, given what follows it. -/
def isScope (l : Lexeme) (previous : Option Lexeme) (rest : List Nest) : Bool :=
  l.isWord "namespace" && isBoundary previous &&
    (upcoming? rest).any fun n => n.isAnyWord || n.isPair "\x7b"

/-- Whether a word begins imports, given what follows it. -/
def isImport (l : Lexeme) (previous : Option Lexeme) (rest : List Nest) : Bool :=
  l.isWord "use" && !isAccess previous && !(upcoming? rest).any (·.isPair "(")

/-- Whether a word is a modifier of a class. -/
def isModifier (l : Lexeme) (previous : Option Lexeme) : Bool :=
  ["abstract", "final", "readonly"].any l.isWord && !isAccess previous

/-- What the braces behind a lexeme of an expression will be. -/
def bracesAfter (l : Lexeme) (previous : Option Lexeme) (braces : Braces) : Braces :=
  if l.kind = .functionWord ∧ l.isWord "function" then .body
  else if isUnnamedClass l previous then .members
  else if l.isSign ";" then .plain
  else braces

/-! ### The end of a declaration without braces -/

/-- Whether a lexeme ends a declaration that has no braces: the end of the code does so too. -/
def ends (l : Lexeme) : Bool := l.isSign ";" || l.kind == .markup

/-- The nodes of a declaration and of the lexeme that ends it, given its parts backwards.  Only a
semicolon is part of the declaration. -/
def close (form : Form) (held : List Node) (l : Lexeme) : List Node :=
  if l.isSign ";" then [.branch form (.leaf l :: held).reverse]
  else [.branch form held.reverse, .leaf l]

/-! ### One step in code -/

/-- The nodes that a lexeme completes, and the place behind it. -/
def stepCode (s : CodeState) (l : Lexeme) (rest : List Nest) : List Node × CodeState :=
  let previous := if l.isComment then s.previous else some l
  match s.mode with
  | .imports =>
    if ends l then (close .imports s.held l, { previous })
    else ([], { s with held := .leaf l :: s.held, previous })
  | .header form =>
    if form = .scope ∧ ends l then (close .scope s.held l, { previous })
    else ([], { s with held := .leaf l :: s.held, previous })
  | .free =>
    if l.isComment then
      if s.held.isEmpty then ([.leaf l], s) else ([], { s with held := .leaf l :: s.held })
    else if l.kind = .functionWord ∧ isNamedFunction rest ∧ l.isWord "function" then
      ([], { mode := .header .function, held := .leaf l :: s.held, previous })
    else if isScope l s.previous rest then
      ([], { mode := .header .scope, held := .leaf l :: s.held, previous })
    else if isImport l s.previous rest then
      ([], { mode := .imports, held := .leaf l :: s.held, previous })
    -- a modifier waits for the declaration that it belongs to
    else if isModifier l s.previous then
      ([], { s with held := .leaf l :: s.held, previous })
    else
      match classKind? l s.previous rest with
      | some kind =>
        ([], { mode := .header (.classLike kind), held := .leaf l :: s.held, previous })
      -- no declaration begins, so that nothing waits any longer
      | none =>
        (s.held.reverse ++ [.leaf l],
          { braces := bracesAfter l s.previous s.braces, previous })

/-- The forms of the braces of a declaration. -/
def formOfBraces (s : CodeState) : Form :=
  match s.mode with
  | .header .function => .body
  | .header (.classLike _) => .members
  | .header .scope => .body
  | .imports => .brackets
  | _ =>
    match s.braces with
    | .body => .body
    | .members => .members
    | .plain => .brackets

/-- The nodes that a pair of brackets completes, and the place behind it. -/
def stepPair (s : CodeState) (opening : Lexeme) (n : Node) (closing : Option Lexeme) :
    List Node × CodeState :=
  let previous := some (closing.getD opening)
  match s.mode with
  | .imports => ([], { s with held := n :: s.held, previous })
  | .header form =>
    if opening.isSign "\x7b" then ([.branch form (n :: s.held).reverse], { previous })
    else ([], { s with held := n :: s.held, previous })
  | .free =>
    if opening.isSign "#[" then ([], { s with held := n :: s.held, previous })
    else if opening.isSign "\x7b" then (s.held.reverse ++ [n], { previous })
    else (s.held.reverse ++ [n], { braces := s.braces, previous })

/-! ### One step among members -/

/-- The form of the member under way, if it is one that matters. -/
def formOf? : MemberMode → Option Form
  | .method => some .method
  | .property => some .property
  | .constant => some .constant
  | _ => none

/-- The nodes of a complete member. -/
def member (s : MemberState) (parts : List Node) : List Node :=
  match formOf? s.mode with
  | some form => [.branch form parts]
  | none => parts

/-- The kind of member behind a lexeme. -/
def modeAfter (s : MemberState) (l : Lexeme) : MemberMode :=
  match s.mode with
  | .open_ =>
    if l.kind = .functionWord then .method
    else if l.isWord "const" then .constant
    else if l.kind = .dollarName then .property
    else if s.held.isEmpty && (l.isWord "use" || l.isWord "case") then .other
    else .open_
  | mode => mode

/-- The nodes that a lexeme completes, and the place behind it. -/
def stepMember (s : MemberState) (l : Lexeme) : List Node × MemberState :=
  if l.isComment || (s.mode == .open_ && l.kind == .markup) then
    if s.held.isEmpty then ([.leaf l], s) else ([], { s with held := .leaf l :: s.held })
  else if ends l then
    match formOf? s.mode with
    | some form => (close form s.held l, { previous := some l })
    | none => ((.leaf l :: s.held).reverse, { previous := some l })
  else
    ([], { mode := modeAfter s l, held := .leaf l :: s.held
           braces := bracesAfter l s.previous s.braces, previous := some l })

/-- The forms of the braces of a member. -/
def formOfMemberBraces (s : MemberState) : Form :=
  match s.mode with
  | .method => .body
  | .property | .constant =>
    match s.braces with
    | .body => .body
    | .members => .members
    | .plain => .brackets
  | _ => .brackets

/-- The nodes that a pair of brackets completes, and the place behind it. -/
def stepMemberPair (s : MemberState) (opening : Lexeme) (n : Node) (closing : Option Lexeme) :
    List Node × MemberState :=
  let previous := some (closing.getD opening)
  let parts := n :: s.held
  if opening.isSign "\x7b" then
    match s.mode with
    | .property | .constant => ([], { s with held := parts, braces := .plain, previous })
    | _ => (member s parts.reverse, { previous })
  else ([], { s with held := parts, previous })

/-! ### The nodes of a text -/

mutual

/-- The nodes of statements and expressions. -/
def code (s : CodeState) : List Nest → List Node
  | [] => s.held.reverse
  | .one l :: rest =>
    let r := stepCode s l rest
    r.1 ++ code r.2 rest
  | .pair opening inside closing :: rest =>
    let form := if opening.isSign "\x7b" then formOfBraces s else .brackets
    let parts := if form = .members then members {} inside else code {} inside
    let n := Node.branch form (.leaf opening :: parts ++ (closing.map Node.leaf).toList)
    let r := stepPair s opening n closing
    r.1 ++ code r.2 rest

/-- The nodes of the members of a class. -/
def members (s : MemberState) : List Nest → List Node
  | [] => s.held.reverse
  | .one l :: rest =>
    let r := stepMember s l
    r.1 ++ members r.2 rest
  | .pair opening inside closing :: rest =>
    let form := if opening.isSign "\x7b" then formOfMemberBraces s else .brackets
    let parts := if form = .members then members {} inside else code {} inside
    let n := Node.branch form (.leaf opening :: parts ++ (closing.map Node.leaf).toList)
    let r := stepMemberPair s opening n closing
    r.1 ++ members r.2 rest

end

end Outline

/-- The tree of a source text, as the list of its outermost nodes. -/
def Node.ofSource (source : Text) : List Node :=
  Outline.code {} (Nest.ofLexemes (Scan.lexemes source))

end HintCheck
