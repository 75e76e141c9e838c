/-
**Tokens of a declaration.**

A declaration is read from its tokens: the words, signs and comments it is written with, each with
its line.  The kind of a token follows from its text, except for the keyword that begins a
function, which as a name would be an identifier.

Main definitions:

* `HintCheck.TokenKind`, `HintCheck.Token` — a token;
* `HintCheck.TokenKind.ofText` — the kind that a text has;
* `HintCheck.TokenKind.depthAfter` — the bracket depth behind a token;
* `HintCheck.Token.render` — a line of a listing of tokens.
-/

import HintCheck.Text.Basic

set_option relaxedAutoImplicit false
set_option autoImplicit false

namespace HintCheck

/-- What a token is. -/
inductive TokenKind where
  /-- The keyword that begins a function. -/
  | function
  | identifier
  /-- The separator between the segments of a class name. -/
  | separator
  /-- The question mark in front of a type. -/
  | question
  | ellipsis
  | ampersand
  /-- A name behind a dollar sign. -/
  | dollarName
  | comma
  | openParen
  | closeParen
  | openBracket
  | closeBracket
  | openBrace
  | closeBrace
  /-- The beginning of a group of attributes. -/
  | attributeOpen
  | equals
  | semicolon
  | colon
  | bar
  | literal
  | docComment
  | comment
  | other
  deriving DecidableEq, Repr

/-- A token and the line that it begins on. -/
structure Token where
  kind : TokenKind
  text : Text
  line : Nat
  deriving DecidableEq, Repr

namespace TokenKind

/-! ### The kind of a text -/

/-- A character that can begin an identifier. -/
def beginsIdentifier (c : Char) : Bool := c.isAlpha || c == '_' || 127 < c.toNat

/-- A character that can continue an identifier. -/
def continuesIdentifier (c : Char) : Bool := c.isAlphanum || c == '_' || 127 < c.toNat

/-- Whether a text is an identifier. -/
def isIdentifier : Text → Bool
  | [] => false
  | c :: cs => beginsIdentifier c && cs.all continuesIdentifier

/-- The kinds of the signs. -/
def ofSign : List (String × TokenKind) :=
  [("(", openParen), (")", closeParen), ("[", openBracket), ("]", closeBracket),
   ("\x7b", openBrace), ("\x7d", closeBrace), ("#[", attributeOpen), (",", comma), ("=", equals),
   (";", semicolon), (":", colon), ("|", bar), ("?", question), ("...", ellipsis),
   ("&", ampersand), ("\\", separator)]

/-- Whether a text begins with another one. -/
def begins (start : String) (text : Text) : Bool := start.toList.isPrefixOf text

/-- The kind of a text that is no sign. -/
def ofWord (text : Text) : TokenKind :=
  if begins "/**" text && text != "/**/".toList then docComment
  else if begins "//" text || begins "#" text || begins "/*" text then comment
  else if begins "$" text then dollarName
  else if isIdentifier text then identifier
  else if text.head?.any (fun c => c.isDigit || c == '\'' || c == '"') || begins "<<<" text then
    literal
  else other

/-- The kind of a text. -/
def ofText (text : Text) : TokenKind :=
  match ofSign.find? (·.1.toList == text) with
  | some row => row.2
  | none => ofWord text

/-! ### Brackets -/

/-- Whether a token opens a bracket. -/
def opens : TokenKind → Bool
  | openParen => true
  | openBracket => true
  | openBrace => true
  | attributeOpen => true
  | _ => false

/-- Whether a token closes a bracket. -/
def closes : TokenKind → Bool
  | closeParen => true
  | closeBracket => true
  | closeBrace => true
  | _ => false

/-- The bracket depth behind a token; a closing bracket without a partner leaves it at zero. -/
def depthAfter (kind : TokenKind) (depth : Nat) : Nat :=
  if kind.opens then depth + 1 else if kind.closes then depth - 1 else depth

/-- The kinds of the tokens that types are written with. -/
def isTypePart : TokenKind → Bool
  | identifier => true
  | separator => true
  | question => true
  | bar => true
  | ampersand => true
  | openParen => true
  | closeParen => true
  | _ => false

/-! ### Listings -/

/-- The name of a kind in a listing. -/
def name : TokenKind → String
  | function => "Function"
  | identifier => "Identifier"
  | separator => "NsSeparator"
  | question => "Nullable"
  | ellipsis => "Ellipsis"
  | ampersand => "Ampersand"
  | dollarName => "Variable"
  | comma => "Comma"
  | openParen => "OpenParen"
  | closeParen => "CloseParen"
  | openBracket => "OpenBracket"
  | closeBracket => "CloseBracket"
  | openBrace => "OpenBrace"
  | closeBrace => "CloseBrace"
  | attributeOpen => "AttributeOpen"
  | equals => "Equals"
  | semicolon => "Semicolon"
  | colon => "Colon"
  | bar => "Pipe"
  | literal => "Literal"
  | docComment => "DocComment"
  | comment => "Comment"
  | other => "Other"

end TokenKind

/-- A line of a listing of tokens: the line number to the right of four columns, the kind to the
left of fourteen, and the text. -/
def Token.render (t : Token) : Text :=
  (Text.ofNat t.line).leftpad 4 ' ' ++ ' ' :: t.kind.name.toList.rightpad 14 ' ' ++ ' ' :: t.text

end HintCheck
