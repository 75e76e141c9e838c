/-
**Lexemes of a source text.**

A source text is cut into lexemes: words, variables, literals, signs and comments, and the markup
around the code.  Each lexeme keeps the blanks in front of it, so that the text of any stretch of
lexemes can be given back.

Main definitions:

* `HintCheck.Lexeme` — a lexeme;
* `HintCheck.Lexeme.spanText` — the source text of consecutive lexemes;
* `HintCheck.Lexeme.token?` — the token of a lexeme inside a declaration.

Main results:

* `HintCheck.Lexeme.sourceText_append` — the text of two stretches is put together from theirs.
-/

import HintCheck.Token

set_option relaxedAutoImplicit false
set_option autoImplicit false

namespace HintCheck

/-- What a lexeme is. -/
inductive LexemeKind where
  /-- An identifier or a keyword. -/
  | word
  /-- A keyword that begins a function. -/
  | functionWord
  /-- A name behind a dollar sign. -/
  | dollarName
  /-- A number, or a text in quotation marks. -/
  | literal
  | sign
  | comment
  /-- Text outside of the code, and the tags around it. -/
  | markup
  deriving DecidableEq, Repr

/-- A lexeme of a source text. -/
structure Lexeme where
  kind : LexemeKind
  /-- The blanks in front. -/
  gap : Text
  text : Text
  /-- The line that the text begins on. -/
  line : Nat
  deriving DecidableEq, Repr

namespace Lexeme

/-- Whether a lexeme is a comment. -/
def isComment (l : Lexeme) : Bool := l.kind == .comment

/-- Whether a lexeme is a certain sign. -/
def isSign (l : Lexeme) (sign : String) : Bool := l.kind == .sign && l.text == sign.toList

/-- Whether a lexeme is a certain word, in any case of its letters. -/
def isWord (l : Lexeme) (word : String) : Bool :=
  (l.kind == .word || l.kind == .functionWord) && Text.sameLetters l.text word.toList

/-- Whether a lexeme is a word. -/
def isAnyWord (l : Lexeme) : Bool := l.kind == .word || l.kind == .functionWord

/-- The source text of lexemes, with the blanks in front of them. -/
def sourceText (ls : List Lexeme) : Text := ls.flatMap fun l => l.gap ++ l.text

theorem sourceText_append (as bs : List Lexeme) :
    sourceText (as ++ bs) = sourceText as ++ sourceText bs := by
  simp [sourceText]

/-- The source text of lexemes, from the first text on. -/
def spanText : List Lexeme → Text
  | [] => []
  | l :: ls => l.text ++ sourceText ls

/-- The lexemes without the comments at both ends. -/
def dropOuterComments (ls : List Lexeme) : List Lexeme :=
  ((ls.dropWhile isComment).reverse.dropWhile isComment).reverse

/-- The token of a lexeme, unless it is blank. -/
def token? (l : Lexeme) : Option Token :=
  (Text.trim? l.text).map fun text =>
    { kind := if l.kind = .functionWord then .function else TokenKind.ofText text
      text
      line := l.line }

end Lexeme

end HintCheck
