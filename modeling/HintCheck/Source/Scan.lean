/-
**Cutting a source text into lexemes.**

Code stands between tags; the rest is markup.  Inside the code each lexeme is the longest one that
begins at its place.  Comments, texts in quotation marks with the expressions inside them, and
texts between labels are one lexeme each.

Main definitions:

* `HintCheck.Scan.next` — the kind of the lexeme that begins at a place, and its length;
* `HintCheck.Scan.lexemes` — the lexemes of a source text.

Main results:

* `HintCheck.Scan.sourceText_split` — cutting off a lexeme loses nothing.
-/

import HintCheck.Source.Lexeme

set_option relaxedAutoImplicit false
set_option autoImplicit false

namespace HintCheck

namespace Scan

open Text

/-! ### Characters -/

/-- The blanks between lexemes. -/
def isGap (c : Char) : Bool :=
  let n := c.toNat
  n == 0x20 || (9 ≤ n && n ≤ 13) || n == 0xA0 || n == 0x200B || n == 0x2060 || n == 0xFEFF

/-- A character that can begin a word. -/
def beginsWord (c : Char) : Bool := c.isAlpha || c == '_' || (127 < c.toNat && !isGap c)

/-- A character that can continue a word. -/
def continuesWord (c : Char) : Bool := beginsWord c || c.isDigit

/-! ### Comments -/

/-- The length of a comment that goes to the end of the line or of the code. -/
def lineCommentLength : Text → Nat
  | [] => 0
  | '\n' :: _ => 0
  | '\r' :: _ => 0
  | '?' :: '>' :: _ => 0
  | _ :: cs => lineCommentLength cs + 1

/-- The length of a comment up to the sign that ends it. -/
def blockCommentLength : Text → Nat
  | [] => 0
  | '*' :: '/' :: _ => 2
  | _ :: cs => blockCommentLength cs + 1

/-! ### Quoted texts -/

/-- What the scanner of a quoted text is inside of. -/
inductive Quotation where
  /-- A text that ends with a mark and holds no expressions. -/
  | plain (mark : Char)
  /-- A text that ends with a mark and may hold expressions in braces. -/
  | expanding (mark : Char)
  /-- An expression in braces. -/
  | braces
  deriving DecidableEq

/-- The length of a quoted text up to its end; the list tells what its beginning is inside of, and
`escaped` that a character is to be taken as it is. -/
def quotedLength : List Quotation → Bool → Text → Nat
  | [], _, _ => 0
  | _, _, [] => 0
  | outer, true, _ :: cs => quotedLength outer false cs + 1
  | .plain mark :: outer, false, c :: cs =>
    (if c = mark then quotedLength outer false cs
    else quotedLength (.plain mark :: outer) (c == '\\') cs) + 1
  | .expanding mark :: outer, false, c :: cs =>
    (if c = mark then quotedLength outer false cs
    else if (c == '\x7b' && cs.head? == some '$') then
      quotedLength (.braces :: .expanding mark :: outer) false cs
    -- the brace behind the dollar sign opens nothing of its own
    else if (c == '$' && cs.head? == some '\x7b') then
      quotedLength (.braces :: .expanding mark :: outer) true cs
    else quotedLength (.expanding mark :: outer) (c == '\\') cs) + 1
  | .braces :: outer, false, c :: cs =>
    (if c = '\x7d' then quotedLength outer false cs
    else if c = '\x7b' then quotedLength (.braces :: .braces :: outer) false cs
    else if c = '\'' then quotedLength (.plain '\'' :: .braces :: outer) false cs
    else if c = '"' then quotedLength (.expanding '"' :: .braces :: outer) false cs
    else quotedLength (.braces :: outer) false cs) + 1

/-! ### Texts between labels -/

/-- The number of blanks of a line at the beginning of a text. -/
def indentLength (cs : Text) : Nat := (cs.takeWhile fun c => c == ' ' || c == '\t').length

/-- Whether a text begins with a label that ends there. -/
def beginsWithLabel (label cs : Text) : Bool :=
  match label.isPrefixOf? cs with
  | some rest => !rest.head?.any continuesWord
  | none => false

/-- The length of a text up to the line that begins with its label; `atLineStart` tells whether a
line begins here. -/
def labelledLength (label : Text) (atLineStart : Bool) : Text → Nat
  | [] => 0
  | c :: cs =>
    if atLineStart && beginsWithLabel label ((c :: cs).drop (indentLength (c :: cs))) then
      indentLength (c :: cs) + label.length
    else labelledLength label (c == '\n') cs + 1

/-- The label behind the three signs that begin such a text, and the length of all that is in front
of the first line. -/
def label? (cs : Text) : Option (Text × Nat) :=
  let blanks := indentLength cs
  let rest := cs.drop blanks
  let quoted := rest.head?.any fun c => c == '"' || c == '\''
  let rest := if quoted then rest.drop 1 else rest
  let label := rest.takeWhile continuesWord
  if rest.head?.any beginsWord then
    some (label, blanks + label.length + if quoted then 2 else 0)
  else none

/-! ### Numbers and signs -/

/-- The length of digits, with underscores between them. -/
def digitsLength (p : Char → Bool) (cs : Text) : Nat :=
  (cs.takeWhile fun c => p c || c == '_').length

/-- A hexadecimal digit. -/
def isHexDigit (c : Char) : Bool := c.isDigit || ('a' ≤ c.toLower && c.toLower ≤ 'f')

/-- The length of an exponent. -/
def exponentLength (cs : Text) : Nat :=
  match cs with
  | mark :: rest =>
    if mark == 'e' || mark == 'E' then
      let sign := match rest with
        | '+' :: _ => 1
        | '-' :: _ => 1
        | _ => 0
      let digits := digitsLength Char.isDigit (rest.drop sign)
      if digits = 0 then 0 else 1 + sign + digits
    else 0
  | [] => 0

/-- The length of a number. -/
def numberLength (cs : Text) : Nat :=
  match cs with
  | '0' :: mark :: rest =>
    if (mark == 'x' || mark == 'X') && rest.head?.any isHexDigit then
      2 + digitsLength isHexDigit rest
    else if (mark == 'b' || mark == 'B' || mark == 'o' || mark == 'O') &&
        rest.head?.any Char.isDigit then
      2 + digitsLength Char.isDigit rest
    else decimalLength cs
  | _ => decimalLength cs
where
  decimalLength (cs : Text) : Nat :=
    let whole := digitsLength Char.isDigit cs
    let rest := cs.drop whole
    match rest with
    | '.' :: '.' :: _ => whole
    | '.' :: more =>
      let places := digitsLength Char.isDigit more
      whole + 1 + places + exponentLength (more.drop places)
    | _ => whole + exponentLength rest

/-- The signs of several characters, longer ones first. -/
def longSigns : List String :=
  ["?->", "...", "<=>", "**=", "<<=", ">>=", "??=", "===", "!==",
   "->", "=>", "::", "==", "!=", "<>", "<=", ">=", "&&", "||", "??", "++", "--", "**", "+=", "-=",
   "*=", "/=", ".=", "%=", "&=", "|=", "^=", "<<", ">>", "#["]

/-- The length of a sign. -/
def signLength (cs : Text) : Nat :=
  match longSigns.find? fun sign => sign.toList.isPrefixOf cs with
  | some sign => sign.length
  | none => 1

/-! ### One lexeme -/

/-- The kind and the length of a text between labels, or of the signs that did not begin one. -/
def nextLabelled (cs : Text) : LexemeKind × Nat :=
  match label? (cs.drop 3) with
  | some (label, front) =>
    (.literal, 3 + front + labelledLength label false (cs.drop (3 + front)))
  | none => (.sign, signLength cs)

/-- The kind and the length of a word, or of a text in quotation marks that a letter begins. -/
def nextWord (c : Char) (cs : Text) : LexemeKind × Nat :=
  match cs with
  | '\'' :: rest =>
    if c == 'b' || c == 'B' then (.literal, 2 + quotedLength [.plain '\''] false rest)
    else (.word, 1)
  | '"' :: rest =>
    if c == 'b' || c == 'B' then (.literal, 2 + quotedLength [.expanding '"'] false rest)
    else (.word, 1)
  | _ => (.word, 1 + (cs.takeWhile continuesWord).length)

/-- The kind and the length of the lexeme that begins with a character of the code. -/
def next (c : Char) (cs : Text) : LexemeKind × Nat :=
  if beginsWord c then nextWord c cs
  else if c.isDigit || (c == '.' && cs.head?.any Char.isDigit) then
    (.literal, numberLength (c :: cs))
  else if c == '$' then
    if cs.head?.any beginsWord then (.dollarName, 1 + (cs.takeWhile continuesWord).length)
    else (.sign, 1)
  else if c == '\'' then (.literal, 1 + quotedLength [.plain '\''] false cs)
  else if c == '"' || c == '\x60' then (.literal, 1 + quotedLength [.expanding c] false cs)
  else if c == '/' && cs.head? == some '/' then (.comment, 1 + lineCommentLength cs)
  else if c == '/' && cs.head? == some '*' then (.comment, 2 + blockCommentLength (cs.drop 1))
  else if c == '#' && cs.head? != some '[' then (.comment, 1 + lineCommentLength cs)
  else if "<<<".toList.isPrefixOf (c :: cs) then nextLabelled (c :: cs)
  else if c == '?' && cs.head? == some '>' then (.markup, 2)
  else (.sign, signLength (c :: cs))

/-- The length of the tag that begins code: a language name or an equals sign may follow. -/
def tagLength (cs : Text) : Nat :=
  if "<?php".toList.isPrefixOf (lower (cs.take 5)) then 5
  else if "<?=".toList.isPrefixOf cs then 3
  else 2

/-- The length of the markup in front of the next tag that begins code. -/
def markupLength : Text → Nat
  | [] => 0
  | c :: cs => if "<?".toList.isPrefixOf (c :: cs) then 0 else markupLength cs + 1

/-! ### All lexemes -/

/-- The number of line ends in a text. -/
def lineEnds (cs : Text) : Nat := cs.count '\n'

/-- The first `n + 1` characters and the rest are the text. -/
theorem sourceText_split (c : Char) (cs : Text) (n : Nat) :
    (c :: cs.take n) ++ cs.drop n = c :: cs := by simp

/-- The lexemes of a text that begins on a line, behind some blanks, inside or outside of the
code. -/
def lexemesFrom (inCode : Bool) (gap : Text) (line : Nat) : Text → List Lexeme
  | [] => []
  | c :: cs =>
    if inCode && isGap c then
      lexemesFrom true (gap ++ [c]) (if c = '\n' then line + 1 else line) cs
    else
      let tag := !inCode && "<?".toList.isPrefixOf (c :: cs)
      let found :=
        if inCode then next c cs
        else if tag then (.markup, tagLength (c :: cs))
        else (.markup, markupLength (c :: cs))
      let text := c :: cs.take (found.2 - 1)
      { kind := found.1, gap, text, line } ::
        lexemesFrom (tag || (inCode && found.1 != .markup)) [] (line + lineEnds text)
          (cs.drop (found.2 - 1))
termination_by cs => cs.length
decreasing_by
  -- a blank is one character
  · simp only [List.length_cons]
    omega
  -- and a lexeme is at least one
  · simp only [List.length_drop, List.length_cons]
    omega

/-- Whether a lexeme makes the word behind it a name. -/
def makesName (previous : Option Lexeme) : Bool :=
  previous.any fun l =>
    l.isSign "->" || l.isSign "?->" || l.isSign "::" || l.isWord "const" || l.kind == .functionWord

/-- Whether a word is the keyword of a function, given the lexemes behind it. -/
def isFunctionWord (l : Lexeme) (following : List Lexeme) : Bool :=
  let next := following.find? (!·.isComment)
  if l.isWord "function" then next.any fun n => n.isSign "(" || n.isSign "&" || n.isAnyWord
  else if l.isWord "fn" then next.any fun n => n.isSign "(" || n.isSign "&"
  else false

/-- Marks the keywords of functions; `previous` is the last lexeme that is neither a comment nor the
ampersand behind such a keyword. -/
def markFunctions (previous : Option Lexeme) : List Lexeme → List Lexeme
  | [] => []
  | l :: ls =>
    if l.isComment then l :: markFunctions previous ls
    else if l.isSign "&" && previous.any (·.kind == .functionWord) then
      l :: markFunctions previous ls
    else
      let marked :=
        if !makesName previous && isFunctionWord l ls then
          { l with kind := .functionWord }
        else l
      marked :: markFunctions (some marked) ls

/-- The lexemes of a source text. -/
def lexemes (source : Text) : List Lexeme := markFunctions none (lexemesFrom false [] 1 source)

end Scan

end HintCheck
