/-
**Reading documentation comments.**

The delimiters of the comment are removed line by line.  A line that begins with the sign of a tag
begins a tag; the lines behind it, up to the next tag, continue it, and the lines before the first
tag are the description.

Main definitions:

* `HintCheck.DocBlock.cleanLine` — a line without the delimiters of the comment;
* `HintCheck.DocBlock.groupByTag` — the description and the lines of each tag;
* `HintCheck.DocBlock.read` — the comment that a text spells.

Main results:

* `HintCheck.DocBlock.groupByTag_flatten` — grouping loses no line and keeps their order.
-/

import HintCheck.Doc.Tag
import HintCheck.ReadError
import HintCheck.Text.Lowercase

set_option relaxedAutoImplicit false
set_option autoImplicit false

namespace HintCheck

namespace DocBlock

open Text

/-! ### Lines -/

/-- A line without the delimiters of the comment: the end of the comment, and in front either its
beginning or one asterisk, with one space behind. -/
def cleanLine (line : Text) : Text :=
  let line := trimEnd line
  let line := trimStart ((dropSuffix? "*/".toList line).getD line)
  let line := match dropPrefix? "/**".toList line, line with
    | some rest, _ => rest
    | none, '*' :: rest => rest
    | none, line => line
  match line with
  | ' ' :: rest => trimEnd rest
  | line => trimEnd line

/-- Whether a cleaned line begins a tag: with an at sign, perhaps behind a brace. -/
def beginsTag (line : Text) : Bool :=
  match trimStart line with
  | '@' :: _ => true
  | '\x7b' :: '@' :: _ => true
  | _ => false

/-- Groups lines by the tag lines among them: the lines before the first one, then each tag line
with the lines behind it. -/
def groupByTag : List (Text × Nat) → List (Text × Nat) × List ((Text × Nat) × List (Text × Nat))
  | [] => ([], [])
  | l :: ls =>
    let r := groupByTag ls
    if beginsTag l.1 then ([], (l, r.1) :: r.2) else (l :: r.1, r.2)

/-- Every line is in the description or in one tag, in order. -/
theorem groupByTag_flatten (ls : List (Text × Nat)) :
    (groupByTag ls).1 ++ (groupByTag ls).2.flatMap (fun g => g.1 :: g.2) = ls := by
  induction ls with
  | nil => rfl
  | cons l ls ih =>
    unfold groupByTag
    by_cases h : beginsTag l.1 = true
    · simpa [h] using ih
    · simpa [h] using ih

/-! ### Tags -/

/-- The characters of a tag's name. -/
def isTagNameChar (c : Char) : Bool := isAlphanumeric c || c == '_' || c == '-' || c == '\\'

/-- The text of a tag line behind the sign; a tag in braces ends before the closing brace, where it
has one. -/
def tagBody (line : Text) : Text :=
  match trimStart line with
  | '\x7b' :: '@' :: rest => (dropSuffix? ['\x7d'] (trimEnd rest)).getD rest
  | '@' :: rest => rest
  | line => line

/-- The tag of a tag line and the lines that continue it.  Line ends count as single spaces, and
blank lines as nothing. -/
def readTag (group : (Text × Nat) × List (Text × Nat)) : Except ReadError DocTag :=
  let body := tagBody group.1.1
  match body.takeWhile isTagNameChar with
  | [] => .error (.emptyTagName group.1.2)
  | name =>
    -- what follows the name on its own line comes first
    let pieces := body.dropWhile isTagNameChar :: group.2.map (·.1)
    let content := join " " ((pieces.map trim).filter (!·.isEmpty))
    .ok (DocTag.ofContent group.1.2 (lowercase name) content)

/-! ### The comment -/

/-- Whether a line says nothing. -/
def isBlankLine (l : Text × Nat) : Bool := (trim l.1).isEmpty

/-- The lines without the blank ones at both ends. -/
def dropBlankEdges (ls : List (Text × Nat)) : List (Text × Nat) :=
  ((ls.dropWhile isBlankLine).reverse.dropWhile isBlankLine).reverse

/-- The comment that a text spells, when its first line has a given number. -/
def read (raw : Text) (line : Nat) : Except ReadError DocBlock := do
  let groups := groupByTag (((lines raw).map cleanLine).zipIdx line)
  let tags ← groups.2.mapM readTag
  return { description := dropBlankEdges groups.1, tags }

end DocBlock

end HintCheck
