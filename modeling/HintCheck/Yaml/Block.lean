/-
**Maps and lists by indentation.**

The outline of a YAML document: the entries of a map and the items of a list stand on lines of the
same indentation, and what belongs to an entry stands deeper.

Main definitions:

* `HintCheck.Yaml.Line`, `HintCheck.Yaml.outline?` — the lines that say something, with their
  indentation;
* `HintCheck.Yaml.readNode` — the value that begins on a line;
* `HintCheck.Yaml.read?` — the value of a document.
-/

import HintCheck.Yaml.Flow

set_option relaxedAutoImplicit false
set_option autoImplicit false

namespace HintCheck

namespace Yaml

/-! ### Lines -/

/-- A line that says something. -/
structure Line where
  /-- The number of spaces in front. -/
  indent : Nat
  /-- The text behind them, without spaces at its end. -/
  content : Text

/-- The indentation and the text of a line, or nothing when it is blank or a comment. -/
def lineOf (cs : Text) : Option Line :=
  let content := Text.dropEndWhile isSpace (cs.dropWhile (· == ' '))
  match content.dropWhile isSpace with
  | [] => none
  | '#' :: _ => none
  | _ => some ⟨(cs.takeWhile (· == ' ')).length, content⟩

/-- The lines that say something; a tab is no indentation. -/
def outline? (cs : Text) : Option (List Line) :=
  let found := (Text.lines cs).filterMap lineOf
  if found.any (·.content.head? == some '\t') then none else some found

/-- The text of lines. -/
def textOf (ls : List Line) : Text :=
  ls.flatMap fun l => '\n' :: List.replicate l.indent ' ' ++ l.content

/-! ### Parts of a line -/

/-- Whether the rest of a line says nothing more. -/
def endsLine (cs : Text) : Bool := (skipGaps true cs).isEmpty

/-- Whether a line begins an item of a list. -/
def isItem (content : Text) : Bool :=
  match content with
  | ['-'] => true
  | '-' :: c :: _ => isSpace c
  | _ => false

/-- What stands behind the colon of a key. -/
def afterColon? (cs : Text) : Option Text :=
  match cs.dropWhile isSpace with
  | ':' :: rest => if rest.head?.all isSpace then some rest else none
  | _ => none

/-- The key at the beginning of a line, and what stands behind its colon. -/
def splitKey (content : Text) : Option (Yaml × Text) :=
  match content with
  | '"' :: cs => do
    let r ← readDoubleQuoted cs
    let rest ← afterColon? r.2
    return (scalar r.1 false, rest)
  | '\'' :: cs => do
    let r ← readSingleQuoted cs
    let rest ← afterColon? r.2
    return (scalar r.1 false, rest)
  | _ =>
    if beginsPlain false content then do
      let r := scanPlain false false content
      let rest ← afterColon? r.2
      return (scalar (Text.dropEndWhile isSpace r.1) true, rest)
    else none

/-! ### Inline values on lines -/

/-- The value that an inline reader finds at the beginning of a text that goes on over lines, and
the lines behind it.  The rest of its last line has to say nothing. -/
def closeLine (r : Option (Yaml × Text)) : Option (Yaml × List Line) := do
  let (v, rest) ← r
  let tail := rest.takeWhile (· != '\n')
  if tail.isEmpty || (tail.head?.all isSpace && endsLine tail) then
    let more ← outline? (rest.dropWhile (· != '\n'))
    return (v, more)
  else none

/-- A plain scalar that goes on over deeper lines, and the lines behind it. -/
def readPlain (indent : Nat) (content : Text) (ls : List Line) : Option (Text × List Line) :=
  let r := scanPlain false false content
  let words := Text.dropEndWhile isSpace r.1
  match r.2 with
  | ':' :: _ => none
  | '#' :: _ => some (words, ls)
  | _ =>
    match ls with
    | [] => some (words, [])
    | l :: more =>
      if l.indent < indent then some (words, ls)
      else (readPlain indent l.content more).map fun s => (words ++ ' ' :: s.1, s.2)
termination_by structural ls

/-- The inline value at the beginning of a line, and the lines behind it; lines that are indented
less than `indent` do not belong to it. -/
def readInline (indent : Nat) (content : Text) (ls : List Line) : Option (Yaml × List Line) :=
  match content with
  | [] => none
  | c :: _ =>
    if c == '[' || c == '\x7b' || c == '"' || c == '\'' then
      let cs := content ++ textOf ls
      closeLine (readFlow (4 * cs.length + 4) cs)
    else if beginsPlain false content then
      (readPlain indent content ls).map fun r => (scalar r.1 true, r.2)
    else none

/-! ### The outline -/

mutual

/-- The value that begins on the first line, and the lines behind it.  A line that is indented less
than `indent` does not belong to it. -/
def readNode : Nat → Nat → List Line → Option (Yaml × List Line)
  | 0, _, _ => none
  | _, _, [] => some (absent, [])
  | fuel + 1, indent, l :: ls =>
    if l.indent < indent then some (absent, l :: ls)
    else if isItem l.content then
      (readList fuel l.indent (l :: ls)).map fun r => (list r.1, r.2)
    else if (splitKey l.content).isSome then
      (readMap fuel l.indent (l :: ls)).map fun r => (map r.1, r.2)
    else readInline indent l.content ls

/-- The items of a list at an indentation, and the lines behind them. -/
def readList : Nat → Nat → List Line → Option (List Yaml × List Line)
  | 0, _, _ => none
  | _, _, [] => some ([], [])
  | fuel + 1, indent, l :: ls =>
    if l.indent = indent ∧ isItem l.content then do
      let tail := l.content.drop 1
      let inner := tail.dropWhile isSpace
      -- what stands behind the dash is a line of its own, indented up to there
      let first :=
        if endsLine tail then []
        else [Line.mk (indent + 1 + (tail.length - inner.length)) inner]
      let (v, rest) ← readNode fuel (indent + 1) (first ++ ls)
      let (vs, rest) ← readList fuel indent rest
      return (v :: vs, rest)
    else some ([], l :: ls)

/-- The entries of a map at an indentation, and the lines behind them. -/
def readMap : Nat → Nat → List Line → Option (List (Yaml × Yaml) × List Line)
  | 0, _, _ => none
  | _, _, [] => some ([], [])
  | fuel + 1, indent, l :: ls =>
    if l.indent = indent then
      match splitKey l.content with
      | none => none
      | some (k, tail) => do
        let (v, rest) ←
          if endsLine tail then
            -- a list may stand at the indentation of its key
            if ls.head?.any (fun n => n.indent = indent ∧ isItem n.content) then
              (readList fuel indent ls).map fun r => (list r.1, r.2)
            else readNode fuel (indent + 1) ls
          else readInline (indent + 1) (tail.dropWhile isSpace) ls
        let (kvs, rest) ← readMap fuel indent rest
        return ((k, v) :: kvs, rest)
    else some ([], l :: ls)

end

/-! ### Documents -/

/-- The lines of a document without the marks at its beginning and its end. -/
def dropMarks (ls : List Line) : List Line :=
  let ls := ls.dropWhile fun l => l.content.head? == some '%'
  let ls := match ls with
    | ⟨0, ['-', '-', '-']⟩ :: rest => rest
    | _ => ls
  match ls.reverse with
  | ⟨0, ['.', '.', '.']⟩ :: rest => rest.reverse
  | _ => ls

/-- The value of a document; nothing when the text is no document. -/
def read? (cs : Text) : Option Yaml := do
  let ls := dropMarks (← outline? cs)
  match ← readNode (4 * cs.length + 4) 0 ls with
  | (v, []) => some v
  | _ => none

end Yaml

end HintCheck
