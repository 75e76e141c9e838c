/-
**Reading one tag.**

The text behind the name of a tag holds, for the three typed tags, a type and perhaps a variable
before the description.  The type ends at the first blank outside of brackets and quotes; the
result type of a callable, behind a colon, still belongs to it.

Main definitions:

* `HintCheck.DocTag.splitType` — the type at the beginning of a text, and the rest;
* `HintCheck.DocTag.targetOf?` — the variable at the beginning of a text, and the rest;
* `HintCheck.DocTag.ofContent` — the tag of a name and its text.
-/

import HintCheck.Doc.Block
import HintCheck.Ty.Read

set_option relaxedAutoImplicit false
set_option autoImplicit false

namespace HintCheck

namespace DocTag

open Text

/-! ### The parts of a tag -/

/-- The type at the beginning of a text, and the trimmed rest.  The text stands at a bracket depth
and perhaps inside a quotation; `colon` tells that the colon before a result type has just been
read, and `last` is the character before the text. -/
def splitTypeFrom : Nat → Option Char → Bool → Option Char → Text → Text × Text
  | _, _, _, _, [] => ([], [])
  | depth, some quote, colon, _, c :: cs =>
    consInside c (splitTypeFrom depth (if c = quote then none else some quote) colon (some c) cs)
  | depth, none, colon, last, c :: cs =>
    if isQuote c then consInside c (splitTypeFrom depth (some c) colon (some c) cs)
    else if isOpen c then consInside c (splitTypeFrom (depth + 1) none colon (some c) cs)
    else if isClose c then consInside c (splitTypeFrom (depth - 1) none colon (some c) cs)
    else if c = ':' ∧ depth = 0 ∧ last = some ')' then
      consInside c (splitTypeFrom depth none true (some c) cs)
    else if isBlank c ∧ depth = 0 then
      -- the blanks between the colon and the result type do not end the type
      if colon then consInside c (splitTypeFrom depth none colon last cs)
      else ([], trim (c :: cs))
    else consInside c (splitTypeFrom depth none false (some c) cs)

/-- The type at the beginning of a text, and the trimmed rest. -/
def splitType (cs : Text) : Text × Text := splitTypeFrom 0 none false none cs

/-- Whether a text begins with a variable, perhaps by reference or variadic. -/
def startsWithVariable (cs : Text) : Bool :=
  ["$", "&$", "...$", "&...$"].any fun start => start.toList.isPrefixOf cs

/-- The variable at the beginning of a text, without the signs in front, and the trimmed rest. -/
def targetOf? (cs : Text) : Option (Text × Text) :=
  if !startsWithVariable cs then none
  else
    let word := cs.takeWhile (!isBlank ·)
    match (word.dropWhile fun c => c == '&' || c == '.').dropWhile (· == '$') with
    | [] => none
    | name => some (name, trim (cs.dropWhile (!isBlank ·)))

/-- The type of a tag, which may be left out before a variable, and the rest. -/
def typedContent (cs : Text) : Ty × Text :=
  if startsWithVariable cs then (.undefined, cs)
  else
    let r := splitType cs
    (Ty.read r.1, r.2)

/-! ### The tag -/

/-- The tag with a name in small letters and a text.  A parameter without a variable is no typed
tag. -/
def ofContent (line : Nat) (name content : Text) : DocTag :=
  if name = "param".toList then
    let r := typedContent content
    match targetOf? r.2 with
    | some (target, words) => param ⟨line, r.1⟩ target (trim? words)
    | none => other line name (trim? content)
  else if name = "return".toList then
    let r := splitType content
    result ⟨line, Ty.read r.1⟩ (trim? r.2)
  else if name = "var".toList then
    let r := typedContent content
    match targetOf? r.2 with
    | some (target, words) => var ⟨line, r.1⟩ (some target) (trim? words)
    | none => var ⟨line, r.1⟩ none (trim? r.2)
  else other line name (trim? content)

end DocTag

end HintCheck
