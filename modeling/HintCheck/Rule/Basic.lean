/-
**Rules.**

A rule finds faults in the declarations of a file; it may look at the classes of the whole project.
What it finds is reported unless a comment of the file silences it.

Main definitions:

* `HintCheck.Rule` — a rule;
* `HintCheck.Rule.run` — the diagnostics of a rule for a file;
* `HintCheck.needlessTags` — the tags of a comment that do not belong there.
-/

import HintCheck.ClassIndex
import HintCheck.Rule.Report

set_option relaxedAutoImplicit false
set_option autoImplicit false

namespace HintCheck

/-- A rule. -/
structure Rule where
  name : Text
  severity : Severity
  /-- Reports what the rule finds in a file. -/
  check : SourceFile → ClassIndex → Report → Report

/-- The diagnostics of a rule for a file. -/
def Rule.run (r : Rule) (f : SourceFile) (x : ClassIndex) : List Diagnostic :=
  (r.check f x (.start f r.name r.severity)).diagnostics

/-- The tags of a comment that do not belong there. -/
def needlessTags (doc : Doc) (invalid : List Text) : List Finding :=
  (doc.tags.filter fun tag => invalid.contains tag.name).map fun tag =>
    (tag.line, "Useless tag".toList)

/-- The word characters at the beginning of a text, where there are some, and the rest. -/
def word? (cs : Text) : Option (Text × Text) :=
  match cs.takeWhile Text.isWord with
  | [] => none
  | w => some (w, cs.dropWhile Text.isWord)

/-- The text behind the blanks at its beginning, where there are some. -/
def afterBlanks? : Text → Option Text
  | [] => none
  | c :: cs => if Text.isBlank c then some (cs.dropWhile Text.isBlank) else none

end HintCheck
