/-
**Comments that silence diagnostics.**

A comment may silence the rules that it lists, or all of them, for its own line and the next one,
or for the whole file.  A rule is silenced by its own name and by the name of every group it
belongs to.

Main definitions:

* `HintCheck.Directive` — which rules a comment silences, and `HintCheck.Directive.listed`, the
  names that it lists;
* `HintCheck.Suppressions` — the silencing comments of a file;
* `HintCheck.Suppressions.silences` — whether a diagnostic is silenced.

Main results:

* `HintCheck.Directive.covers_everything` — a comment without a list silences every rule;
* `HintCheck.Suppressions.silences_none` — without comments nothing is silenced.
-/

import HintCheck.Text.Basic

set_option relaxedAutoImplicit false
set_option autoImplicit false

namespace HintCheck

/-- Which rules a comment silences. -/
inductive Directive where
  | everything
  /-- The rules, and groups of rules, of a list of names in small letters. -/
  | only (patterns : List Text)
  deriving DecidableEq, Repr

namespace Directive

open Text

/-- The text in front of the next sign that begins or ends a comment. -/
def beforeCommentSign : Text → Text
  | [] => []
  | c :: cs =>
    if ["//", "/*", "#", "*/"].any (fun sign => sign.toList.isPrefixOf (c :: cs)) then []
    else c :: beforeCommentSign cs

/-- A quotation mark of any kind. -/
def isQuotation (c : Char) : Bool := c == '"' || c == '\'' || c == '\x60'

/-- A listed name in small letters, without quotation marks around it and slashes behind it. -/
def normalizePattern (word : Text) : Text :=
  lower (dropEndWhile (· == '/') (dropEndWhile isQuotation (word.dropWhile isQuotation)))

/-- The names that are listed behind a directive, separated by commas or blanks. -/
def listed (tail : Text) : List Text :=
  let args := trimStart (trimEnd (beforeCommentSign tail))
  let args := match args with
    | ':' :: rest => trimStart rest
    | _ => args
  ((splitWhere (fun c => c == ',' || isBlank c) args).map normalizePattern).filter (!·.isEmpty)

/-- The rules listed in the text behind a directive.  A list without any name is no list. -/
def ofArguments (tail : Text) : Directive :=
  let patterns := listed tail
  if patterns.isEmpty || patterns.contains "*".toList || patterns.contains "all".toList then
    everything
  else only patterns

/-- Whether a pattern is a rule's name or the name of a group in front of a slash. -/
def patternCovers (rule pattern : Text) : Bool :=
  rule == pattern || (pattern ++ ['/']).isPrefixOf rule

/-- Whether a directive silences a rule. -/
def covers (d : Directive) (rule : Text) : Bool :=
  match d with
  | everything => true
  | only patterns => patterns.any (patternCovers (lower rule))

@[simp] theorem covers_everything (rule : Text) : everything.covers rule = true := rfl

end Directive

/-- The silencing comments of a file. -/
structure Suppressions where
  /-- Those for the whole file. -/
  file : List Directive
  /-- Those for single lines, with the line that each stands on. -/
  lines : List (Nat × Directive)
  deriving DecidableEq, Repr

namespace Suppressions

/-- No silencing comments. -/
def none : Suppressions := ⟨[], []⟩

/-- What a line silences: the directive for the file wins over the one for lines. -/
def ofLine (line : Text) (number : Nat) : Suppressions :=
  match Text.cutAt? "type-sniff-ignore-file".toList line with
  | some (_, tail) => ⟨[.ofArguments tail], []⟩
  | .none =>
    match Text.cutAt? "type-sniff-ignore".toList line with
    | some (_, tail) => ⟨[], [(number, .ofArguments tail)]⟩
    | .none => Suppressions.none

/-- The silencing comments of two parts of a file. -/
def append (a b : Suppressions) : Suppressions := ⟨a.file ++ b.file, a.lines ++ b.lines⟩

/-- The silencing comments of lines that are numbered from a number on. -/
def ofLines (number : Nat) : List Text → Suppressions
  | [] => none
  | l :: ls => (ofLine l number).append (ofLines (number + 1) ls)

/-- The silencing comments of a source text. -/
def ofSource (source : Text) : Suppressions := ofLines 1 (Text.lines source)

/-- Whether the diagnostics of a rule are silenced on a line. -/
def silences (s : Suppressions) (rule : Text) (line : Nat) : Bool :=
  s.file.any (·.covers rule) ||
    s.lines.any fun d => (line == d.1 || line == d.1 + 1) && d.2.covers rule

@[simp] theorem silences_none (rule : Text) (line : Nat) : none.silences rule line = false := rfl

/-- Whether a comment silences every rule in the whole file. -/
def silencesEverything (s : Suppressions) : Bool := s.file.contains .everything

end Suppressions

end HintCheck
