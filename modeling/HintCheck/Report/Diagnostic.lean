/-
**Diagnostics.**

A diagnostic tells what is wrong on a line of a file, which rule found it and how grave it is.

Main definitions:

* `HintCheck.Severity` — how grave a finding is;
* `HintCheck.Diagnostic` — a finding;
* `HintCheck.Diagnostic.render` — the text for a terminal, in colours.
-/

import HintCheck.Text.Basic

set_option relaxedAutoImplicit false
set_option autoImplicit false

namespace HintCheck

/-- How grave a finding is. -/
inductive Severity where
  | info
  | warning
  | error
  deriving DecidableEq, Repr

/-- The word for a severity. -/
def Severity.text : Severity → Text
  | info => "info".toList
  | warning => "warning".toList
  | error => "error".toList

/-- The severity of a word. -/
def Severity.ofText? (word : Text) : Option Severity :=
  [info, warning, error].find? (·.text == word)

/-- A finding on one line of a file. -/
structure Diagnostic where
  file : Text
  line : Nat
  severity : Severity
  /-- The name of the rule. -/
  code : Text
  message : Text
  /-- The source line, where the file has it. -/
  snippet : Option Text
  deriving DecidableEq, Repr

namespace Diagnostic

/-- A colour of the terminal. -/
def escape (code : String) : Text := '\x1b' :: '[' :: code.toList ++ ['m']

/-- The end of all colours. -/
def reset : Text := escape "0"

/-- The colour of the word for a severity. -/
def severityColour : Severity → Text
  | .error => escape "1;31"
  | _ => escape "1;33"

/-- The source line between two rulers. -/
def renderSnippet (line : Nat) (snippet : Text) : Text :=
  let blue := escape "34"
  let ruler := blue ++ "    |".toList ++ reset ++ ['\n']
  ruler ++ blue ++ (Text.ofNat line).leftpad 3 ' ' ++ reset ++ [' '] ++ blue ++ ['|'] ++ reset ++
    [' '] ++ snippet ++ ['\n'] ++ ruler

/-- The text of a diagnostic for a terminal. -/
def render (d : Diagnostic) : Text :=
  severityColour d.severity ++ d.severity.text ++ reset ++ ": ".toList ++ d.message ++ [' '] ++
    escape "2" ++ ['['] ++ d.code ++ [']'] ++ reset ++ ['\n'] ++
    " --> ".toList ++ d.file ++ [':'] ++ Text.ofNat d.line ++ ['\n'] ++
    (d.snippet.map (renderSnippet d.line)).getD []

end Diagnostic

end HintCheck
