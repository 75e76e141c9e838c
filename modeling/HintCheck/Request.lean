/-
**Requests.**

The arguments of the program say what is to be checked, where the settings are and in what form
the report is wanted.

Main definitions:

* `HintCheck.Request` — what the program is asked for;
* `HintCheck.Request.ofArguments?` — the request that arguments make.

Main results:

* `HintCheck.Request.setOnce_some` — nothing is given twice.
-/

import HintCheck.Files.Path

set_option relaxedAutoImplicit false
set_option autoImplicit false

namespace HintCheck

/-- The form of a report. -/
inductive ReportFormat where
  /-- For a reader. -/
  | text
  | json
  deriving DecidableEq, Repr

/-- The form of a report that a word names. -/
def ReportFormat.ofText? (word : Text) : Option ReportFormat :=
  if word = "text".toList then some .text
  else if word = "json".toList then some .json
  else none

/-- What the program is asked for. -/
structure Request where
  /-- The path or the pattern of what is to be checked. -/
  target : Text
  format : ReportFormat
  /-- The file with the settings, when it is named. -/
  settings : Option Path
  deriving DecidableEq, Repr

namespace Request

/-! ### Options and values -/

/-- Whether an argument is an option. -/
def isOption (arg : Text) : Bool := arg.head? == some '-' && arg != ['-']

/-- The value of an option that is written in one argument with it. -/
def valueOf? (option : String) (arg : Text) : Option Text :=
  Text.dropPrefix? (option.toList ++ ['=']) arg

/-- A value that is given, unless one was given before. -/
def setOnce {α : Type} (old new : Option α) : Option (Option α) :=
  if old.isSome then none else new.map some

@[simp] theorem setOnce_some {α : Type} (a : α) (new : Option α) :
    setOnce (some a) new = none := rfl

/-- A path that is not empty. -/
def path? (arg : Text) : Option Path := if arg.isEmpty then none else some arg

/-! ### Reading -/

/-- The arguments that were read. -/
structure Draft where
  settings : Option Path := none
  format : Option ReportFormat := none
  target : Option Text := none

namespace Draft

/-- The request that was read, when it names what is to be checked. -/
def finish? (r : Draft) : Option Request :=
  r.target.map fun target => { target, format := r.format.getD .text, settings := r.settings }

/-- Takes the word for the form of the report. -/
def withFormat? (r : Draft) (word : Text) : Option Draft :=
  (setOnce r.format (ReportFormat.ofText? word)).map fun format => { r with format }

/-- Takes the path of the settings. -/
def withSettings? (r : Draft) (arg : Text) : Option Draft :=
  (setOnce r.settings (path? arg)).map fun settings => { r with settings }

/-- Takes what is to be checked. -/
def withTarget? (r : Draft) (arg : Text) : Option Draft :=
  (setOnce r.target (path? arg)).map fun target => { r with target }

/-- Reads the arguments behind the name of the command.  Two dashes end the options. -/
def readCommand? (r : Draft) : List Text → Option Request
  | [] => r.finish?
  | arg :: args =>
    if arg = "--".toList then (args.foldlM withTarget? r).bind finish?
    else if arg = "--format".toList then
      match args with
      | word :: args => (r.withFormat? word).bind (readCommand? · args)
      | [] => none
    else
      match valueOf? "--format" arg with
      | some word => (r.withFormat? word).bind (readCommand? · args)
      | none => if isOption arg then none else (r.withTarget? arg).bind (readCommand? · args)

/-- Reads all arguments. -/
def read? (r : Draft) : List Text → Option Request
  | [] => none
  | arg :: args =>
    if arg = "analyse".toList then r.readCommand? args
    else if arg = "--config".toList then
      match args with
      | value :: args =>
        if isOption value then none else (r.withSettings? value).bind (read? · args)
      | [] => none
    else (valueOf? "--config" arg).bind fun value => (r.withSettings? value).bind (read? · args)

end Draft

/-- What the program is asked for by arguments. -/
def ofArguments? (args : List Text) : Option Request := Draft.read? {} args

end Request

end HintCheck
