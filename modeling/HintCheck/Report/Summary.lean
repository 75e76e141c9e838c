/-
**Reports of a run.**

A run ends with the diagnostics that were found and with some counts, either for a reader or in
JSON.

Main definitions:

* `HintCheck.Summary`, `HintCheck.Summary.ofDiagnostics` — the counts;
* `HintCheck.Summary.render` — the report for a reader;
* `HintCheck.Summary.renderJson` — the report in JSON.

Main results:

* `HintCheck.Summary.total_ofDiagnostics` — every diagnostic is counted.
-/

import HintCheck.Report.Diagnostic
import HintCheck.Report.Json

set_option relaxedAutoImplicit false
set_option autoImplicit false

namespace HintCheck

/-- The counts of a run. -/
structure Summary where
  files : Nat
  errors : Nat
  warnings : Nat
  /-- The number of diagnostics of any severity. -/
  total : Nat
  deriving DecidableEq, Repr

namespace Summary

/-- The number of diagnostics of a severity. -/
def countOf (severity : Severity) (ds : List Diagnostic) : Nat :=
  ds.countP fun d => d.severity == severity

/-- The counts for files and what was found in them. -/
def ofDiagnostics (ds : List Diagnostic) (files : Nat) : Summary :=
  { files
    errors := countOf .error ds
    warnings := countOf .warning ds
    total := ds.length }

@[simp] theorem total_ofDiagnostics (ds : List Diagnostic) (files : Nat) :
    (ofDiagnostics ds files).total = ds.length := rfl

/-! ### Seconds -/

/-- Nanoseconds in seconds with two places, rounded to the nearest one. -/
def shortSeconds (nanoseconds : Nat) : Text :=
  let hundredths := (nanoseconds + 5000000) / 10000000
  Text.ofNat (hundredths / 100) ++ '.' :: (Text.ofNat (hundredths % 100)).leftpad 2 '0'

/-- Nanoseconds in seconds with as many places as they need, but at least one. -/
def exactSeconds (nanoseconds : Nat) : Text :=
  let places := (Text.ofNat (nanoseconds % 1000000000)).leftpad 9 '0'
  let needed := Text.dropEndWhile (· == '0') places
  Text.ofNat (nanoseconds / 1000000000) ++ '.' :: (if needed.isEmpty then ['0'] else needed)

/-! ### For a reader -/

/-- The line of the counts. -/
def statsLine (s : Summary) (nanoseconds : Nat) : Text :=
  "Stats ▸ ".toList ++ Text.ofNat s.files ++ " file(s) | ".toList ++ Text.ofNat s.errors ++
    " error(s), ".toList ++ Text.ofNat s.warnings ++ " warning(s) | ".toList ++
    shortSeconds nanoseconds ++ "s\n".toList

/-- The line in place of diagnostics when there are none. -/
def cleanLine (s : Summary) : Text :=
  "Analysis complete ▸ ".toList ++ Text.ofNat s.files ++
    " PHP file(s), no diagnostics emitted.\n".toList

/-- The report for a reader. -/
def render (s : Summary) (ds : List Diagnostic) (nanoseconds : Nat) : Text :=
  (if ds.isEmpty then s.cleanLine else ds.flatMap fun d => d.render ++ ['\n']) ++
    s.statsLine nanoseconds

/-! ### JSON -/

/-- A diagnostic in JSON, within so many other values. -/
def diagnosticJson (depth : Nat) (d : Diagnostic) : Text :=
  JsonText.record depth
    [("file", JsonText.quote d.file), ("line", Text.ofNat d.line),
     ("severity", JsonText.quote d.severity.text), ("code", JsonText.quote d.code),
     ("message", JsonText.quote d.message)]

/-- The report in JSON. -/
def renderJson (s : Summary) (ds : List Diagnostic) (nanoseconds : Nat) : Text :=
  JsonText.record 0
    [("diagnostics", JsonText.list 1 (ds.map (diagnosticJson 2))),
     ("stats", JsonText.record 1
       [("files", Text.ofNat s.files), ("errors", Text.ofNat s.errors),
        ("warnings", Text.ofNat s.warnings), ("duration_seconds", exactSeconds nanoseconds)])] ++
    ['\n']

end Summary

end HintCheck
