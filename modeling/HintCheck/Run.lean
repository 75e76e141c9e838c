/-
**Runs of the program.**

A run finds the files that it was asked to check, checks them together and prints a report.  It
fails when anything is found.

Main definitions:

* `HintCheck.Run`, `HintCheck.Run.ofArguments` — how a run went;
* `HintCheck.Run.exitCode`, `HintCheck.Run.output`, `HintCheck.Run.complaint` — what is seen of it.

Main results:

* `HintCheck.Run.ofArguments_nil` — a run without arguments is refused;
* `HintCheck.Run.exitCode_checked` — a run in which nothing is found succeeds.
-/

import HintCheck.Files.Check
import HintCheck.Report.Summary
import HintCheck.Request

set_option relaxedAutoImplicit false
set_option autoImplicit false

namespace HintCheck

/-- How a run of the program went. -/
inductive Run where
  /-- The arguments make no request. -/
  | refused
  /-- Something could not be found or read; so many files were found before that. -/
  | failed (format : ReportFormat) (files : Option Nat) (e : FileError)
  /-- There are no files with code. -/
  | idle (root : Path)
  | checked (format : ReportFormat) (files : Nat) (ds : List Diagnostic)

/-- What is known before the files are looked for. -/
structure Session where
  targets : List Path
  /-- The deepest directory that holds the targets. -/
  root : Path
  settings : Settings

/-- Finds what is to be checked and reads the settings. -/
def Request.session (r : Request) (d : Disk) : Except FileError Session := do
  let targets ← d.targets r.target
  let root := Path.commonRoot d.isFile targets
  let settings ← match d.findSettings r.settings root with
    | some p => d.readSettings p
    | none => pure {}
  return { targets, root, settings }

/-- Checks the files of a session. -/
def Session.run (session : Session) (format : ReportFormat) (d : Disk) : Run :=
  match d.codeFilesOf session.targets with
  | [] => .idle session.root
  | files =>
    match d.check session.settings files with
    | .ok ds => .checked format files.length ds
    | .error e => .failed format files.length e

/-- Does what was asked for. -/
def Request.run (r : Request) (d : Disk) : Run :=
  match r.session d with
  | .ok session => session.run r.format d
  | .error e => .failed r.format none e

namespace Run

/-- The run with some arguments. -/
def ofArguments (d : Disk) (args : List Text) : Run :=
  match Request.ofArguments? args with
  | some r => r.run d
  | none => refused

theorem ofArguments_nil (d : Disk) : ofArguments d [] = refused := rfl

/-! ### What is seen of a run -/

/-- The exit code: zero for success. -/
def exitCode : Run → Nat
  | refused => 2
  | failed _ _ _ => 1
  | idle _ => 0
  | checked _ files ds => if (Summary.ofDiagnostics ds files).total = 0 then 0 else 1

/-- A run in which files are checked succeeds just when nothing is found. -/
theorem exitCode_checked (format : ReportFormat) (files : Nat) (ds : List Diagnostic) :
    (checked format files ds).exitCode = 0 ↔ ds = [] := by
  simp [exitCode]

/-- The line that tells how many files are checked. -/
def opening (format : ReportFormat) (files : Nat) : Text :=
  match format with
  | .text => "Checking ".toList ++ Text.ofNat files ++ " file(s)...\n".toList
  | .json => []

/-- What a run prints when it takes so many nanoseconds. -/
def output (nanoseconds : Nat) : Run → Text
  | refused => []
  | failed format files _ => (files.map (opening format)).getD []
  | idle _ => []
  | checked format files ds =>
    let s := Summary.ofDiagnostics ds files
    opening format files ++
      match format with
      | .text => s.render ds nanoseconds
      | .json => s.renderJson ds nanoseconds

/-- What a run prints apart from its output. -/
def complaint : Run → Text
  | refused => "usage: [--config FILE] analyse [--format text|json] PATH\n".toList
  | failed _ _ e => "Error: ".toList ++ e.message ++ ['\n']
  | idle root => "No PHP files found under ".toList ++ root ++ ['\n']
  | checked _ _ _ => []

end Run

end HintCheck
