/-
**Reports.**

A rule reports what it finds in a file, finding by finding.  Where a comment of the file silences
the rule, a finding is counted all the same, but it gives no diagnostic.

Main definitions:

* `HintCheck.Finding` — a line and what is wrong there;
* `HintCheck.Report` — what a rule has reported of a file so far;
* `HintCheck.Report.add`, `HintCheck.Report.addAll` — one finding more, and several.

Main results:

* `HintCheck.Report.raised_addAll` — every finding is counted, whether it is silenced or not;
* `HintCheck.Report.diagnostics_addAll` — and it gives a diagnostic where nothing is silenced.
-/

import HintCheck.Declaration
import HintCheck.Report.Diagnostic

set_option relaxedAutoImplicit false
set_option autoImplicit false

namespace HintCheck

/-- A line and what is wrong there. -/
abbrev Finding := Nat × Text

/-- What a rule has reported of a file so far. -/
structure Report where
  path : Text
  /-- The lines of the file. -/
  lines : List Text
  suppressions : Suppressions
  /-- The name of the rule. -/
  code : Text
  severity : Severity
  /-- The number of findings, the silenced ones included. -/
  raised : Nat := 0
  /-- The diagnostics for the findings that are not silenced. -/
  diagnostics : List Diagnostic := []

namespace Report

/-- An empty report of a file. -/
def start (f : SourceFile) (code : Text) (severity : Severity) : Report :=
  { path := f.path, lines := f.lines, suppressions := f.suppressions, code, severity }

/-- One of the lines of a file, which are numbered from one. -/
def lineAt? (lines : List Text) : Nat → Option Text
  | 0 => none
  | n + 1 => lines[n]?

/-- The diagnostic for a finding. -/
def diagnostic (r : Report) (finding : Finding) : Diagnostic :=
  { file := r.path
    line := finding.1
    severity := r.severity
    code := r.code
    message := finding.2
    snippet := (lineAt? r.lines finding.1).map Text.trimEnd }

/-- Reports a finding. -/
def add (r : Report) (finding : Finding) : Report :=
  let raised := r.raised + 1
  if r.suppressions.silences r.code finding.1 then { r with raised }
  else { r with raised, diagnostics := r.diagnostics ++ [r.diagnostic finding] }

/-- Reports several findings, in order. -/
def addAll (r : Report) (findings : List Finding) : Report := findings.foldl add r

@[simp] theorem addAll_nil (r : Report) : r.addAll [] = r := rfl

theorem addAll_cons (r : Report) (finding : Finding) (findings : List Finding) :
    r.addAll (finding :: findings) = (r.add finding).addAll findings := rfl

@[simp] theorem raised_add (r : Report) (finding : Finding) :
    (r.add finding).raised = r.raised + 1 := by
  unfold add
  split <;> rfl

theorem raised_addAll (r : Report) (findings : List Finding) :
    (r.addAll findings).raised = r.raised + findings.length := by
  induction findings generalizing r with
  | nil => rfl
  | cons finding findings ih =>
      rw [addAll_cons, ih, raised_add, List.length_cons]
      omega

/-- Where nothing is silenced, a finding is counted and gives a diagnostic. -/
theorem add_of_none {r : Report} (h : r.suppressions = .none) (finding : Finding) :
    r.add finding =
      { r with
        raised := r.raised + 1
        diagnostics := r.diagnostics ++ [r.diagnostic finding] } := by
  rw [add, h]
  rfl

/-- Where nothing is silenced, every finding gives a diagnostic. -/
theorem diagnostics_addAll {r : Report} (h : r.suppressions = .none) (findings : List Finding) :
    (r.addAll findings).diagnostics = r.diagnostics ++ findings.map r.diagnostic := by
  induction findings generalizing r with
  | nil => simp
  | cons finding findings ih =>
      have hadd := add_of_none h finding
      have hkept : (r.add finding).suppressions = .none := by rw [hadd, h]
      -- a diagnostic does not depend on what was reported before it
      have hsame : (r.add finding).diagnostic = r.diagnostic := by rw [hadd]; rfl
      rw [addAll_cons, ih hkept, hsame, hadd, List.map_cons, List.append_assoc]
      rfl

end Report

end HintCheck
