/-
**The analysis of files.**

All rules that are on are run on every file.  The diagnostics of a file are sorted by line, and
those of one line keep the order of the rules.

Main definitions:

* `HintCheck.Rule.all` — the rules under some settings, in order;
* `HintCheck.checkFile` — the diagnostics of a file;
* `HintCheck.checkFiles` — the diagnostics of files that make up a project.

Main results:

* `HintCheck.checkFile_of_silenced` — a file that silences everything has no diagnostics.
-/

import HintCheck.Rule.Constant
import HintCheck.Rule.Description
import HintCheck.Rule.Iterator
import HintCheck.Rule.Method
import HintCheck.Rule.Property

set_option relaxedAutoImplicit false
set_option autoImplicit false

namespace HintCheck

/-- The rules under some settings, in the order in which they are run. -/
def Rule.all (s : Settings) : List Rule :=
  [.method s.method s.useIndex, .property, .constant, .description s.classTags,
    .iterator s.iteratorSeverity]

/-- The diagnostics sorted by line; those of one line keep their order. -/
def sortByLine (ds : List Diagnostic) : List Diagnostic := ds.mergeSort fun a b => a.line ≤ b.line

/-- The diagnostics of a file. -/
def checkFile (s : Settings) (x : ClassIndex) (f : SourceFile) : List Diagnostic :=
  if f.suppressions.silencesEverything then []
  else sortByLine (((Rule.all s).filter fun r => s.enabled r.name).flatMap fun r => r.run f x)

theorem checkFile_of_silenced (s : Settings) (x : ClassIndex) (f : SourceFile)
    (h : f.suppressions.silencesEverything = true) : checkFile s x f = [] := by
  simp [checkFile, h]

/-- The diagnostics of files that make up a project, file by file. -/
def checkFiles (s : Settings) (fs : List SourceFile) : List Diagnostic :=
  fs.flatMap (checkFile s (.ofFiles fs))

end HintCheck
