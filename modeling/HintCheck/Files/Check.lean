/-
**Checking files on a disk.**

What is to be checked is named by a path or a pattern.  All files with code that are found make up
one project.  Its settings are those of a file in the deepest directory that holds everything,
unless another file is named.

Main definitions:

* `HintCheck.FileError` — what can go wrong, and the words for it;
* `HintCheck.Disk.targets` — the files and directories that are to be checked;
* `HintCheck.Disk.findSettings` — the file with the settings;
* `HintCheck.Disk.check` — the diagnostics of files.

Main results:

* `HintCheck.Disk.findSettings_some` — a file that is named wins.
-/

import HintCheck.Analysis
import HintCheck.Files.Glob
import HintCheck.Source.Harvest

set_option relaxedAutoImplicit false
set_option autoImplicit false

namespace HintCheck

/-- Why files could not be checked. -/
inductive FileError where
  /-- A path that leads nowhere. -/
  | inaccessible (p : Path)
  | invalidPattern (pattern : Text)
  /-- A pattern that matches nothing. -/
  | unmatched (pattern : Text)
  | unreadable (p : Path)
  | unreadableSettings (p : Path)
  /-- A file that does not hold settings. -/
  | malformedSettings (p : Path)
  deriving DecidableEq, Repr

/-- The words for an error. -/
def FileError.message : FileError → Text
  | inaccessible p => "failed to access ".toList ++ p
  | invalidPattern pattern => "invalid glob pattern \"".toList ++ pattern ++ ['"']
  | unmatched pattern => "no files matched \"".toList ++ pattern ++ ['"']
  | unreadable p => "failed to read ".toList ++ p
  | unreadableSettings p => "failed to read config ".toList ++ p
  | malformedSettings p => "failed to parse ".toList ++ p

namespace Disk

/-! ### What is to be checked -/

/-- The files and directories that a path or a pattern names, by their paths from the root. -/
def targets (d : Disk) (requested : Text) : Except FileError (List Path) :=
  if isGlob requested then
    match d.matching requested with
    | none => .error (.invalidPattern requested)
    | some [] => .error (.unmatched requested)
    | some places => .ok (Path.sorted (places.map Place.path))
  else
    match d.locate? requested with
    | some place => .ok [place.path]
    | none => .error (.inaccessible requested)

/-! ### Settings -/

/-- The names of files with settings; earlier ones win. -/
def settingsNames : List String := ["type_sniff.yaml", "type_sniff.yml"]

/-- The file with the settings: the one that is named, or else one in a directory. -/
def findSettings (d : Disk) (named : Option Path) (root : Path) : Option Path :=
  match named with
  | some p => some p
  | none => (settingsNames.map fun name => Path.join root name.toList).find? d.isFile

theorem findSettings_some (d : Disk) (p root : Path) : d.findSettings (some p) root = some p := rfl

/-- The settings in a file. -/
def readSettings (d : Disk) (p : Path) : Except FileError Settings :=
  match d.read? p with
  | none => .error (.unreadableSettings p)
  | some text =>
    match Settings.read? text with
    | some s => .ok s
    | none => .error (.malformedSettings p)

/-! ### Diagnostics -/

/-- A file with its declarations. -/
def readSource (d : Disk) (p : Path) : Except FileError SourceFile :=
  match d.read? p with
  | some text => .ok (SourceFile.ofSource p text)
  | none => .error (.unreadable p)

/-- The diagnostics of files that make up a project, in the order of their paths. -/
def check (d : Disk) (s : Settings) (ps : List Path) : Except FileError (List Diagnostic) := do
  let files ← ps.mapM d.readSource
  return checkFiles s (files.mergeSort fun f g => Path.le f.path g.path)

end Disk

end HintCheck
