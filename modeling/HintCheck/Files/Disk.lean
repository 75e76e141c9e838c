/-
**Files and directories.**

A disk holds files at places; a place is the list of the names that lead to it from the root.  The
directories are the places above files, and some that are empty.  Paths are followed from the
current directory.

Main definitions:

* `HintCheck.Disk` — the files and directories;
* `HintCheck.Disk.locate?` — the place that a path leads to;
* `HintCheck.Disk.codeFiles` — the files with code below a path;
* `HintCheck.Disk.codeFilesOf` — the files with code below several paths.

Main results:

* `HintCheck.Disk.isCode_of_mem_codeFiles` — only files with code are found.
-/

import HintCheck.Files.Path

set_option relaxedAutoImplicit false
set_option autoImplicit false

namespace HintCheck

/-- The names that lead from the root to a file or a directory. -/
abbrev Place := List Text

/-- The path of a place from the root. -/
def Place.path : Place → Path
  | [] => ['/']
  | names => names.flatMap fun name => '/' :: name

/-- Files and directories. -/
structure Disk where
  /-- The files, and their texts as far as they can be read. -/
  files : List (Place × Option Text)
  /-- Directories, whether files are below them or not. -/
  folders : List Place
  /-- The current directory. -/
  current : Place

namespace Disk

/-! ### What is at a place -/

/-- The text of the file at a place. -/
def contentAt? (d : Disk) (place : Place) : Option (Option Text) :=
  (d.files.find? (·.1 == place)).map (·.2)

/-- Whether a file is at a place. -/
def isFileAt (d : Disk) (place : Place) : Bool := (d.contentAt? place).isSome

/-- What leads from a place to something below it. -/
def below? (place other : Place) : Option Place :=
  match place.isPrefixOf? other with
  | some (name :: names) => some (name :: names)
  | _ => none

/-- All places that are known, apart from those above them. -/
def places (d : Disk) : List Place := d.files.map (·.1) ++ d.current :: d.folders

/-- Whether a directory is at a place. -/
def isDirectoryAt (d : Disk) (place : Place) : Bool :=
  place.isEmpty || (d.current :: d.folders).contains place ||
    d.places.any fun other => (below? place other).isSome

/-- The names of what is right in a directory. -/
def namesIn (d : Disk) (place : Place) : List Text :=
  (d.places.filterMap fun other => (below? place other).bind (·.head?)).eraseDups

/-- What leads to the files below a directory. -/
def filesBelow (d : Disk) (place : Place) : List Place :=
  d.files.filterMap fun f => below? place f.1

/-! ### Following paths -/

/-- Where steps lead to from a place. -/
def follow (d : Disk) (place : Place) : List Path.Component → Option Place
  | [] => some place
  | .root :: steps => d.follow [] steps
  | .here :: steps => d.follow place steps
  | .up :: steps => if d.isDirectoryAt place then d.follow place.dropLast steps else none
  | .name text :: steps =>
    if d.isFileAt (place ++ [text]) || d.isDirectoryAt (place ++ [text]) then
      d.follow (place ++ [text]) steps
    else none

/-- The place that a path leads to.  A path that ends with a slash leads to directories only. -/
def locate? (d : Disk) (p : Path) : Option Place :=
  match p with
  | [] => none
  | _ =>
    let piecesOnly := Path.dropIdle (p.drop (Path.headLength p)).reverse
    (d.follow d.current (Path.components p)).filter fun place =>
      d.isDirectoryAt place || piecesOnly.length + Path.headLength p == p.length

/-- Whether a path leads to a file. -/
def isFile (d : Disk) (p : Path) : Bool := (d.locate? p).any d.isFileAt

/-- The text of the file that a path leads to. -/
def read? (d : Disk) (p : Path) : Option Text := do
  let content ← d.contentAt? (← d.locate? p)
  content

/-! ### Files with code -/

/-- The files with code at a path or below it, in order. -/
def codeFiles (d : Disk) (root : Path) : List Path :=
  match d.locate? root with
  | none => []
  | some place =>
    let found :=
      if d.isFileAt place then [root]
      else (d.filesBelow place).map fun names => names.foldl Path.join root
    (found.filter Path.isCode).mergeSort Path.le

/-- The files with code at several paths or below them, in order and each of them once. -/
def codeFilesOf (d : Disk) (roots : List Path) : List Path :=
  Path.sorted (roots.flatMap d.codeFiles)

/-- Only files with code are found. -/
theorem isCode_of_mem_codeFiles {d : Disk} {root p : Path} (h : p ∈ d.codeFiles root) :
    Path.isCode p = true := by
  unfold codeFiles at h
  split at h
  · simp at h
  · exact (List.mem_filter.1 (List.mem_mergeSort.1 h)).2

end Disk

end HintCheck
