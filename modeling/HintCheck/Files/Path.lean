/-
**Paths of files.**

A path is kept as it is written.  What it means is told by its components: empty pieces between
the slashes, and single dots behind the first component, do not count.

Main definitions:

* `HintCheck.Path.components` — what a path consists of;
* `HintCheck.Path.parent?` — the directory that a path is in;
* `HintCheck.Path.le` — the order of paths, component by component;
* `HintCheck.Path.isCode` — whether the name of a file is that of a file with code;
* `HintCheck.Path.commonRoot` — the deepest directory that several paths are in.

Main results:

* `HintCheck.Path.length_parent?` — a directory has a shorter path than what is in it;
* `HintCheck.Path.commonRoot_nil` — without paths the current directory is taken.
-/

import HintCheck.Text.Basic

set_option relaxedAutoImplicit false
set_option autoImplicit false

namespace HintCheck

/-- A path as it is written. -/
abbrev Path := Text

namespace Path

/-! ### Components -/

/-- A step of a path. -/
inductive Component where
  /-- From anywhere to the root. -/
  | root
  /-- To the same directory. -/
  | here
  /-- To the directory above. -/
  | up
  /-- To an entry of a directory. -/
  | name (text : Text)
  deriving DecidableEq, Repr

/-- The step that a piece between slashes stands for. -/
def ofPiece? (piece : Text) : Option Component :=
  if piece = [] ∨ piece = ['.'] then none
  else if piece = ['.', '.'] then some .up
  else some (.name piece)

/-- Whether a path begins with the current directory. -/
def startsHere (p : Path) : Bool := p.takeWhile (· != '/') == ['.']

/-- Whether a path begins at the root. -/
def isAbsolute (p : Path) : Bool := p.head? == some '/'

/-- The steps of a path. -/
def components (p : Path) : List Component :=
  (if isAbsolute p then [.root] else if startsHere p then [.here] else []) ++
    (Text.splitOn '/' p).filterMap ofPiece?

/-- Whether the first path leads to the second one, or to a directory that it is in. -/
def leadsTo (dir p : Path) : Bool := (components dir).isPrefixOf (components p)

/-! ### Parents -/

/-- A path that is written backwards, without the slashes and the pieces at its end that do not
count. -/
def dropIdle : Text → Text
  | [] => []
  | '/' :: rest => dropIdle rest
  | ['.'] => []
  | '.' :: '/' :: rest => dropIdle rest
  | rest => rest

theorem length_dropIdle_le (cs : Text) : (dropIdle cs).length ≤ cs.length := by
  fun_induction dropIdle cs with
  | case1 => simp
  | case2 rest ih => simp; omega
  | case3 => simp
  | case4 rest ih => simp; omega
  | case5 => simp

/-- The number of characters in front of the first piece. -/
def headLength (p : Path) : Nat := if isAbsolute p || startsHere p then 1 else 0

/-- The path without its last step, unless that is the root or there is none. -/
def parent? (p : Path) : Option Path :=
  match dropIdle (p.drop (headLength p)).reverse with
  | [] => if startsHere p then some [] else none
  | _ :: rest =>
    some (p.take (headLength p) ++ (dropIdle (rest.dropWhile (· != '/'))).reverse)

/-- A directory has a shorter path than what is in it. -/
theorem length_parent? {p q : Path} (h : parent? p = some q) : q.length < p.length := by
  unfold parent? at h
  have hle := length_dropIdle_le (p.drop (headLength p)).reverse
  split at h
  · split at h
    · next hs =>
      cases h
      cases p with
      | nil => simp [startsHere] at hs
      | cons c cs => simp
    · cases h
  · next c rest hr =>
    cases h
    have h₁ := length_dropIdle_le (rest.dropWhile (· != '/'))
    have h₂ := Text.length_dropWhile_le (· != '/') rest
    rw [hr] at hle
    simp at hle ⊢
    omega

/-! ### Names of files -/

/-- The name that a path ends with. -/
def fileName? (p : Path) : Option Text :=
  match (components p).getLast? with
  | some (.name text) => some text
  | _ => none

/-- What follows the last dot of a name, when something stands in front of that dot. -/
def extension? (p : Path) : Option Text := do
  let backwards := (← fileName? p).reverse
  match backwards.dropWhile (· != '.') with
  | _ :: _ :: _ => some (backwards.takeWhile (· != '.')).reverse
  | _ => none

/-- Whether the name of a file is that of a file with code. -/
def isCode (p : Path) : Bool := (extension? p).any fun ext => Text.sameLetters ext "php".toList

/-- The path of an entry of a directory. -/
def join (dir : Path) (p : Path) : Path :=
  if isAbsolute p || dir.isEmpty then p
  else if dir.getLast? = some '/' then dir ++ p
  else dir ++ '/' :: p

/-! ### Order -/

/-- The place of a step among all steps. -/
def Component.key : Component → List Nat
  | .root => [0]
  | .here => [1]
  | .up => [2]
  | .name text => 3 :: text.map Char.toNat

/-- The place of a path among all paths. -/
def key (p : Path) : List (List Nat) := (components p).map Component.key

/-- The order of paths, component by component. -/
def le (p q : Path) : Bool := (compare (key p) (key q)).isLE

/-- The paths that are not the same as the path in front of them, behind a path. -/
def dropRepeatedAfter (last : Path) : List Path → List Path
  | [] => []
  | p :: ps =>
    if components last = components p then dropRepeatedAfter last ps
    else p :: dropRepeatedAfter p ps

/-- The paths that are not the same as the path in front of them. -/
def dropRepeated : List Path → List Path
  | [] => []
  | p :: ps => p :: dropRepeatedAfter p ps

/-- The paths in order, each of them once. -/
def sorted (ps : List Path) : List Path := dropRepeated (ps.mergeSort le)

/-! ### The deepest common directory -/

/-- The directory of a path: a file is in its parent. -/
def directoryOf (isFile : Path → Bool) (p : Path) : Path :=
  match parent? p with
  | some dir => if isFile p then dir else p
  | none => p

/-- The deepest directory above a root that leads to a path. -/
def retreat (p root : Path) : Path :=
  if leadsTo root p then root
  else
    match _ : parent? root with
    | some dir => retreat p dir
    | none => root
termination_by root.length
decreasing_by exact length_parent? (by assumption)

/-- The deepest directory that several paths are in. -/
def commonRoot (isFile : Path → Bool) (ps : List Path) : Path :=
  match ps.map (directoryOf isFile) with
  | [] => ['.']
  | dir :: dirs => dirs.foldl (fun root d => retreat d root) dir

theorem commonRoot_nil (isFile : Path → Bool) : commonRoot isFile [] = ['.'] := rfl

end Path

/-- Whether a text asks for the files that match it. -/
def isGlob (pattern : Text) : Bool := pattern.any fun c => "*?[]\x7b\x7d".toList.contains c

end HintCheck
