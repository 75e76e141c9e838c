/-
**Patterns for paths.**

The parts of a pattern between its slashes are matched with the names on the way to a place.  A
question mark stands for any character, an asterisk for any number of them, and a list in square
brackets for one of its characters; two asterisks that are a part of their own stand for any
number of directories.

Main definitions:

* `HintCheck.Glob.Sign`, `HintCheck.Glob.matchesName` — one part, and the names that it matches;
* `HintCheck.Glob.read?` — the parts of a pattern;
* `HintCheck.Disk.matching` — the places that match a pattern.

Main results:

* `HintCheck.Glob.matchesName_characters` — plain characters match just themselves.
-/

import HintCheck.Files.Disk

set_option relaxedAutoImplicit false
set_option autoImplicit false

namespace HintCheck

namespace Glob

/-! ### One part -/

/-- A sign of a pattern. -/
inductive Sign where
  | character (c : Char)
  /-- Any character. -/
  | any
  /-- Any number of characters. -/
  | sequence
  /-- A character of some ranges, or one that is in none of them. -/
  | within (ranges : List (Char × Char)) (excluded : Bool)
  deriving DecidableEq, Repr

/-- Whether a sign stands for a character. -/
def Sign.accepts (c : Char) : Sign → Bool
  | .character other => c == other
  | .any => true
  | .sequence => false
  | .within ranges excluded => (ranges.any fun r => r.1 ≤ c && c ≤ r.2) != excluded

/-- Whether signs match a name. -/
def matchesName : List Sign → Text → Bool
  | [], cs => cs.isEmpty
  | .sequence :: signs, [] => matchesName signs []
  | .sequence :: signs, c :: cs =>
    matchesName signs (c :: cs) || matchesName (.sequence :: signs) cs
  | _ :: _, [] => false
  | sign :: signs, c :: cs => sign.accepts c && matchesName signs cs
termination_by signs cs => signs.length + cs.length

/-- Plain characters match just themselves. -/
theorem matchesName_characters (name cs : Text) :
    matchesName (name.map Sign.character) cs = (cs == name) := by
  induction name generalizing cs with
  | nil => cases cs <;> simp [matchesName]
  | cons c name ih =>
    cases cs with
    | nil => simp [matchesName]
    | cons k cs => simp [matchesName, Sign.accepts, ih]

/-- The text of signs that are all plain characters. -/
def plain? : List Sign → Option Text
  | [] => some []
  | .character c :: signs => (plain? signs).map (c :: ·)
  | _ :: _ => none

/-- The ranges of a list in square brackets. -/
def ranges : Text → List (Char × Char)
  | first :: '-' :: last :: cs => (first, last) :: ranges cs
  | c :: cs => (c, c) :: ranges cs
  | [] => []

/-- The list in square brackets that a text goes on with, and what is behind its end.  The first
character never ends it. -/
def readList? (cs : Text) : Option (Sign × Text) :=
  let excluded := cs.head? == some '!'
  match if excluded then cs.drop 1 else cs with
  | first :: rest =>
    match rest.dropWhile (· != ']') with
    | _ :: behind => some (.within (ranges (first :: rest.takeWhile (· != ']'))) excluded, behind)
    | [] => none
  | [] => none

theorem length_readList? {cs behind : Text} {sign : Sign} (h : readList? cs = some (sign, behind)) :
    behind.length < cs.length := by
  have hd : (if cs.head? == some '!' then cs.drop 1 else cs).length ≤ cs.length := by
    split <;> simp
  unfold readList? at h
  simp only at h
  split at h
  · next first rest hr =>
    have hw := Text.length_dropWhile_le (· != ']') rest
    split at h
    · next k more hm =>
      cases h
      rw [hr] at hd
      rw [hm] at hw
      simp only [List.length_cons] at hd hw
      omega
    · cases h
  · cases h

/-- The signs of a part; two asterisks in a row are refused, and brackets that do not end. -/
def readSigns? : Text → Option (List Sign)
  | [] => some []
  | '*' :: '*' :: _ => none
  | '*' :: cs => (readSigns? cs).map (.sequence :: ·)
  | '?' :: cs => (readSigns? cs).map (.any :: ·)
  | '[' :: cs =>
    match _ : readList? cs with
    | some (sign, behind) => (readSigns? behind).map (sign :: ·)
    | none => none
  | c :: cs => (readSigns? cs).map (.character c :: ·)
termination_by cs => cs.length
decreasing_by
  · simp
  · simp
  · have := length_readList? (by assumption)
    simp
    omega
  · simp

/-! ### Patterns -/

/-- A part of a pattern. -/
inductive Part where
  /-- Any number of directories. -/
  | directories
  | name (signs : List Sign)
  deriving DecidableEq, Repr

/-- The part that a text between slashes spells. -/
def readPart? (cs : Text) : Option Part :=
  if cs = ['*', '*'] then some .directories else (readSigns? cs).map .name

/-- Whether a pattern asks for directories only. -/
def asksDirectory (pattern : Text) : Bool := pattern.getLast? == some '/'

/-- The parts of a pattern, without the slash of the root. -/
def read? (pattern : Text) : Option (List Part) :=
  let relative := if Path.isAbsolute pattern then pattern.drop 1 else pattern
  -- a slash at the end adds no part
  let pieces := Text.splitOn '/' relative
  (if pieces.getLast? == some [] then pieces.dropLast else pieces).mapM readPart?

end Glob

/-! ### Matching places -/

namespace Disk

open Glob

/-- Where a plain name leads to from a directory. -/
def step (d : Disk) (place : Place) (name : Text) : List Place :=
  if d.isDirectoryAt place then
    if name = [] ∨ name = ['.'] then [place]
    else if name = ['.', '.'] then [place.dropLast]
    else [place ++ [name]].filter fun p => d.isFileAt p || d.isDirectoryAt p
  else []

/-- The entries of a directory whose names match signs. -/
def entriesMatching (d : Disk) (signs : List Sign) (place : Place) : List Place :=
  ((d.namesIn place).filter (matchesName signs)).map fun name => place ++ [name]

/-- The directory itself and the one above it, as far as signs that begin with a dot match their
short names. -/
def dotsMatching (d : Disk) (signs : List Sign) (place : Place) : List Place :=
  if signs.head? = some (.character '.') ∧ d.isDirectoryAt place then
    (if matchesName signs ['.'] then [place] else []) ++
      (if matchesName signs ['.', '.'] then [place.dropLast] else [])
  else []

/-- The directories below a place. -/
def directoriesBelow (d : Disk) (place : Place) : List Place :=
  let above (names : List Text) :=
    (List.range (names.length + 1)).map fun n => place ++ names.take n
  (d.places.flatMap fun other => above ((below? place other).getD [])).eraseDups.filter fun p =>
    p != place && d.isDirectoryAt p

/-- The places that the parts of a pattern lead to from a place. -/
def matchingFrom (d : Disk) (place : Place) : List Part → List Place
  | [] => [place]
  | .name signs :: parts =>
    -- a plain name is followed, and only others are looked for among the entries
    (match plain? signs with
      | some name => d.step place name
      | none => d.entriesMatching signs place ++ d.dotsMatching signs place).flatMap fun p =>
        d.matchingFrom p parts
  | .directories :: [] => d.directoriesBelow place
  | .directories :: .directories :: parts => d.matchingFrom place (.directories :: parts)
  | .directories :: .name signs :: parts =>
    ((place :: d.directoriesBelow place).flatMap (d.entriesMatching signs)).flatMap fun p =>
      d.matchingFrom p parts

/-- The places that match a pattern, or nothing when it is malformed. -/
def matching (d : Disk) (pattern : Text) : Option (List Place) :=
  (Glob.read? pattern).map fun parts =>
    (d.matchingFrom (if Path.isAbsolute pattern then [] else d.current) parts).filter fun p =>
      !asksDirectory pattern || d.isDirectoryAt p

end Disk

end HintCheck
