/-
**Scalars, and maps and lists between brackets.**

The inline part of YAML: plain and quoted scalars, lists in square brackets and maps in braces.
Each reader gives the value and the text behind it.

Main definitions:

* `HintCheck.Yaml.readSingleQuoted`, `HintCheck.Yaml.readDoubleQuoted` — quoted scalars;
* `HintCheck.Yaml.scanPlain` — an unquoted scalar;
* `HintCheck.Yaml.readFlow` — any inline value.
-/

import HintCheck.Yaml.Basic

set_option relaxedAutoImplicit false
set_option autoImplicit false

namespace HintCheck

namespace Yaml

/-! ### White space and comments -/

/-- A space or a tab. -/
def isSpace (c : Char) : Bool := c == ' ' || c == '\t'

/-- A space, a tab or a line end. -/
def isGap (c : Char) : Bool := isSpace c || c == '\n'

/-- The text behind gaps and comments; a comment begins behind a gap. -/
def skipGaps (behindGap : Bool) : Text → Text
  | [] => []
  | c :: cs =>
    if isGap c then skipGaps true cs
    else if c == '#' && behindGap then skipComment cs
    else c :: cs
where
  skipComment : Text → Text
    | [] => []
    | c :: cs => if c == '\n' then skipGaps true cs else skipComment cs

/-- What a gap inside a scalar stands for: a single line end is a space, and more of them are one
line end less. -/
def foldGap (gap : Text) : Text :=
  match gap.count '\n' with
  | 0 => gap
  | 1 => [' ']
  | n + 2 => List.replicate (n + 1) '\n'

/-- A text in which every gap is folded; `gap` holds the gap that is being read, backwards. -/
def foldGaps (gap : Text) : Text → Text
  | [] => foldGap gap.reverse
  | c :: cs =>
    if isGap c then foldGaps (c :: gap) cs
    else foldGap gap.reverse ++ c :: foldGaps [] cs

/-! ### Quoted scalars -/

/-- The raw text up to the closing quotation mark, and what follows; two marks stand for one. -/
def readSingleQuoted : Text → Option (Text × Text)
  | [] => none
  | '\'' :: '\'' :: cs => (readSingleQuoted cs).map fun r => ('\'' :: r.1, r.2)
  | '\'' :: cs => some ([], cs)
  | c :: cs => (readSingleQuoted cs).map fun r => (c :: r.1, r.2)

/-- The character of a one-letter escape. -/
def escaped? (c : Char) : Option Char :=
  [('0', '\x00'), ('a', '\x07'), ('b', '\x08'), ('t', '\t'), ('\t', '\t'), ('n', '\n'),
   ('v', '\x0b'), ('f', '\x0c'), ('r', '\r'), ('e', '\x1b'), (' ', ' '), ('"', '"'), ('/', '/'),
   ('\\', '\\'), ('N', '\u0085'), ('_', '\u00a0'), ('L', '\u2028'), ('P', '\u2029')].lookup c

/-- The number of digits behind the letter of a numeric escape. -/
def escapeDigits? (c : Char) : Option Nat := [('x', 2), ('u', 4), ('U', 8)].lookup c

/-- The value of a hexadecimal digit. -/
def hexDigit? (c : Char) : Option Nat :=
  if c.isDigit then some (c.toNat - 48)
  else if 'a' ≤ c.toLower ∧ c.toLower ≤ 'f' then some (c.toLower.toNat - 87)
  else none

/-- The character of hexadecimal digits, if there is one. -/
def hexChar? (digits : Text) : Option Char := do
  let values ← digits.mapM hexDigit?
  let n := values.foldl (fun n d => 16 * n + d) 0
  if h : n.isValidChar then some (Char.ofNatAux n h) else none

/-- The text up to the closing quotation mark, and what follows.  `skip` characters belong to the
escape in front; `gap` is the gap that is being read, backwards. -/
def readDoubleFrom (skip : Nat) (gap : Text) : Text → Option (Text × Text)
  | [] => none
  | c :: cs =>
    match skip with
    | n + 1 => readDoubleFrom n gap cs
    | 0 =>
      if isGap c then readDoubleFrom 0 (c :: gap) cs
      else
        let before := foldGap gap.reverse
        if c == '"' then some (before, cs)
        else if c == '\\' then
          match cs with
          | [] => none
          | e :: more =>
            match escapeDigits? e with
            | some n =>
              if more.length < n then none
              else do
                let r ← readDoubleFrom (n + 1) [] cs
                let k ← hexChar? (more.take n)
                return (before ++ k :: r.1, r.2)
            | none => do
              let r ← readDoubleFrom 1 [] cs
              if e == '\n' then return (before ++ trimIndent r.1, r.2)
              let k ← escaped? e
              return (before ++ k :: r.1, r.2)
        else (readDoubleFrom 0 [] cs).map fun r => (before ++ c :: r.1, r.2)
where
  trimIndent (cs : Text) : Text := cs.dropWhile isSpace

/-- The text up to the closing quotation mark, and what follows. -/
def readDoubleQuoted (cs : Text) : Option (Text × Text) := readDoubleFrom 0 [] cs

/-! ### Plain scalars -/

/-- The signs between the parts of inline maps and lists. -/
def isFlowSign (c : Char) : Bool :=
  c == ',' || c == '[' || c == ']' || c == '\x7b' || c == '\x7d'

/-- Whether a plain scalar can begin here. -/
def beginsPlain (inFlow : Bool) : Text → Bool
  | [] => false
  | c :: cs =>
    if c == '-' || c == '?' || c == ':' then
      match cs with
      | [] => false
      | d :: _ => !isGap d && !(inFlow && isFlowSign d)
    else !(isGap c || isFlowSign c || "#&*!|>'\"%@\x60".toList.contains c)

/-- The text of a plain scalar and what follows: it ends in front of a colon before a gap, of a
comment, and inside brackets of their signs. -/
def scanPlain (inFlow behindGap : Bool) : Text → Text × Text
  | [] => ([], [])
  | c :: cs =>
    if c == ':' && cs.head?.all (fun d => isGap d || (inFlow && isFlowSign d)) then ([], c :: cs)
    else if c == '#' && behindGap then ([], c :: cs)
    else if inFlow && isFlowSign c then ([], c :: cs)
    else
      let r := scanPlain inFlow (isGap c) cs
      (c :: r.1, r.2)

/-- A plain scalar inside brackets and what follows. -/
def readFlowPlain (cs : Text) : Option (Yaml × Text) :=
  if beginsPlain true cs then
    let r := scanPlain true false cs
    some (scalar (foldGaps [] (Text.dropEndWhile isGap r.1)) true, r.2)
  else none

/-! ### Inline values -/

/-- Puts an item in front of a list that has been read. -/
def pushItem (v : Yaml) (r : List Yaml × Text) : List Yaml × Text := (v :: r.1, r.2)

/-- Puts an entry in front of a map that has been read. -/
def pushEntry (k v : Yaml) (r : List (Yaml × Yaml) × Text) : List (Yaml × Yaml) × Text :=
  ((k, v) :: r.1, r.2)

mutual

/-- The inline value at the beginning of a text, and what follows; `fuel` bounds the depth and the
length of the value. -/
def readFlow : Nat → Text → Option (Yaml × Text)
  | 0, _ => none
  | fuel + 1, cs =>
    match cs with
    | '[' :: rest => (readItems fuel (skipGaps true rest)).map fun r => (list r.1, r.2)
    | '\x7b' :: rest => (readEntries fuel (skipGaps true rest)).map fun r => (map r.1, r.2)
    | '\'' :: rest =>
      (readSingleQuoted rest).map fun r => (scalar (foldGaps [] r.1) false, r.2)
    | '"' :: rest => (readDoubleQuoted rest).map fun r => (scalar r.1 false, r.2)
    | _ => readFlowPlain cs

/-- The items up to the closing bracket, and what follows it. -/
def readItems : Nat → Text → Option (List Yaml × Text)
  | 0, _ => none
  | fuel + 1, cs =>
    match cs with
    | ']' :: rest => some ([], rest)
    | _ => do
      let (k, rest) ← readFlow fuel cs
      let (v, rest) ← readPair fuel k (skipGaps false rest)
      match skipGaps false rest with
      | ',' :: rest => (readItems fuel (skipGaps true rest)).map (pushItem v)
      | ']' :: rest => some ([v], rest)
      | _ => none

/-- The entries up to the closing brace, and what follows it. -/
def readEntries : Nat → Text → Option (List (Yaml × Yaml) × Text)
  | 0, _ => none
  | fuel + 1, cs =>
    match cs with
    | '\x7d' :: rest => some ([], rest)
    | _ => do
      let (k, rest) ← readFlow fuel cs
      let (v, rest) ← readFlowValue fuel (skipGaps false rest)
      match skipGaps false rest with
      | ',' :: rest => (readEntries fuel (skipGaps true rest)).map (pushEntry k v)
      | '\x7d' :: rest => some ([(k, v)], rest)
      | _ => none

/-- The value behind the colon of an entry; without a colon there is none. -/
def readFlowValue : Nat → Text → Option (Yaml × Text)
  | 0, _ => none
  | fuel + 1, cs =>
    match cs with
    | ':' :: rest =>
      match skipGaps false rest with
      | ',' :: more => some (absent, ',' :: more)
      | '\x7d' :: more => some (absent, '\x7d' :: more)
      | ']' :: more => some (absent, ']' :: more)
      | more => readFlow fuel more
    | _ => some (absent, cs)

/-- The item of a list whose first part has been read: a colon makes it a map of one entry. -/
def readPair : Nat → Yaml → Text → Option (Yaml × Text)
  | 0, _, _ => none
  | fuel + 1, k, cs =>
    match cs with
    | ':' :: _ => (readFlowValue fuel cs).map fun r => (map [(k, r.1)], r.2)
    | _ => some (k, cs)

end

end Yaml

end HintCheck
