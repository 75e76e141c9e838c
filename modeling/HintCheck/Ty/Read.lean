/-
**Reading types.**

One grammar serves declarations and documentation: alternatives between bars, a leading `?`, pairs
of square brackets at the end, parentheses, quoted literals and numbers, and names with parameters
in angle brackets.  Reading never fails: a name that is no keyword is a class, and an empty text is
no type.

Main definitions:

* `HintCheck.Ty.read` — the type that a text spells;
* `HintCheck.Ty.readMember` — the type of one alternative;
* `HintCheck.Ty.readBase` — the type of an alternative without `?` and array brackets.

Main results:

* `HintCheck.Ty.length_arrayMarks_le`, `HintCheck.Ty.length_of_named?` — each step of the reader
  goes to a shorter text.
-/

import HintCheck.Text.Brackets
import HintCheck.Text.Numeral
import HintCheck.Ty.Keyword

set_option relaxedAutoImplicit false
set_option autoImplicit false

namespace HintCheck

namespace Ty

open Text

/-! ### The parts of one alternative -/

/-- The pairs of brackets at the start of a text that is written backwards, with the blanks behind
each of them left out. -/
def leadingMarks : Text → Text × Nat
  | ']' :: '[' :: cs =>
    let r := leadingMarks (cs.dropWhile isBlank)
    (r.1, r.2 + 1)
  | cs => (cs, 0)
termination_by cs => cs.length
decreasing_by
  have := length_dropWhile_le isBlank cs
  simp
  omega

theorem length_leadingMarks_le (cs : Text) : (leadingMarks cs).1.length ≤ cs.length := by
  fun_induction leadingMarks cs with
  | case1 cs r ih =>
    have := length_dropWhile_le isBlank cs
    exact Nat.le_trans ih (by simp; omega)
  | case2 => simp

/-- A text without the pairs of brackets at its end, and their number. -/
def arrayMarks (cs : Text) : Text × Nat :=
  let r := leadingMarks cs.reverse
  (r.1.reverse, r.2)

theorem length_arrayMarks_le (cs : Text) : (arrayMarks cs).1.length ≤ cs.length := by
  simpa [arrayMarks] using length_leadingMarks_le cs.reverse

/-- The inside of parentheses that enclose the whole text. -/
def parenthesized? : Text → Option Text
  | '(' :: cs =>
    match untilClosed 0 cs with
    | some (inside, []) => some inside
    | _ => none
  | _ => none

theorem length_of_parenthesized? {cs inside : Text} (h : parenthesized? cs = some inside) :
    inside.length < cs.length := by
  unfold parenthesized? at h
  split at h
  · next cs =>
    split at h
    · next i hi =>
      cases h
      have := length_of_untilClosed hi
      simp at this ⊢
      omega
    · cases h
  · cases h

/-- The type of a numeric literal. -/
def numeral? (cs : Text) : Option Ty :=
  let digits := match cs with
    | '-' :: rest => rest
    | _ => cs
  match digits with
  | [] => none
  | c :: _ =>
    if !c.isDigit then none
    else if isInt64 digits then some (atom .int)
    else if isDecimal digits then some (atom .float)
    else none

/-- Whether a character can open the part behind a name. -/
def opensPart (c : Char) : Bool := c == '<' || c == '{' || c == '('

/-- A name with a bracket behind it: the name, the bracket and what follows the bracket. -/
def named? (cs : Text) : Option (Text × Char × Text) :=
  match trim? (cs.takeWhile (!opensPart ·)), cs.dropWhile (!opensPart ·) with
  | some name, bracket :: tail => some (name, bracket, tail)
  | _, _ => none

theorem length_of_named? {cs name tail : Text} {bracket : Char}
    (h : named? cs = some (name, bracket, tail)) : tail.length < cs.length := by
  unfold named? at h
  split at h
  · next hd =>
    cases h
    have := length_dropWhile_le (!opensPart ·) cs
    rw [hd] at this
    exact Nat.lt_of_lt_of_le (by simp) this
  · cases h

/-- The containers whose last parameter is the type of their values. -/
def isArrayLike (name : Text) : Bool :=
  ["array", "iterable", "list", "non-empty-array", "non-empty-list"].any
    fun k => k.toList == lower name

/-- The type of the values of a container.  One pair of angle brackets stands for one array level,
so that a parameter with brackets of its own says nothing more. -/
def valueType (params : List (Text × Ty)) : Ty :=
  match params.getLast? with
  | some (raw, t) => if raw.contains '<' || !t.isDefined then atom .mixed else t
  | none => atom .mixed

/-- The type of a name with parameters in angle brackets, each given as text and as type.  A keyword
keeps its meaning, whatever its parameters say. -/
def ofParams (name : Text) (params : List (Text × Ty)) : Ty :=
  if isArrayLike name then arrayOf (valueType params) 1
  else match keyword name with
    | some (atom .array) => generic name (params.map (·.2))
    | some t => t
    | none => generic name (params.map (·.2))

/-- The type of a name with a description of its fields. -/
def ofShape (base name : Text) : Ty :=
  if ["array", "list", "non-empty-array", "non-empty-list"].any (·.toList == lower name) then
    arrayOf (atom .mixed) 1
  else if lower name = "object".toList then atom .object
  else named base

/-- The type of a name with parameters in parentheses. -/
def ofCallable (name : Text) : Ty :=
  if sameLetters name "callable".toList then atom .callable else named name

/-- The type of several alternatives; a single one keeps its short form. -/
def ofAlternatives : List Ty → Ty
  | [t] => t
  | ts => unionOf ts

/-! ### The reader -/

mutual

/-- The type that a text spells. -/
def read (cs : Text) : Ty :=
  ofAlternatives ((splitTop '|' (trim cs)).attach.map fun part => readMember part.1)
termination_by (cs.length, 2)
decreasing_by
  have := length_le_of_mem_splitTop part.2
  have := length_trim_le cs
  simp only [Prod.lex_def]
  omega

/-- The type of one alternative. -/
def readMember (cs : Text) : Ty :=
  match _h : trim cs with
  | [] => undefined
  | '?' :: rest => nullable (readMember rest)
  | c :: rest =>
    match _hb : (arrayMarks (c :: rest)).1 with
    | [] => undefined
    | b :: base =>
      match readBase (b :: base) with
      | undefined => undefined
      | element => arrayOf element (arrayMarks (c :: rest)).2
termination_by (cs.length, 1)
decreasing_by
  -- the question mark is gone
  · have := length_trim_le cs
    rw [_h] at this
    simp only [List.length_cons] at this
    simp only [Prod.lex_def]
    omega
  -- the base is no longer than the alternative
  · have h₁ := length_trim_le cs
    have h₂ := length_arrayMarks_le (c :: rest)
    rw [_h] at h₁
    rw [_hb] at h₂
    simp only [Prod.lex_def]
    omega

/-- The type of an alternative that has neither a `?` in front nor array brackets at its end. -/
def readBase (base : Text) : Ty :=
  match _h : parenthesized? base with
  | some inside => read inside
  | none =>
    if isQuoted base then atom .string
    else match numeral? base with
      | some t => t
      | none =>
        match _hn : named? base with
        | some (name, '<', tail) =>
          match _hc : untilClosed 0 tail with
          | some (inside, _) =>
            ofParams name ((splitTop ',' inside).attach.map fun part => (part.1, read part.1))
          | none => named base
        | some (name, '{', _) => ofShape base name
        | some (name, _, _) => ofCallable name
        | none => (keyword base).getD (named base)
termination_by (base.length, 0)
decreasing_by
  -- the parentheses are gone
  · have := length_of_parenthesized? _h
    simp only [Prod.lex_def]
    omega
  -- a parameter is a piece of what stands between the angle brackets
  · have h₁ := length_of_named? _hn
    have h₂ := length_of_untilClosed _hc
    have h₃ := length_le_of_mem_splitTop part.2
    simp only [Prod.lex_def]
    omega

end

/-! ### The equations of the reader -/

theorem read_eq (cs : Text) :
    read cs = ofAlternatives ((splitTop '|' (trim cs)).map readMember) := by
  rw [read]
  simp

theorem readMember_of_trim_nil {cs : Text} (h : trim cs = []) : readMember cs = undefined := by
  rw [readMember]
  split <;> simp_all

theorem readMember_of_trim_optional {cs rest : Text} (h : trim cs = '?' :: rest) :
    readMember cs = nullable (readMember rest) := by
  rw [readMember]
  split <;> simp_all

/-- The type of an alternative without a `?` in front of it. -/
theorem readMember_of_trim {cs : Text} {c : Char} {rest : Text} (h : trim cs = c :: rest)
    (hc : c ≠ '?') :
    readMember cs = match (arrayMarks (c :: rest)).1 with
      | [] => undefined
      | base => match readBase base with
        | undefined => undefined
        | element => arrayOf element (arrayMarks (c :: rest)).2 := by
  rw [readMember]
  split
  · simp_all
  · next h' =>
    rw [h] at h'
    cases h'
    exact absurd rfl hc
  · next c' rest' _ h' =>
    rw [h] at h'
    cases h'
    split
    · next hb => simp [hb]
    · next hb => simp [hb]

theorem readBase_of_parenthesized {base inside : Text} (h : parenthesized? base = some inside) :
    readBase base = read inside := by
  rw [readBase]
  split <;> simp_all

/-- The type of an alternative without enclosing parentheses. -/
theorem readBase_of_not_parenthesized {base : Text} (h : parenthesized? base = none) :
    readBase base =
      if isQuoted base then atom .string
      else match numeral? base with
        | some t => t
        | none => match named? base with
          | some (name, '<', tail) => match untilClosed 0 tail with
            | some (inside, _) =>
              ofParams name ((splitTop ',' inside).map fun part => (part, read part))
            | none => named base
          | some (name, '{', _) => ofShape base name
          | some (name, _, _) => ofCallable name
          | none => (keyword base).getD (named base) := by
  rw [readBase]
  split
  · simp_all
  · congr 1
    split
    · rfl
    · split
      · next hn =>
        simp only [hn]
        split
        · next hc => simp [hc]
        · next hc => simp [hc]
      · next hn => simp only [hn]
      · next hn => simp_all
      · next hn => simp only [hn]

end Ty

end HintCheck
