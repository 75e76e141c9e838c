/-
**Text as a list of characters.**

Everything this library reads or writes is a `HintCheck.Text`, a list of characters: readers
recurse on it and printers append to it.  This module holds the operations on texts that the
readers share.  "Blank" means the Unicode property White_Space.

Main definitions:

* `HintCheck.Text.isBlank`, `HintCheck.Text.trim` — white space and its removal at both ends;
* `HintCheck.Text.dropPrefix?`, `HintCheck.Text.dropSuffix?` — removal of a known beginning or end;
* `HintCheck.Text.splitOn`, `HintCheck.Text.lines` — the pieces of a text;
* `HintCheck.Text.sameLetters` — equality without regard to the case of ASCII letters;
* `HintCheck.Text.replaceAll` — substitution of a text by another one.

Main results:

* `HintCheck.Text.isBlank_of_isWhitespace` — the ASCII white space is blank;
* `HintCheck.Text.intercalate_splitOn` — nothing is lost when a text is split;
* `HintCheck.Text.length_trim_le` — trimming does not make a text longer.
-/

set_option relaxedAutoImplicit false
set_option autoImplicit false

namespace HintCheck

/-- A text, character by character. -/
abbrev Text := List Char

namespace Text

/-! ### White space -/

/-- The Unicode property White_Space. -/
def isBlank (c : Char) : Bool :=
  let n := c.toNat
  (9 ≤ n && n ≤ 13) || n == 0x20 || n == 0x85 || n == 0xA0 || n == 0x1680 ||
    (0x2000 ≤ n && n ≤ 0x200A) || n == 0x2028 || n == 0x2029 || n == 0x202F || n == 0x205F ||
    n == 0x3000

theorem isBlank_of_isWhitespace {c : Char} (h : c.isWhitespace = true) : isBlank c = true := by
  simp only [Char.isWhitespace, Bool.or_eq_true, decide_eq_true_eq] at h
  rcases h with ((rfl | rfl) | rfl) | rfl <;> decide

/-- A text without the blanks at its beginning. -/
def trimStart (cs : Text) : Text := cs.dropWhile isBlank

/-- A text without the characters of a class at its end. -/
def dropEndWhile (p : Char → Bool) (cs : Text) : Text := (cs.reverse.dropWhile p).reverse

/-- A text without the blanks at its end. -/
def trimEnd (cs : Text) : Text := dropEndWhile isBlank cs

/-- A text without the blanks at both ends. -/
def trim (cs : Text) : Text := trimEnd (trimStart cs)

theorem length_dropWhile_le (p : Char → Bool) (cs : Text) :
    (cs.dropWhile p).length ≤ cs.length := (List.dropWhile_suffix p).length_le

theorem length_dropEndWhile_le (p : Char → Bool) (cs : Text) :
    (dropEndWhile p cs).length ≤ cs.length := by
  have h := length_dropWhile_le p cs.reverse
  simpa [dropEndWhile] using h

theorem length_trim_le (cs : Text) : (trim cs).length ≤ cs.length :=
  Nat.le_trans (length_dropEndWhile_le _ _) (length_dropWhile_le _ _)

/-- The trimmed text, or nothing when only blanks are there. -/
def trim? (cs : Text) : Option Text :=
  match trim cs with
  | [] => none
  | c :: rest => some (c :: rest)

/-! ### Beginnings and ends -/

/-- What follows a known beginning. -/
def dropPrefix? (start cs : Text) : Option Text := start.isPrefixOf? cs

/-- What precedes a known end. -/
def dropSuffix? (stop cs : Text) : Option Text := stop.isSuffixOf? cs

/-- Whether a text occurs in another one. -/
def occursIn (pattern : Text) : Text → Bool
  | [] => pattern.isEmpty
  | c :: cs => pattern.isPrefixOf (c :: cs) || occursIn pattern cs

/-- The texts before and after the first occurrence of a pattern. -/
def cutAt? (pattern : Text) : Text → Option (Text × Text)
  | [] => if pattern.isEmpty then some ([], []) else none
  | c :: cs =>
    match pattern.isPrefixOf? (c :: cs) with
    | some rest => some ([], rest)
    | none => (cutAt? pattern cs).map fun r => (c :: r.1, r.2)

/-- What remains of `cs` after `skipped` characters when every later occurrence of `pattern` gives
way to `value`. -/
def replaceFrom (pattern value : Text) : Nat → Text → Text
  | _, [] => []
  | skipped + 1, _ :: cs => replaceFrom pattern value skipped cs
  | 0, c :: cs =>
    if pattern.isPrefixOf (c :: cs) then value ++ replaceFrom pattern value (pattern.length - 1) cs
    else c :: replaceFrom pattern value 0 cs

/-- The text in which `value` stands for every occurrence of the non-empty `pattern`, taken from
the left. -/
def replaceAll (pattern value cs : Text) : Text := replaceFrom pattern value 0 cs

/-- The last entry of a list, or else the one in front of it. -/
theorem getLast?_cons_or {α : Type} (a : α) (as : List α) (before : Option α) :
    (a :: as).getLast?.or before = as.getLast?.or (some a) := by
  rw [List.getLast?_cons, Option.some_or, Option.or_some]

/-! ### Pieces -/

/-- Puts a character in front of the first piece. -/
def pushFirst (c : Char) : List Text → List Text
  | [] => [[c]]
  | piece :: pieces => (c :: piece) :: pieces

/-- The pieces between the occurrences of a separator. -/
def splitOn (separator : Char) : Text → List Text
  | [] => [[]]
  | c :: cs =>
    if c = separator then [] :: splitOn separator cs else pushFirst c (splitOn separator cs)

theorem splitOn_ne_nil (separator : Char) (cs : Text) : splitOn separator cs ≠ [] := by
  induction cs with
  | nil => simp [splitOn]
  | cons c cs ih =>
    unfold splitOn
    split
    · simp
    · cases splitOn separator cs <;> simp [pushFirst]

/-- Joining the pieces with the separator gives the text back. -/
theorem intercalate_splitOn (separator : Char) (cs : Text) :
    [separator].intercalate (splitOn separator cs) = cs := by
  induction cs with
  | nil => simp [splitOn]
  | cons c cs ih =>
    have hne := splitOn_ne_nil separator cs
    unfold splitOn
    split
    · next h =>
      cases hs : splitOn separator cs with
      | nil => exact absurd hs hne
      | cons p ps => rw [hs] at ih; simp_all [List.intercalate]
    · cases hs : splitOn separator cs with
      | nil => exact absurd hs hne
      | cons p ps =>
        rw [hs] at ih
        cases ps <;> simp_all [List.intercalate, pushFirst]

/-- The pieces between the characters of a class. -/
def splitWhere (p : Char → Bool) : Text → List Text
  | [] => [[]]
  | c :: cs => if p c then [] :: splitWhere p cs else pushFirst c (splitWhere p cs)

/-- The lines of a text.  A line feed ends a line, together with one carriage return right before
it; text after the last line feed is a line of its own, and an empty rest is none. -/
def lines : Text → List Text
  | [] => []
  | '\r' :: '\n' :: cs => [] :: lines cs
  | '\n' :: cs => [] :: lines cs
  | c :: cs => pushFirst c (lines cs)

/-- The texts joined by a separator. -/
def join (separator : String) (pieces : List Text) : Text := separator.toList.intercalate pieces

/-! ### Letters and numerals -/

/-- The text with small letters for the ASCII capitals. -/
def lower (cs : Text) : Text := cs.map Char.toLower

theorem toLower_of_not_isUpper {c : Char} (h : c.isUpper = false) : c.toLower = c := by
  have hnot : ¬(c.val ≥ 'A'.val ∧ c.val ≤ 'Z'.val) := of_decide_eq_false h
  exact dif_neg hnot

/-- What holds of the characters up to the capital Z, from the capital A on, holds of every capital
letter. -/
theorem of_isUpper {P : Char → Prop} (hall : ∀ n : Fin 91, 65 ≤ n.val → P (Char.ofNat n.val))
    {c : Char} (h : c.isUpper = true) : P c := by
  have hrange : c.val ≥ 'A'.val ∧ c.val ≤ 'Z'.val := of_decide_eq_true h
  have hv : 65 ≤ c.toNat ∧ c.toNat ≤ 90 := by
    simp only [UInt32.le_iff_toNat_le, ge_iff_le] at hrange
    exact hrange
  have hc := hall ⟨c.toNat, by omega⟩ hv.1
  simpa only [Char.ofNat_toNat] using hc

theorem toLower_toLower (c : Char) : c.toLower.toLower = c.toLower := by
  cases h : c.isUpper with
  | true => exact of_isUpper (P := fun c => c.toLower.toLower = c.toLower) (by decide) h
  | false => rw [toLower_of_not_isUpper h, toLower_of_not_isUpper h]

theorem lower_lower (cs : Text) : lower (lower cs) = lower cs := by
  unfold lower
  rw [List.map_map]
  exact List.map_congr_left fun c _ => toLower_toLower c

/-- Equality up to the case of ASCII letters. -/
def sameLetters (a b : Text) : Bool := lower a == lower b

/-- A number in decimal digits. -/
def ofNat (n : Nat) : Text := Nat.toDigits 10 n

end Text

end HintCheck
