/-
**Brackets, quotes and the top level of a text.**

A text such as `array<int, Foo>|null` is taken apart only where it stands outside of all brackets
and quotes.  The four kinds of brackets share one depth, and a closing bracket without a partner
leaves the depth at zero.

Main definitions:

* `HintCheck.Text.splitTop` — the trimmed pieces between the separators at the top level;
* `HintCheck.Text.untilClosed` — the text inside a bracket that has just been opened, and the text
  behind its end.

Main results:

* `HintCheck.Text.length_le_of_mem_splitTop` — a piece is no longer than the text;
* `HintCheck.Text.untilClosed_eq_some` — the inside, the closing bracket and what follows are the
  text.
-/

import HintCheck.Text.Basic

set_option relaxedAutoImplicit false
set_option autoImplicit false

namespace HintCheck

namespace Text

/-- An opening bracket of any kind. -/
def isOpen (c : Char) : Bool := c == '<' || c == '(' || c == '{' || c == '['

/-- A closing bracket of any kind. -/
def isClose (c : Char) : Bool := c == '>' || c == ')' || c == '}' || c == ']'

/-- A quotation mark. -/
def isQuote (c : Char) : Bool := c == '\'' || c == '"'

/-- Whether a text begins and ends with the same quotation mark. -/
def isQuoted : Text → Bool
  | q :: cs => isQuote q && cs.getLast? == some q
  | [] => false

/-! ### Splitting at the top level -/

/-- The pieces of a text that starts at a bracket depth and, perhaps, inside a quotation. -/
def splitTopFrom (separator : Char) : Nat → Option Char → Text → List Text
  | _, _, [] => [[]]
  | depth, some quote, c :: cs =>
    pushFirst c (splitTopFrom separator depth (if c = quote then none else some quote) cs)
  | depth, none, c :: cs =>
    if isQuote c then pushFirst c (splitTopFrom separator depth (some c) cs)
    else if isOpen c then pushFirst c (splitTopFrom separator (depth + 1) none cs)
    else if isClose c then pushFirst c (splitTopFrom separator (depth - 1) none cs)
    else if c = separator ∧ depth = 0 then [] :: splitTopFrom separator 0 none cs
    else pushFirst c (splitTopFrom separator depth none cs)

/-- The pieces between the separators outside of brackets and quotes, each without the blanks at
its ends. -/
def splitTop (separator : Char) (cs : Text) : List Text :=
  (splitTopFrom separator 0 none cs).map trim

theorem length_le_of_mem_pushFirst {c : Char} {pieces : List Text} {n : Nat}
    (h : ∀ p ∈ pieces, p.length ≤ n) : ∀ p ∈ pushFirst c pieces, p.length ≤ n + 1 := by
  intro p hp
  cases pieces with
  | nil => simp [pushFirst] at hp; simp [hp]
  | cons q qs =>
    simp only [pushFirst, List.mem_cons] at hp
    rcases hp with rfl | hp
    · simpa using h q (by simp)
    · exact Nat.le_succ_of_le (h p (by simp [hp]))

theorem length_le_of_mem_splitTopFrom (separator : Char) (depth : Nat) (quote : Option Char)
    (cs : Text) : ∀ p ∈ splitTopFrom separator depth quote cs, p.length ≤ cs.length := by
  fun_induction splitTopFrom separator depth quote cs with
  | case1 => simp
  | case2 depth quote c cs ih => exact length_le_of_mem_pushFirst ih
  | case3 depth c cs _ ih => exact length_le_of_mem_pushFirst ih
  | case4 depth c cs _ _ ih => exact length_le_of_mem_pushFirst ih
  | case5 depth c cs _ _ _ ih => exact length_le_of_mem_pushFirst ih
  | case6 depth c cs _ _ _ _ ih =>
    intro p hp
    rcases List.mem_cons.1 hp with rfl | hp
    · simp
    · exact Nat.le_succ_of_le (ih p hp)
  | case7 depth c cs _ _ _ _ ih => exact length_le_of_mem_pushFirst ih

/-- A piece is no longer than the text it comes from. -/
theorem length_le_of_mem_splitTop {separator : Char} {cs p : Text}
    (h : p ∈ splitTop separator cs) : p.length ≤ cs.length := by
  obtain ⟨q, hq, rfl⟩ := List.mem_map.1 h
  exact Nat.le_trans (length_trim_le q) (length_le_of_mem_splitTopFrom _ _ _ _ q hq)

/-! ### The end of a bracket -/

/-- Puts a character in front of the first of two texts. -/
def consInside (c : Char) (r : Text × Text) : Text × Text := (c :: r.1, r.2)

/-- What stands between a bracket and its end, and what follows the end; `depth` further brackets
are open. -/
def untilClosed : Nat → Text → Option (Text × Text)
  | _, [] => none
  | depth, c :: cs =>
    if isOpen c then (untilClosed (depth + 1) cs).map (consInside c)
    else if isClose c then
      match depth with
      | 0 => some ([], cs)
      | depth + 1 => (untilClosed depth cs).map (consInside c)
    else (untilClosed depth cs).map (consInside c)

/-- Nothing but the closing bracket itself is left out. -/
theorem untilClosed_eq_some {depth : Nat} {cs inside rest : Text}
    (h : untilClosed depth cs = some (inside, rest)) :
    ∃ c, isClose c = true ∧ cs = inside ++ c :: rest := by
  fun_induction untilClosed depth cs generalizing inside with
  | case1 => simp at h
  | case2 depth c cs _ ih =>
    obtain ⟨⟨i, r⟩, hr, he⟩ := Option.map_eq_some_iff.1 h
    cases he
    obtain ⟨k, hk, rfl⟩ := ih hr
    exact ⟨k, hk, rfl⟩
  | case3 c cs _ hc =>
    cases h
    exact ⟨c, hc, rfl⟩
  | case4 c cs _ hc depth ih =>
    obtain ⟨⟨i, r⟩, hr, he⟩ := Option.map_eq_some_iff.1 h
    cases he
    obtain ⟨k, hk, rfl⟩ := ih hr
    exact ⟨k, hk, rfl⟩
  | case5 depth c cs _ _ ih =>
    obtain ⟨⟨i, r⟩, hr, he⟩ := Option.map_eq_some_iff.1 h
    cases he
    obtain ⟨k, hk, rfl⟩ := ih hr
    exact ⟨k, hk, rfl⟩

theorem length_of_untilClosed {depth : Nat} {cs inside rest : Text}
    (h : untilClosed depth cs = some (inside, rest)) :
    inside.length + rest.length < cs.length := by
  obtain ⟨c, _, rfl⟩ := untilClosed_eq_some h
  simp

end Text

end HintCheck
