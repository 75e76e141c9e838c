/-
**Cutting a text into pieces.**

A text is cut wherever a separator stands outside of all brackets and quotations, and the blanks
around each piece are left out.  This holds of every text, also of one with a closing bracket too
many or with a bracket or a quotation that is never closed.  Nothing else gets lost: the pieces,
with blanks around them, are the text.  And a piece is cut no further, since the scanner is outside
whenever it begins a new one.

Main definitions:

* `HintCheck.Text.Padded` — a text with blanks around another one;
* `HintCheck.Text.Settled` — pieces that are cut no further.

Main results:

* `HintCheck.Text.settled_splitTopFrom` — the scanner cuts a text into such pieces;
* `HintCheck.Text.exists_padded_splitTop` — the pieces and blanks are the text;
* `HintCheck.Text.splitTop_of_mem_splitTop` — a piece is cut no further;
* `HintCheck.Text.splitTop_exact` — **cutting is exact and stable.**
-/

import HintCheck.Proofs.Text.Standing
import Mathlib.Data.List.Forall2

set_option relaxedAutoImplicit false
set_option autoImplicit false

namespace HintCheck

namespace Text

variable {separator : Char}

/-! ### What is left out -/

/-- A text with blanks around another one. -/
def Padded (part piece : Text) : Prop :=
  ∃ w w', AllBlank w ∧ AllBlank w' ∧ piece = w ++ part ++ w'

theorem padded_trim (piece : Text) : Padded (trim piece) piece := exists_append_trim piece

/-- The pieces of a text, with blanks around them and the separator between them, are the text. -/
theorem exists_padded_splitTop (separator : Char) (cs : Text) :
    ∃ pieces, List.Forall₂ Padded (splitTop separator cs) pieces ∧
      [separator].intercalate pieces = cs := by
  refine ⟨splitTopFrom separator 0 none cs, ?_, intercalate_splitTopFrom separator 0 none cs⟩
  rw [splitTop, List.forall₂_map_left_iff, List.forall₂_same]
  intro piece _
  exact padded_trim piece

/-! ### Pieces are cut no further -/

/-- Pieces that are cut no further when each is scanned alone: the first one from where the scanner
stands, and the others from outside. -/
def Settled (separator : Char) (d : Nat) (q : Option Char) : List Text → Prop
  | [] => False
  | first :: others => splitTopFrom separator d q first = [first] ∧
      ∀ piece ∈ others, splitTopFrom separator 0 none piece = [piece]

/-- A character that does not cut goes to the first piece, whether this is read in its place or
alone. -/
theorem Settled.pushFirst {c : Char} {d d' : Nat} {q q' : Option Char} {pieces : List Text}
    (hstep : ∀ cs, splitTopFrom separator d q (c :: cs) =
      pushFirst c (splitTopFrom separator d' q' cs))
    (h : Settled separator d' q' pieces) :
    Settled separator d q (pushFirst c pieces) := by
  cases pieces with
  | nil => exact h.elim
  | cons first others =>
      obtain ⟨hfirst, hothers⟩ := h
      refine ⟨?_, hothers⟩
      rw [hstep, hfirst]
      rfl

/-- Outside, the first piece is like the others. -/
theorem Settled.eq_singleton {pieces : List Text} {piece : Text}
    (h : Settled separator 0 none pieces) (hpiece : piece ∈ pieces) :
    splitTopFrom separator 0 none piece = [piece] := by
  cases pieces with
  | nil => exact h.elim
  | cons first others =>
      obtain ⟨hfirst, hothers⟩ := h
      rcases List.mem_cons.1 hpiece with rfl | hpiece
      · exact hfirst
      · exact hothers piece hpiece

/-- Wherever the scanner stands, it cuts a text into pieces that it cuts no further.  Behind a
separator that cuts it is outside, as it is in front of a text. -/
theorem settled_splitTopFrom (separator : Char) (d : Nat) (q : Option Char) (cs : Text) :
    Settled separator d q (splitTopFrom separator d q cs) := by
  fun_induction splitTopFrom separator d q cs with
  | case1 d q => exact ⟨by simp [splitTopFrom], by simp⟩
  | case2 d quote c cs ih => exact ih.pushFirst fun t => by simp only [splitTopFrom]
  | case3 d c cs hq ih => exact ih.pushFirst fun t => by simp [splitTopFrom, hq]
  | case4 d c cs hq ho ih => exact ih.pushFirst fun t => by simp [splitTopFrom, hq, ho]
  | case5 d c cs hq ho hc ih => exact ih.pushFirst fun t => by simp [splitTopFrom, hq, ho, hc]
  | case6 d c cs hq ho hc hcut ih =>
      exact ⟨by simp [splitTopFrom], fun piece hpiece => ih.eq_singleton hpiece⟩
  | case7 d c cs hq ho hc hcut ih =>
      refine ih.pushFirst fun t => ?_
      rw [splitTopFrom, if_neg hq, if_neg ho, if_neg hc, if_neg hcut]

/-- A piece is cut no further. -/
theorem splitTop_of_mem_splitTop (hsep : isBlank separator = false) {cs part : Text}
    (h : part ∈ splitTop separator cs) : splitTop separator part = [part] := by
  obtain ⟨piece, hpiece, rfl⟩ := List.mem_map.1 h
  have hsingle := (settled_splitTopFrom separator 0 none cs).eq_singleton hpiece
  rw [splitTop_trim hsep, splitTop, hsingle]
  rfl

/-! ### Exact and stable -/

/-- **Cutting is exact and stable.**  The pieces of any text, with blanks around them and the
separator between them, are the text, and each piece is cut no further.  When the text is made of
sealed texts in which the separator stands only inside of brackets and quotations, the pieces are
these texts, without the blanks at their ends. -/
theorem splitTop_exact (hsep : IsSeparator separator) :
    (∀ cs, (∃ pieces, List.Forall₂ Padded (splitTop separator cs) pieces ∧
        [separator].intercalate pieces = cs) ∧
      ∀ part ∈ splitTop separator cs, splitTop separator part = [part]) ∧
    ∀ texts : List Text, texts ≠ [] →
      (∀ t ∈ texts, Sealed t ∧ FreeOutside (· == separator) t) →
      splitTop separator ([separator].intercalate texts) = texts.map trim := by
  refine ⟨fun cs => ⟨exists_padded_splitTop separator cs, fun part hpart => ?_⟩,
    fun texts hne h => ?_⟩
  · exact splitTop_of_mem_splitTop hsep.isBlank hpart
  · exact splitTop_intercalate hsep (w := []) allBlank_nil hne h

/-- A text with a bracket too many and a quotation that is not closed, and a list of types with bars
in brackets and in a quotation. -/
theorem splitTop_exact_of_bars :
    splitTop '|' "a> | 'b|c".toList = ["a>".toList, "'b|c".toList] ∧
    (∀ part ∈ ["a>".toList, "'b|c".toList], splitTop '|' part = [part]) ∧
    splitTop '|' "array<int|string>| 'x|y>' |null".toList =
      ["array<int|string>".toList, "'x|y>'".toList, "null".toList] := by
  obtain ⟨hany, hjoined⟩ := splitTop_exact isSeparator_bar
  have hpieces : splitTop '|' "a> | 'b|c".toList = ["a>".toList, "'b|c".toList] := by
    decide +kernel
  refine ⟨hpieces, fun part hpart => (hany "a> | 'b|c".toList).2 part (hpieces ▸ hpart), ?_⟩
  exact hjoined ["array<int|string>".toList, " 'x|y>' ".toList, "null".toList] (by simp)
    (by decide +kernel)

end Text

end HintCheck
