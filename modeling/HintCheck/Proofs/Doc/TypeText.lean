/-
**The type in front of a tag's words.**

The text of a tag is cut behind its type: at the first blank outside of brackets.  A spelled type
has blanks only between the parameters of a class, so that it is cut off whole, whatever words
follow it, and it is not mistaken for a variable.

Main definitions:

* `HintCheck.Ty.isTypeChar` — the characters that a type is spelled with.

Main results:

* `HintCheck.Ty.isTypeChar_of_mem_docText` — no other character stands in a spelling;
* `HintCheck.Ty.topFree_blank_docText` — a blank in a spelling stands inside of brackets;
* `HintCheck.DocTag.splitType_docText` — **a spelled type is cut off whole**.
-/

import HintCheck.Proofs.Doc.TypeEnd
import HintCheck.Proofs.Text.Spaced
import HintCheck.Proofs.Ty.DocText

set_option relaxedAutoImplicit false
set_option autoImplicit false

namespace HintCheck

namespace Ty

open Text

/-! ### The characters of a spelling -/

/-- A character that a type is spelled with. -/
def isTypeChar (c : Char) : Bool := isWordChar c || "<>(), []|".toList.contains c

/-- The only blank among these is the space. -/
theorem eq_space_of_isTypeChar {c : Char} (h : isTypeChar c = true) (hb : isBlank c = true) :
    c = ' ' := by
  simp only [isTypeChar, Bool.or_eq_true] at h
  rcases h with h | h
  · rw [isBlank_of_isWordChar h] at hb
    cases hb
  · have hall : "<>(), []|".toList.all (fun c => !isBlank c || c == ' ') = true := by decide
    simpa [hb] using List.all_eq_true.1 hall c (by simpa using h)

/-- A spelling has no other characters. -/
theorem isTypeChar_of_mem_docText {t : Ty} (h : PlainNames t) :
    ∀ c ∈ docText t, isTypeChar c = true := by
  have hword : ∀ {w : Text}, IsWord w → ∀ c ∈ w, isTypeChar c = true := by
    intro w hw c hc
    simp [isTypeChar, hw.isWordChar c hc]
  induction h with
  | atom a => exact hword (isWord_text a)
  | named hn => exact hword hn.isWord
  | @array e d _ ih =>
      have hbrackets : ∀ d, ∀ c ∈ brackets d, isTypeChar c = true := by
        intro d
        induction d with
        | zero => simp [brackets]
        | succ d ihd =>
            rw [brackets_succ, List.forall_mem_append]
            exact ⟨ihd, List.all_eq_true.1 (by decide)⟩
      have henclosed : ∀ c ∈ ['('] ++ docText e ++ [')'], isTypeChar c = true := by
        rw [List.forall_mem_append, List.forall_mem_append]
        exact ⟨⟨List.all_eq_true.1 (by decide), ih⟩, List.all_eq_true.1 (by decide)⟩
      rw [docText, List.forall_mem_append]
      refine ⟨?_, hbrackets d⟩
      unfold elementText
      split
      · exact henclosed
      · exact henclosed
      · exact ih
  | @generic n ps hn _ _ ih =>
      rw [docText_generic, paramText, List.forall_mem_append, List.forall_mem_cons,
        List.forall_mem_append]
      exact ⟨hword hn.isWord, by decide,
        forall_mem_intercalate (List.all_eq_true.1 (by decide)) (by simpa using ih),
        List.all_eq_true.1 (by decide)⟩
  | @union ms _ ih =>
      rw [docText_union]
      exact forall_mem_intercalate (List.all_eq_true.1 (by decide)) (by simpa using ih)
  | optional _ ih =>
      rw [docText, List.forall_mem_append]
      exact ⟨ih, List.all_eq_true.1 (by decide)⟩
  | undefined => simp [docText]

/-- A character that no type is spelled with does not stand in a spelling. -/
theorem not_mem_docText {c : Char} (hc : isTypeChar c = false) {t : Ty} (h : PlainNames t) :
    c ∉ docText t := by
  intro hmem
  rw [isTypeChar_of_mem_docText h c hmem] at hc
  cases hc

/-- A blank in the spelling of a type stands inside of brackets. -/
theorem topFree_blank_docText {t : Ty} (h : PlainNames t) : TopFree ' ' (docText t) := by
  have hplain : IsPlain ' ' := ⟨by decide, by decide, by decide⟩
  have hword : isWordChar ' ' = false := by decide
  induction h with
  | atom a => exact (isWord_text a).topFree hword
  | named hn => exact hn.isWord.topFree hword
  | @array e d he ih =>
      have hs := isSpelling_docText he
      have hbrackets : TopFree ' ' (brackets d) :=
        topFree_of_not_mem (by simp [brackets, List.mem_flatten])
      refine TopFree.append (isSpelling_elementText _ hs).balanced ?_ hbrackets
      unfold elementText
      split
      · simpa using TopFree.enclosed hplain hs.balanced (o := '(') (by decide) ')'
      · simpa using TopFree.enclosed hplain hs.balanced (o := '(') (by decide) ')'
      · exact ih
  | @generic n ps hn _ hps _ =>
      rw [docText_generic]
      refine topFree_paramText hplain hword hn.isWord ?_
      simpa using fun p hp => (isSpelling_docText (hps p hp)).balanced
  | @union ms hms ih =>
      rw [docText_union]
      refine topFree_intercalate (by decide) (by decide) ?_
      simpa using fun m hm => ⟨(isSpelling_docText (hms m hm)).balanced, ih m hm⟩
  | @optional t ht ih =>
      exact TopFree.append (isSpelling_docText ht).balanced ih (topFree_of_not_mem (by decide))
  | undefined => exact topFree_of_not_mem (by simp [docText])

/-- The spelling of a written type is not empty. -/
theorem docText_ne_nil {t : Ty} (h : PlainNames t) (hn : Normal t) : docText t ≠ [] := by
  cases h with
  | atom a => exact (isWord_text a).ne_nil
  | named hname => exact hname.ne_nil
  | @array e d _ =>
      obtain ⟨k, rfl⟩ : ∃ k, d = k + 1 := ⟨d - 1, by have := hn.1; omega⟩
      simp [docText, brackets_succ]
  | generic => simp [docText_generic, paramText]
  | @union ms _ =>
      have hlen := hn.members.1
      cases ms with
      | nil => simp at hlen
      | cons m ms =>
          cases ms with
          | nil => simp at hlen
          | cons m' ms => simp [docText_union, Text.join, List.intercalate_cons_cons]
  | optional => simp [docText]
  | undefined => exact absurd hn (by simp [Normal])

/-- A blank in a spelling is a space, and stands inside of brackets. -/
theorem freeOutside_blank_docText {t : Ty} (h : PlainNames t) :
    FreeOutside isBlank (docText t) := by
  intro front c back σ hsplit hσ houtside
  refine Bool.eq_false_iff.2 fun hblank => ?_
  have hc : c ∈ docText t := by simp [hsplit]
  obtain rfl := eq_space_of_isTypeChar (isTypeChar_of_mem_docText h c hc) hblank
  have hfree := freeOutside_of_topFree (isSpelling_docText h).balanced (topFree_blank_docText h)
  exact absurd (hfree front ' ' back σ hsplit hσ houtside) (by decide)

/-- The spelling of a written type neither begins nor ends with a blank: such a blank would stand
outside of brackets. -/
theorem tight_docText {t : Ty} (h : PlainNames t) (hn : Normal t) : Tight (docText t) :=
  tight_of_freeOutside (sealed_of_balanced (isSpelling_docText h).balanced) (docText_ne_nil h hn)
    (freeOutside_blank_docText h)

end Ty

namespace DocTag

open Text Ty

/-! ### Cutting off the type -/

/-- **A spelled type is cut off whole**, from the end of the text or from words behind a space. -/
theorem splitType_docText {t : Ty} (h : PlainNames t) (words : Text) :
    splitType (docText t) = (docText t, []) ∧
      splitType (docText t ++ ' ' :: words) = (docText t, trim words) := by
  have hcolon : ':' ∉ docText t := not_mem_docText (by decide) h
  obtain ⟨hend, hwords⟩ := splitType_of_not_awaits
    (sealed_of_balanced (isSpelling_docText h).balanced) (freeOutside_blank_docText h)
    (not_awaits_of_not_mem hcolon)
  exact ⟨hend, hwords words⟩

end DocTag

end HintCheck
