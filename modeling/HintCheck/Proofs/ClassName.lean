/-
**Class names in ASCII.**

Full names are compared in the small letters of every script, but the last segments of names only
up to the case of ASCII letters.  For names in ASCII the two agree: the form in which a name is
compared tells its last segment.

Main results:

* `HintCheck.Text.lowercase_of_ascii` — inside ASCII only the 26 capitals change;
* `HintCheck.ClassName.lastSegment_relative` — separators in front do not matter to the last
  segment;
* `HintCheck.ClassName.lower_lastSegment` — **the last segment of an ASCII name is that of its
  key.**
-/

import HintCheck.ClassName

set_option relaxedAutoImplicit false
set_option autoImplicit false

namespace HintCheck

/-! ### Small letters -/

namespace Text

/-- Of ASCII characters alone, what stands around a character makes no difference. -/
theorem lowercaseAfter_of_ascii {cs : Text} (h : ∀ c ∈ cs, c.toNat < 128)
    (before : Text) : lowercaseAfter before cs = lower cs := by
  induction cs generalizing before with
  | nil => rfl
  | cons c cs ih =>
      have hc : c.toNat < 128 := h c (by simp)
      have hsigma : (c == 'Σ') = false := by
        rw [beq_eq_false_iff_ne]
        rintro rfl
        exact absurd hc (by decide)
      have hdotted : (c == 'İ') = false := by
        rw [beq_eq_false_iff_ne]
        rintro rfl
        exact absurd hc (by decide)
      rw [lowercaseAfter, ih (fun x hx => h x (by simp [hx])) (c :: before)]
      simp [hsigma, hdotted, lowerChar_of_lt hc, lower]

theorem lowercase_of_ascii {cs : Text} (h : ∀ c ∈ cs, c.toNat < 128) :
    lowercase cs = lower cs := lowercaseAfter_of_ascii h []

theorem toLower_eq_separator_iff (c : Char) : c.toLower = '\\' ↔ c = '\\' := by
  cases h : c.isUpper with
  | true => exact of_isUpper (P := fun c => c.toLower = '\\' ↔ c = '\\') (by decide) h
  | false => rw [toLower_of_not_isUpper h]

end Text

/-! ### Segments -/

namespace ClassName

open Text

theorem lastSegment_separator (name : Text) : lastSegment ('\\' :: name) = lastSegment name := by
  unfold lastSegment
  rw [List.reverse_cons, List.takeWhile_append]
  split
  · next h =>
    rw [(List.takeWhile_prefix _).eq_of_length h]
    simp
  · rfl

/-- Separators in front of a name do not matter to its last segment. -/
theorem lastSegment_relative (name : Text) : lastSegment (relative name) = lastSegment name := by
  induction name with
  | nil => rfl
  | cons c name ih =>
      unfold relative
      by_cases hc : c = '\\'
      · subst hc
        rw [lastSegment_separator, ← ih]
        rfl
      · rw [List.dropWhile_cons_of_neg (by simpa using hc)]

theorem lastSegment_lower (name : Text) : lastSegment (lower name) = lower (lastSegment name) := by
  have hsame : (fun c : Char => c != '\\') ∘ Char.toLower = fun c => c != '\\' := by
    funext c
    refine Bool.eq_iff_iff.2 ?_
    simp only [Function.comp_apply, bne_iff_ne, ne_eq, toLower_eq_separator_iff]
  unfold lastSegment lower
  rw [← List.map_reverse, List.takeWhile_map, hsame, List.map_reverse]

/-- **The last segment of an ASCII name is that of its key**, in small letters. -/
theorem lower_lastSegment {name : Text} (h : ∀ c ∈ name, c.toNat < 128) :
    lower (lastSegment name) = lastSegment (key name) := by
  have hrelative : ∀ c ∈ relative name, c.toNat < 128 := fun c hc =>
    h c ((List.dropWhile_suffix _).subset hc)
  rw [key, lowercase_of_ascii hrelative, lastSegment_lower, lastSegment_relative]

end ClassName

end HintCheck
