/-
**Class names that may mean the same class.**

Imports are not known where types are compared, so that a class may go by the last segments of its
name.  The comparison looks at the text of the longer name and asks whether it ends with a separator
and the shorter one.  This module says the same in terms of segments, and that no part of a segment
ever counts as the whole.

Main definitions:

* `HintCheck.ClassName.smallSegments` — the segments of a name, in small letters.

Main results:

* `HintCheck.Ty.endsWithSegments_iff` — what the text of a name ends with;
* `HintCheck.Ty.sameClass_eq` — only the longer of two names can end with the other;
* `HintCheck.Ty.sameClass_of_middle` — a name does not match one that it is the end of from the
  middle of a segment on;
* `HintCheck.Ty.sameClass_iff` — **names match when one has the last segments of the other.**
-/

import HintCheck.Proofs.ClassName
import HintCheck.Proofs.Text.Segments
import HintCheck.Ty.Compare

set_option relaxedAutoImplicit false
set_option autoImplicit false

namespace HintCheck

open Text

/-- The segments of a class name in small letters, without the separators in front of it. -/
def ClassName.smallSegments (name : Text) : List Text :=
  splitOn '\\' (lower (name.dropWhile (· == '\\')))

namespace Ty

theorem smallSegments_eq (name : Text) :
    ClassName.smallSegments name = splitOn '\\' (classKey name) := rfl

/-- The text of a name ends with a separator and another name when the segments do. -/
theorem endsWithSegments_iff (long short : Text) :
    (long == short || endsWithSegments long short) = true ↔
      splitOn '\\' short <:+ splitOn '\\' long := by
  rw [splitOn_suffix_iff, endsWithSegments, Bool.or_eq_true, beq_iff_eq,
    List.isSuffixOf_iff_suffix, eq_comm]

theorem sameClass_iff_suffix (a b : Text) :
    sameClass a b = true ↔
      ClassName.smallSegments a <:+ ClassName.smallSegments b ∨
        ClassName.smallSegments b <:+ ClassName.smallSegments a := by
  rw [smallSegments_eq, smallSegments_eq, ← endsWithSegments_iff, ← endsWithSegments_iff,
    sameClass, BEq.comm (a := classKey b)]
  simp only [Bool.or_eq_true]
  constructor
  · rintro ((hsame | hfirst) | hsecond)
    · exact Or.inl (Or.inl hsame)
    · exact Or.inr (Or.inr hfirst)
    · exact Or.inl (Or.inr hsecond)
  · rintro ((hsame | hsecond) | hsame | hfirst)
    · exact Or.inl (Or.inl hsame)
    · exact Or.inr hsecond
    · exact Or.inl (Or.inl hsame)
    · exact Or.inl (Or.inr hfirst)

/-! ### The longer name -/

/-- A name is longer than what it ends with. -/
theorem endsWithSegments_eq_false {long short : Text} (h : long.length ≤ short.length) :
    endsWithSegments long short = false := by
  refine Bool.eq_false_iff.2 fun hends => ?_
  have hlength := (List.isSuffixOf_iff_suffix.1 hends).length_le
  rw [List.length_cons] at hlength
  omega

/-- Only the longer of two names can end with the other. -/
theorem sameClass_eq (a b : Text) :
    sameClass a b = (classKey a == classKey b ||
      if (classKey a).length < (classKey b).length then
        endsWithSegments (classKey b) (classKey a)
      else endsWithSegments (classKey a) (classKey b)) := by
  rw [sameClass]
  split
  · next h => rw [endsWithSegments_eq_false (Nat.le_of_lt h), Bool.or_false]
  · next h => rw [endsWithSegments_eq_false (Nat.le_of_not_lt h), Bool.or_false]

/-! ### The middle of a segment -/

/-- A name without a separator in front is compared as it is, but for capitals. -/
theorem classKey_of_head {name : Text} (h : name.head? ≠ some '\\') :
    classKey name = lower name := by
  cases name with
  | nil => rfl
  | cons c name =>
      have hc : (c == '\\') = false := by simpa using h
      rw [classKey, ClassName.relative, List.dropWhile_cons_of_neg (by simp [hc])]

/-- Only what stands in front of some other character can be a separator in front of a name. -/
theorem classKey_append_cons {c : Char} (hc : c ≠ '\\') (s name : Text) :
    classKey (s ++ c :: name) = lower (ClassName.relative s) ++ c.toLower :: lower name := by
  have hfirst : (c :: name).dropWhile (· == '\\') = c :: name :=
    List.dropWhile_cons_of_neg (by simpa using hc)
  have hrelative : ClassName.relative (s ++ c :: name) = ClassName.relative s ++ c :: name := by
    unfold ClassName.relative
    rw [List.dropWhile_append, hfirst]
    split
    · next h => rw [List.isEmpty_iff.1 h, List.nil_append]
    · rfl
  rw [classKey, hrelative, lower, List.map_append]
  rfl

/-- A name does not match one that it is the end of, from the middle of a segment on. -/
theorem sameClass_of_middle {c : Char} (hc : c ≠ '\\') {name : Text}
    (hname : name.head? ≠ some '\\') (s : Text) : sameClass name (s ++ c :: name) = false := by
  have hlonger : (lower name).length <
      (lower (ClassName.relative s) ++ c.toLower :: lower name).length := by
    simp only [List.length_append, List.length_cons]
    omega
  rw [sameClass_eq, classKey_of_head hname, classKey_append_cons hc, if_pos hlonger]
  refine Bool.eq_false_iff.2 fun hmatch => ?_
  rw [Bool.or_eq_true, beq_iff_eq] at hmatch
  rcases hmatch with hequal | hends
  · exact absurd (congrArg List.length hequal) (Nat.ne_of_lt hlonger)
  · -- the separator would have to be the character in front of the name
    obtain ⟨front, hfront⟩ := List.isSuffixOf_iff_suffix.1 hends
    obtain ⟨-, hchar⟩ := List.append_inj' hfront rfl
    exact hc ((toLower_eq_separator_iff c).1 (List.cons.inj hchar).1.symm)

/-! ### Matching -/

/-- **Names match when one has the last segments of the other**, in small letters and without the
separators in front.  So it does not matter which of the two names comes first, and a name never
matches one that it is the end of from the middle of a segment on. -/
theorem sameClass_iff (a b : Text) :
    (sameClass a b = true ↔
      ClassName.smallSegments a <:+ ClassName.smallSegments b ∨
        ClassName.smallSegments b <:+ ClassName.smallSegments a) ∧
    sameClass a b = sameClass b a ∧
    ∀ s c, c ≠ '\\' → a.head? ≠ some '\\' → sameClass a (s ++ c :: a) = false := by
  refine ⟨sameClass_iff_suffix a b, sameClass_comm a b, fun s c hc ha => ?_⟩
  exact sameClass_of_middle hc ha s

/-- The names `Class1` and `MyClass1`, and a name in a namespace. -/
theorem sameClass_iff_of_classes :
    sameClass "Class1".toList "MyClass1".toList = false ∧
    sameClass "Class1".toList "Space\\MyClass1".toList = false ∧
    sameClass "\\SPACE\\Class1".toList "Class1".toList = true := by
  have hmiddle := (sameClass_iff "Class1".toList []).2.2
  refine ⟨hmiddle "M".toList 'y' (by decide) (by decide),
    hmiddle "Space\\M".toList 'y' (by decide) (by decide), ?_⟩
  exact (sameClass_iff _ _).1.2 (Or.inr ⟨["space".toList], by decide⟩)

end Ty

end HintCheck
