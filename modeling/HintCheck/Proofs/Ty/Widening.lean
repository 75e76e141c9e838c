/-
**Widening a type.**

A type is widened by a union with another one.  Its own alternatives are all kept, so whatever was
compatible with one of them still is: a comparison may report the new alternatives, but about the
other side it reports nothing that it did not report before.

Main results:

* `HintCheck.Ty.expand_subset_unionOf` — a widened type has the alternatives that it had;
* `HintCheck.Ty.missing_compare_sublist`, `HintCheck.Ty.wrong_compare_sublist` — with more
  alternatives on one side, a comparison reports less of the other one;
* `HintCheck.Ty.widening_reports_no_more` — **widening one side adds no report about the other.**
-/

import HintCheck.Proofs.Ty.Compatible
import Mathlib.Data.List.Basic

set_option relaxedAutoImplicit false
set_option autoImplicit false

namespace HintCheck

namespace Ty

variable {d f u : Ty}

/-! ### The alternatives of a widened type -/

/-- The alternatives that a type in normal form brings into a union are pairwise different. -/
theorem pairwise_flatten (hd : Normal d) :
    (flatten d).Pairwise fun a b => same a b = false := by
  rcases flatten_of_normal hd with ⟨_, h⟩ | ⟨ms, rfl, h⟩ | ⟨t, rfl, h⟩
  · rw [h]
    exact List.pairwise_singleton _ d
  · rw [h]
    exact hd.members.2.2.1
  · rw [h]
    simpa using same_of_isOptionable_null hd.1

/-- A widened type has the alternatives that it had, although null changes its place when `?T` is
widened. -/
theorem expand_subset_unionOf (hd : Normal d) (x : Ty) : expand d ⊆ expand (unionOf [d, x]) := by
  intro m hm
  have hm : m ∈ flatten d := (mem_flatten_iff hd).2 hm
  have hne : flattenAll [d, x] ≠ [] :=
    List.ne_nil_of_mem (mem_flattenAll_iff.2 ⟨d, List.mem_cons_self, hm⟩)
  rw [(expand_unionOf_flattenAll hne).1, flattenAll]
  -- they come first, so that none of them can be left out as a repetition of a new one
  exact (prefix_dedup_append (pairwise_flatten hd) _).subset hm

/-! ### Comparing with more alternatives -/

theorem any_eq_false_of_subset {as bs : List Ty} {p : Ty → Bool} (h : as ⊆ bs)
    (hb : bs.any p = false) : as.any p = false := by
  rw [List.any_eq_false] at hb ⊢
  exact fun a ha => hb a (h ha)

/-- The more is documented, the less is missing. -/
theorem missing_compare_sublist (hd : d.isDefined = true) (h : expand d ⊆ expand u) :
    (compare u f).missing.Sublist (compare d f).missing := by
  unfold compare
  split
  · exact List.nil_sublist _
  · next hcompared =>
    simp only [Bool.or_eq_true, not_or, Bool.not_eq_true] at hcompared
    obtain ⟨⟨_, hf⟩, hmixed⟩ := hcompared
    rw [hd, hf, hmixed]
    refine List.monotone_filter_right _ fun m' hm' => ?_
    simp only [Bool.and_eq_true, Bool.not_eq_true'] at hm' ⊢
    exact ⟨any_eq_false_of_subset h hm'.1, any_eq_false_of_subset h hm'.2⟩

/-- The more is declared, the less is wrong. -/
theorem wrong_compare_sublist (hf : f.isDefined = true) (h : expand f ⊆ expand u) :
    (compare d u).wrong.Sublist (compare d f).wrong := by
  unfold compare
  split
  · exact List.nil_sublist _
  · next hcompared =>
    simp only [Bool.or_eq_true, not_or, Bool.not_eq_true] at hcompared
    obtain ⟨⟨hd, _⟩, hmixed⟩ := hcompared
    rw [hd, hf, any_eq_false_of_subset h hmixed]
    refine List.monotone_filter_right _ fun m hm => ?_
    simp only [Bool.not_eq_true'] at hm ⊢
    exact any_eq_false_of_subset h hm

/-- **Widening one side adds no report about the other**, whatever it is widened by. -/
theorem widening_reports_no_more (hd : Normal d) (hf : Normal f) (x : Ty) :
    (compare (unionOf [d, x]) f).missing ⊆ (compare d f).missing ∧
      (compare d (unionOf [f, x])).wrong ⊆ (compare d f).wrong := by
  constructor
  · exact (missing_compare_sublist hd.isDefined (expand_subset_unionOf hd x)).subset
  · exact (wrong_compare_sublist hf.isDefined (expand_subset_unionOf hf x)).subset

/-- Documented as `?int` and declared as `int|float`, null is wrong and `float` is missing.  Nothing
but these two can be reported when the other side is widened by `?float`. -/
theorem widening_reports_no_more_of_optional :
    compare (optional (atom .int)) (union [atom .int, atom .float]) =
        ⟨[atom .null], [atom .float]⟩ ∧
      (compare (unionOf [optional (atom .int), optional (atom .float)])
          (union [atom .int, atom .float])).missing ⊆ [atom .float] ∧
      (compare (optional (atom .int))
          (unionOf [union [atom .int, atom .float], optional (atom .float)])).wrong ⊆
        [atom .null] := by
  have hd : Normal (optional (atom .int)) := ⟨trivial, trivial⟩
  have hf : Normal (union [atom .int, atom .float]) := by
    simp [Normal, NormalAll, IsMember, same]
  have hreport : compare (optional (atom .int)) (union [atom .int, atom .float]) =
      ⟨[atom .null], [atom .float]⟩ := by
    simp [compare, compatible, atomFits, expand, isDefined, isMixed]
  have h := widening_reports_no_more hd hf (optional (atom .float))
  rw [hreport] at h
  exact ⟨hreport, h.1, h.2⟩

end Ty

end HintCheck
