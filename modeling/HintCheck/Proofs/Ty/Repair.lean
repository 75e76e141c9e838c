/-
**Repairing a documented type.**

A comparison reports the documented alternatives that are wrong and the declared ones that are
missing.  Leaving out the former and adding the latter gives a documented type that fits the
declaration: one repair is enough.

Main definitions:

* `HintCheck.Ty.repaired` — the alternatives of a documented type after its repair.

Main results:

* `HintCheck.Ty.mem_repaired_iff` — what stands in the repaired type;
* `HintCheck.Ty.exists_compatible_of_mem_repaired`,
  `HintCheck.Ty.exists_compatible_of_mem_expand` — each alternative of either side then has a
  compatible one on the other;
* `HintCheck.Ty.repaired_fits` — **after a repair, a comparison reports nothing**.
-/

import HintCheck.Proofs.Ty.Compatible

set_option relaxedAutoImplicit false
set_option autoImplicit false

namespace HintCheck

namespace Ty

/-- The alternatives of a documented type without those that a comparison reports as wrong, and
with those that it reports as missing. -/
def repaired (doc decl : Ty) : List Ty :=
  ((expand doc).filter fun m => !(compare doc decl).wrong.contains m) ++
    (compare doc decl).missing

variable {d f : Ty}

/-! ### Types without mixed -/

/-- Nothing is reported when everything is admitted, so that nothing changes. -/
theorem repaired_of_isMixed (h : (expand f).any isMixed = true) : repaired d f = expand d := by
  simp [repaired, compare_of_isMixed h, Comparison.none]

/-- A documented alternative is reported when it is compatible with nothing.  That equality decides
what is left out makes no difference, because no two alternatives are equal. -/
theorem contains_wrong_iff (hd : Normal d) (hf : Normal f) (hdm : (expand d).any isMixed = false)
    (hfm : (expand f).any isMixed = false) {m : Ty} (hm : m ∈ expand d) :
    (compare d f).wrong.contains m = true ↔ ∀ m' ∈ expand f, compatible m m' = false := by
  rw [compare_eq hd.isDefined hf.isDefined hdm hfm, List.contains_iff_exists_mem_beq]
  constructor
  · rintro ⟨w, hw, hs⟩
    obtain ⟨hwd, hnone⟩ := List.mem_filter.1 hw
    obtain rfl := (alternatives_expand hd).eq_of_same hm hwd hs
    simpa using hnone
  · intro h
    exact ⟨m, List.mem_filter.2 ⟨hm, by simpa using h⟩, same_refl m⟩

theorem mem_missing_iff (hd : Normal d) (hf : Normal f) (hdm : (expand d).any isMixed = false)
    (hfm : (expand f).any isMixed = false) {m' : Ty} :
    m' ∈ (compare d f).missing ↔ m' ∈ expand f ∧ ∀ m ∈ expand d, compatible m m' = false := by
  rw [compare_eq hd.isDefined hf.isDefined hdm hfm, List.mem_filter]
  simp

/-- A repaired alternative is a documented one that is compatible with something, or a declared one
that nothing was compatible with. -/
theorem mem_repaired_iff (hd : Normal d) (hf : Normal f) (hdm : (expand d).any isMixed = false)
    (hfm : (expand f).any isMixed = false) {m : Ty} :
    m ∈ repaired d f ↔
      (m ∈ expand d ∧ ∃ m' ∈ expand f, compatible m m' = true) ∨
        (m ∈ expand f ∧ ∀ k ∈ expand d, compatible k m = false) := by
  rw [repaired, List.mem_append, mem_missing_iff hd hf hdm hfm, List.mem_filter]
  refine or_congr (and_congr_right fun hm => ?_) Iff.rfl
  rw [Bool.not_eq_true', ← Bool.not_eq_true, contains_wrong_iff hd hf hdm hfm hm]
  simp

/-! ### The repaired type -/

theorem repaired_ne_nil (hd : Normal d) (hf : Normal f) (hdm : (expand d).any isMixed = false) :
    repaired d f ≠ [] := by
  cases hfm : (expand f).any isMixed with
  | true =>
      rw [repaired_of_isMixed hfm]
      exact expand_ne_nil hd
  | false =>
      -- a declared alternative is covered by one that is kept, or it is added
      obtain ⟨m', hm'⟩ := List.exists_mem_of_ne_nil _ (expand_ne_nil hf)
      by_cases hcovered : ∃ m ∈ expand d, compatible m m' = true
      · obtain ⟨m, hm, h⟩ := hcovered
        exact List.ne_nil_of_mem
          ((mem_repaired_iff hd hf hdm hfm).2 (Or.inl ⟨hm, m', hm', h⟩))
      · refine List.ne_nil_of_mem (a := m') ((mem_repaired_iff hd hf hdm hfm).2 (Or.inr ⟨hm', ?_⟩))
        simpa using hcovered

theorem isMember_of_mem_repaired (hd : Normal d) (hf : Normal f)
    (hdm : (expand d).any isMixed = false) (hfm : (expand f).any isMixed = false) {m : Ty}
    (hm : m ∈ repaired d f) : IsMember m ∧ Normal m := by
  rcases (mem_repaired_iff hd hf hdm hfm).1 hm with ⟨hm, _⟩ | ⟨hm, _⟩
  · exact ⟨(alternatives_expand hd).isMember m hm, (alternatives_expand hd).normal m hm⟩
  · exact ⟨(alternatives_expand hf).isMember m hm, (alternatives_expand hf).normal m hm⟩

/-- Whatever stands in the repaired type is compatible with something. -/
theorem exists_compatible_of_mem_repaired (hd : Normal d) (hf : Normal f)
    (hdm : (expand d).any isMixed = false) (hfm : (expand f).any isMixed = false) {m : Ty}
    (hm : m ∈ repaired d f) : ∃ m' ∈ expand f, compatible m m' = true := by
  obtain ⟨hmember, hnormal⟩ := isMember_of_mem_repaired hd hf hdm hfm hm
  rcases (mem_repaired_iff hd hf hdm hfm).1 hm with ⟨_, h⟩ | ⟨hmf, _⟩
  · exact h
  · exact ⟨m, hmf, compatible_of_same hmember hnormal (same_refl m)⟩

/-- No alternative that is kept is lost among repetitions: it stands in front of those that are
added, and it has no equal among those that are kept. -/
theorem mem_dedup_repaired_of_kept (hd : Normal d) {m : Ty} (hm : m ∈ expand d)
    (hkept : (compare d f).wrong.contains m = false) : m ∈ dedup (repaired d f) := by
  have hall := (alternatives_expand hd).filter fun m => !(compare d f).wrong.contains m
  refine (prefix_dedup_append hall.different _).subset ?_
  exact List.mem_filter.2 ⟨hm, by simp [hkept]⟩

/-- Every declared alternative is covered after the repair. -/
theorem exists_compatible_of_mem_expand (hd : Normal d) (hf : Normal f)
    (hdm : (expand d).any isMixed = false) (hfm : (expand f).any isMixed = false) {m' : Ty}
    (hm' : m' ∈ expand f) : ∃ m ∈ dedup (repaired d f), compatible m m' = true := by
  by_cases hcovered : ∃ m ∈ expand d, compatible m m' = true
  · obtain ⟨m, hm, h⟩ := hcovered
    refine ⟨m, mem_dedup_repaired_of_kept hd hm ?_, h⟩
    rw [← Bool.not_eq_true, contains_wrong_iff hd hf hdm hfm hm]
    intro hnone
    rw [hnone m' hm'] at h
    cases h
  · -- it was added, unless an equal alternative was kept
    have hadded : m' ∈ repaired d f :=
      (mem_repaired_iff hd hf hdm hfm).2 (Or.inr ⟨hm', by simpa using hcovered⟩)
    obtain ⟨k, hk, hs⟩ := exists_same_of_mem_dedup hadded
    obtain ⟨hmember, hnormal⟩ := isMember_of_mem_repaired hd hf hdm hfm (mem_of_mem_dedup hk)
    exact ⟨k, hk, compatible_of_same hmember hnormal hs⟩

/-- **After a repair, a comparison reports nothing.** -/
theorem repaired_fits (hd : Normal d) (hf : Normal f) (hdm : (expand d).any isMixed = false) :
    repaired d f ≠ [] ∧ (compare (unionOf (repaired d f)) f).isEmpty = true := by
  have hne := repaired_ne_nil hd hf hdm
  refine ⟨hne, ?_⟩
  cases hfm : (expand f).any isMixed with
  | true =>
      rw [compare_of_isMixed hfm]
      rfl
  | false =>
      have hexpand := (expand_unionOf hne fun m hm =>
        (isMember_of_mem_repaired hd hf hdm hfm hm).1).1
      refine isEmpty_compare ?_ ?_
      · intro m hm
        rw [hexpand] at hm
        exact exists_compatible_of_mem_repaired hd hf hdm hfm (mem_of_mem_dedup hm)
      · intro m' hm'
        rw [hexpand]
        exact exists_compatible_of_mem_expand hd hf hdm hfm hm'

/-- Documented as `string|A[]` and declared as `?string`: the array goes, and null is added. -/
theorem repaired_fits_of_optional :
    repaired (union [atom .string, array (named "A".toList) 1]) (optional (atom .string)) =
      [atom .string, atom .null] ∧
    (compare (unionOf (repaired (union [atom .string, array (named "A".toList) 1])
      (optional (atom .string)))) (optional (atom .string))).isEmpty = true := by
  have hd : Normal (union [atom .string, array (named "A".toList) 1]) := by
    simp [Normal, NormalAll, IsMember, IsElement, same]
  have hf : Normal (optional (atom .string)) := by simp [Normal, IsOptionable]
  refine ⟨?_, (repaired_fits hd hf (by decide)).2⟩
  have hreport : compare (union [atom .string, array (named "A".toList) 1])
      (optional (atom .string)) = ⟨[array (named "A".toList) 1], [atom .null]⟩ := by
    simp [compare, compatible, atomFits, arrayFitsAtom, expand, isDefined, isMixed]
  rw [repaired, hreport]
  rfl

end Ty

end HintCheck
