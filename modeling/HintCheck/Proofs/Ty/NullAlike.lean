/-
**The spelling of null in a comparison.**

A comparison looks through `?T` in one place, at the outermost alternatives, and through unions in
another; the elements of arrays are looked at once more, in a test of their own.  This module shows
that it treats `?T` and the union of `T` and null alike in all of them: when both types are
respelled with unions, at every depth, each alternative is replaced by an alike one.  Respelling may
make two members of a union equal, so that the union loses one of them; an array of such a union can
turn into a deeper array, and types in which this happens are left out.

Main definitions:

* `HintCheck.Ty.StaysDistinct` — the types in which respelling makes no two members of a union
  equal.

Main results:

* `HintCheck.Ty.matched_denull` — the alternatives of a type match those of the respelled type;
* `HintCheck.Ty.matched_compare_denull` — what is reported of respelled types is the respelling of
  what is reported;
* `HintCheck.Ty.null_spellings_alike` — **a comparison treats `?T` and `T|null` alike.**
-/

import HintCheck.Proofs.Ty.Alike
import HintCheck.Proofs.Ty.Denull
import HintCheck.Proofs.Ty.Normal

set_option relaxedAutoImplicit false
set_option autoImplicit false

namespace HintCheck

namespace Ty

/-- At every depth that a comparison looks at, the members of a union stay pairwise different when
every `?T` inside them is spelled as a union.  What stands in the parameters of a class makes no
difference. -/
inductive StaysDistinct : Ty → Prop where
  | atom (a : Atom) : StaysDistinct (.atom a)
  | named (n : Text) : StaysDistinct (.named n)
  | array {e : Ty} (d : Nat) (he : StaysDistinct e) : StaysDistinct (.array e d)
  | generic (n : Text) (ps : List Ty) : StaysDistinct (.generic n ps)
  | union {ms : List Ty} (hdiff : ms.Pairwise fun a b => same (denull a) (denull b) = false)
      (hms : ∀ m ∈ ms, StaysDistinct m) : StaysDistinct (.union ms)
  | optional {t : Ty} (ht : StaysDistinct t) : StaysDistinct (.optional t)
  | undefined : StaysDistinct .undefined

/-! ### Respelled alternatives -/

/-- An element stays one, and a wildcard stays one. -/
theorem isElement_denull {e : Ty} (hs : StaysDistinct e) (hn : Normal e) (he : IsElement e) :
    IsElement (denull e) ∧ isWildcard e = isWildcard (denull e) := by
  cases hs with
  | union hdiff =>
      rw [denull_union hn hdiff]
      exact ⟨trivial, rfl⟩
  | optional =>
      rw [denull_optional hn.2 hn.1]
      exact ⟨trivial, rfl⟩
  | array => exact absurd he (by simp [IsElement])
  | undefined => exact absurd he (by simp [IsElement])
  | _ => exact ⟨trivial, rfl⟩

/-- The alternatives of a type match those of the respelled type: each is respelled, which makes it
an alike one. -/
theorem matched_denull {t : Ty} (h : StaysDistinct t) (hn : Normal t) :
    Matched (fun m m' => m' = denull m ∧ Alike m m') (expand t) (expand (denull t)) := by
  induction h with
  | atom a => exact .singleton ⟨rfl, .atom a⟩
  | named n => exact .singleton ⟨rfl, .named n⟩
  | generic n ps => exact .singleton ⟨rfl, .generic n ps (denullAll ps)⟩
  | @array e d he ih =>
      obtain ⟨hd, helement, hne⟩ := hn
      obtain ⟨helement', hwild⟩ := isElement_denull he hne helement
      have hrespelled : denull (array e d) = array (denull e) d := by
        rw [denull, arrayOf_of_isElement hd helement']
      have halike : Alike (array e d) (array (denull e) d) :=
        .of_matched d hwild ((ih hne).imp fun _ _ h => h.2)
      rw [hrespelled]
      exact .singleton ⟨hrespelled.symm, halike⟩
  | @union ms hdiff hms ih =>
      obtain ⟨_, hmember, _, hall⟩ := hn.members
      have halike : ∀ m ∈ ms, Alike m (denull m) := by
        intro m hm
        have hpair := ih m hm (hall m hm)
        rw [expand_of_isMember (hmember m hm),
          expand_of_isMember (isMember_denull (hall m hm) (hmember m hm))] at hpair
        exact hpair.of_singleton.2
      rw [denull_union hn hdiff]
      constructor
      · intro m hm
        exact ⟨denull m, List.mem_map_of_mem hm, rfl, halike m hm⟩
      · intro m' hm'
        obtain ⟨m, hm, rfl⟩ := List.mem_map.1 hm'
        exact ⟨m, hm, rfl, halike m hm⟩
  | @optional t ht ih =>
      obtain ⟨hoption, hnt⟩ := hn
      have hpair := ih hnt
      have hm := isMember_of_isOptionable hoption
      rw [expand_of_isMember hm, expand_of_isMember (isMember_denull hnt hm)] at hpair
      -- null comes first in the short form, and last in the union
      rw [denull_optional hnt hoption, expand, expand_of_isMember hm]
      exact (Matched.cons ⟨rfl, .atom .null⟩ hpair).perm_right (List.Perm.swap ..)
  | undefined => exact absurd hn (by simp [Normal])

/-! ### Respelled types -/

/-- What is reported of respelled types is the respelling of what is reported. -/
theorem matched_compare_denull {d f : Ty} (hd : NormalOrAbsent d) (hf : NormalOrAbsent f)
    (hds : StaysDistinct d) (hfs : StaysDistinct f) :
    Matched (fun m m' => m' = denull m)
        (compare d f).wrong (compare (denull d) (denull f)).wrong ∧
      Matched (fun m m' => m' = denull m)
        (compare d f).missing (compare (denull d) (denull f)).missing := by
  have hdefined : ∀ {t : Ty}, NormalOrAbsent t → t.isDefined = (denull t).isDefined := by
    intro t ht
    cases ht' : t.isDefined with
    | true => exact (isDefined_denull (ht ht')).symm
    | false => cases t <;> simp_all [isDefined, denull]
  obtain ⟨hwrong, hmissing⟩ := compare_matched (fun _ _ h => h.2) (hdefined hd) (hdefined hf)
    (fun h => matched_denull hds (hd h)) (fun h => matched_denull hfs (hf h))
  exact ⟨hwrong.imp fun _ _ h => h.1, hmissing.imp fun _ _ h => h.1⟩

/-- **A comparison treats `?T` and `T|null` alike.**  When both types are respelled at every depth,
something is wrong or missing exactly when it was before; and of a declared `?T` the same is
reported as of the union of `T` and null, up to the order of what is missing. -/
theorem null_spellings_alike :
    (∀ d f : Ty, NormalOrAbsent d → NormalOrAbsent f → StaysDistinct d → StaysDistinct f →
      ((compare (denull d) (denull f)).wrong = [] ↔ (compare d f).wrong = []) ∧
      ((compare (denull d) (denull f)).missing = [] ↔ (compare d f).missing = [])) ∧
    (∀ d t : Ty, nullable t = optional t →
      (compare d (optional t)).wrong = (compare d (unionOf [t, atom .null])).wrong ∧
      (compare d (optional t)).missing.Perm (compare d (unionOf [t, atom .null])).missing) := by
  refine ⟨?_, ?_⟩
  · intro d f hd hf hds hfs
    obtain ⟨hwrong, hmissing⟩ := matched_compare_denull hd hf hds hfs
    exact ⟨hwrong.eq_nil_iff.symm, hmissing.eq_nil_iff.symm⟩
  · intro d t ht
    have hoption := isOptionable_of_nullable ht
    rw [unionOf_null hoption]
    refine compare_perm_decl rfl ?_
    rw [expand, expand_of_isMember (isMember_of_isOptionable hoption), expand]
    exact List.Perm.swap ..

/-- Documented as `(?A)[]` and declared as `?(?A)[]`: the array is right, with `(A|null)[]` too, and
null is missing. -/
theorem null_spellings_alike_of_nested :
    (compare (denull (array (optional (named "A".toList)) 1))
      (denull (optional (array (optional (named "A".toList)) 1)))).wrong = [] ∧
    (compare (array (optional (named "A".toList)) 1)
      (unionOf [array (optional (named "A".toList)) 1, atom .null])).missing = [atom .null] := by
  have hd : Normal (array (optional (named "A".toList)) 1) := by
    simp [Normal, IsElement, IsOptionable]
  have hf : Normal (optional (array (optional (named "A".toList)) 1)) := ⟨trivial, hd⟩
  have hs : StaysDistinct (array (optional (named "A".toList)) 1) := .array 1 (.optional (.named _))
  have hmember : IsMember (array (optional (named "A".toList)) 1) := trivial
  have hself := compatible_of_same hmember hd (same_refl _)
  have hnull : compatible (array (optional (named "A".toList)) 1) (atom .null) = false := by
    simp [compatible, arrayFitsAtom]
  have hreport : compare (array (optional (named "A".toList)) 1)
      (optional (array (optional (named "A".toList)) 1)) = ⟨[], [atom .null]⟩ := by
    simp only [compare, expand, List.filter_cons, List.filter_nil, List.any_cons, List.any_nil,
      hself, hnull, isDefined, isMixed]
    rfl
  obtain ⟨hdenull, hlast⟩ := null_spellings_alike
  refine ⟨?_, ?_⟩
  · refine (hdenull _ _ hd.normalOrAbsent hf.normalOrAbsent hs (.optional hs)).1.2 ?_
    rw [hreport]
  · have hperm := (hlast (array (optional (named "A".toList)) 1)
      (array (optional (named "A".toList)) 1) rfl).2
    rw [hreport] at hperm
    exact List.singleton_perm.1 hperm |>.symm

end Ty

end HintCheck
