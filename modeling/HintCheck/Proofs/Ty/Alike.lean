/-
**What a comparison sees of a type.**

A comparison does not look at everything in a type.  Of a class with parameters it sees the name,
of an array the depth and, in any order, the alternatives of its elements.  Two alternatives that
agree in what is seen are *alike*, and a comparison cannot tell them apart: it does not matter which
of two alike alternatives it is given.  Equal types have alike alternatives, whatever the order in
which their unions were written.

Main definitions:

* `HintCheck.Ty.Matched` — two lists in which every element of either has a partner in the other;
* `HintCheck.Ty.Alike` — two alternatives of which a comparison sees the same.

Main results:

* `HintCheck.Ty.Alike.compatible_eq` — **alike alternatives are compatible with the same ones**;
* `HintCheck.Ty.compare_matched` — what is reported of types with matching alternatives matches;
* `HintCheck.Ty.matched_of_same` — the alternatives of equal types match;
* `HintCheck.Ty.compare_congr` — **comparing respects equality**, and equal types fit each other.
-/

import Mathlib.Tactic.Choose
import HintCheck.Proofs.Ty.Compatible

set_option relaxedAutoImplicit false
set_option autoImplicit false

namespace HintCheck

namespace Ty

/-! ### Matching lists -/

/-- Every element of either list has a partner in the other one. -/
structure Matched {α β : Type} (r : α → β → Prop) (as : List α) (bs : List β) : Prop where
  forth : ∀ a ∈ as, ∃ b ∈ bs, r a b
  back : ∀ b ∈ bs, ∃ a ∈ as, r a b

namespace Matched

variable {α β : Type} {r s : α → β → Prop} {as : List α} {bs : List β}

theorem singleton {a : α} {b : β} (h : r a b) : Matched r [a] [b] where
  forth := by simpa using h
  back := by simpa using h

theorem of_singleton {a : α} {b : β} (h : Matched r [a] [b]) : r a b := by
  simpa using h.forth a

theorem cons {a : α} {b : β} (hab : r a b) (h : Matched r as bs) :
    Matched r (a :: as) (b :: bs) where
  forth x hx := by
    rcases List.mem_cons.1 hx with rfl | hx
    · exact ⟨b, List.mem_cons_self, hab⟩
    · obtain ⟨y, hy, hxy⟩ := h.forth x hx
      exact ⟨y, List.mem_cons_of_mem _ hy, hxy⟩
  back y hy := by
    rcases List.mem_cons.1 hy with rfl | hy
    · exact ⟨a, List.mem_cons_self, hab⟩
    · obtain ⟨x, hx, hxy⟩ := h.back y hy
      exact ⟨x, List.mem_cons_of_mem _ hx, hxy⟩

theorem perm_right {cs : List β} (h : Matched r as bs) (hp : cs.Perm bs) : Matched r as cs where
  forth a ha := by
    obtain ⟨b, hb, hab⟩ := h.forth a ha
    exact ⟨b, hp.mem_iff.2 hb, hab⟩
  back c hc := h.back c (hp.mem_iff.1 hc)

theorem imp_of_mem (h : Matched r as bs) (hrs : ∀ a ∈ as, ∀ b ∈ bs, r a b → s a b) :
    Matched s as bs where
  forth a ha := by
    obtain ⟨b, hb, hab⟩ := h.forth a ha
    exact ⟨b, hb, hrs a ha b hb hab⟩
  back b hb := by
    obtain ⟨a, ha, hab⟩ := h.back b hb
    exact ⟨a, ha, hrs a ha b hb hab⟩

theorem imp (h : Matched r as bs) (hrs : ∀ a b, r a b → s a b) : Matched s as bs :=
  h.imp_of_mem fun a _ b _ => hrs a b

/-- A test that does not tell partners apart holds of some element of both lists or of neither. -/
theorem any_eq (h : Matched r as bs) {p : α → Bool} {q : β → Bool}
    (hpq : ∀ a b, r a b → p a = q b) : as.any p = bs.any q := by
  refine Bool.eq_iff_iff.2 ?_
  rw [List.any_eq_true, List.any_eq_true]
  constructor
  · rintro ⟨a, ha, hp⟩
    obtain ⟨b, hb, hab⟩ := h.forth a ha
    exact ⟨b, hb, (hpq a b hab).symm.trans hp⟩
  · rintro ⟨b, hb, hq⟩
    obtain ⟨a, ha, hab⟩ := h.back b hb
    exact ⟨a, ha, (hpq a b hab).trans hq⟩

theorem filter (h : Matched r as bs) {p : α → Bool} {q : β → Bool}
    (hpq : ∀ a b, r a b → p a = q b) : Matched r (as.filter p) (bs.filter q) where
  forth a ha := by
    obtain ⟨ha, hp⟩ := List.mem_filter.1 ha
    obtain ⟨b, hb, hab⟩ := h.forth a ha
    exact ⟨b, List.mem_filter.2 ⟨hb, (hpq a b hab).symm.trans hp⟩, hab⟩
  back b hb := by
    obtain ⟨hb, hq⟩ := List.mem_filter.1 hb
    obtain ⟨a, ha, hab⟩ := h.back b hb
    exact ⟨a, List.mem_filter.2 ⟨ha, (hpq a b hab).trans hq⟩, hab⟩

theorem eq_nil_iff (h : Matched r as bs) : as = [] ↔ bs = [] := by
  constructor
  · rintro rfl
    refine List.eq_nil_iff_forall_not_mem.2 fun b hb => ?_
    simpa using h.back b hb
  · rintro rfl
    refine List.eq_nil_iff_forall_not_mem.2 fun a ha => ?_
    simpa using h.forth a ha

end Matched

/-! ### Alternatives that a comparison cannot tell apart -/

/-- Two alternatives of which a comparison sees the same.  The alternatives of the elements of two
arrays are matched by two maps, one in each direction. -/
inductive Alike : Ty → Ty → Prop where
  | atom (a : Atom) : Alike (.atom a) (.atom a)
  | named (n : Text) : Alike (.named n) (.named n)
  | generic (n : Text) (ps qs : List Ty) : Alike (.generic n ps) (.generic n qs)
  | array (d : Nat) {e e' : Ty} {forth back : Ty → Ty} (hwild : isWildcard e = isWildcard e')
      (hforth : ∀ m ∈ expand e, forth m ∈ expand e')
      (hback : ∀ m' ∈ expand e', back m' ∈ expand e)
      (halike : ∀ m ∈ expand e, Alike m (forth m))
      (halike' : ∀ m' ∈ expand e', Alike (back m') m') : Alike (.array e d) (.array e' d)

/-- Arrays are alike when the alternatives of their elements match. -/
theorem Alike.of_matched (d : Nat) {e e' : Ty} (hwild : isWildcard e = isWildcard e')
    (h : Matched Alike (expand e) (expand e')) : Alike (.array e d) (.array e' d) := by
  obtain ⟨hforth, hback⟩ := h
  choose! forth hforth halike using hforth
  choose! back hback halike' using hback
  exact .array d hwild hforth hback halike halike'

theorem Alike.isMixed_eq {a a' : Ty} (h : Alike a a') : isMixed a = isMixed a' := by
  cases h <;> rfl

/-- Types with matching alternatives overlap with the same types, when partners are compatible with
the same alternatives. -/
theorem overlap_eq_of_matched {e e' f f' : Ty} {r s : Ty → Ty → Prop}
    (he : Matched r (expand e) (expand e')) (hf : Matched s (expand f) (expand f'))
    (h : ∀ m m' n n', r m m' → s n n' → compatible m n = compatible m' n') :
    overlap e f = overlap e' f' :=
  he.any_eq fun m m' hm => hf.any_eq fun n n' hn => h m m' n n' hm hn

/-- **Alike alternatives are compatible with the same ones.** -/
theorem Alike.compatible_eq {a a' b b' : Ty} (ha : Alike a a') (hb : Alike b b') :
    compatible a b = compatible a' b' := by
  induction ha generalizing b b' with
  | atom a => cases hb <;> simp [compatible]
  | named n => cases hb <;> simp [compatible]
  | generic n ps qs => cases hb <;> simp [compatible]
  | @array d e e' forth back hwild hforth hback _ _ ih ih' =>
      cases hb with
      | @array d₂ e₂ e₂' forth₂ back₂ hwild₂ hforth₂ hback₂ halike₂ halike₂' =>
          have hmatched : Matched (fun m m' => ∀ n n', Alike n n' →
              compatible m n = compatible m' n') (expand e) (expand e') :=
            ⟨fun m hm => ⟨forth m, hforth m hm, fun n n' hn => ih m hm hn⟩,
              fun m' hm' => ⟨back m', hback m' hm', fun n n' hn => ih' m' hm' hn⟩⟩
          have hmatched₂ : Matched Alike (expand e₂) (expand e₂') :=
            ⟨fun m hm => ⟨forth₂ m, hforth₂ m hm, halike₂ m hm⟩,
              fun m' hm' => ⟨back₂ m', hback₂ m' hm', halike₂' m' hm'⟩⟩
          rw [compatible_array, compatible_array, hwild, hwild₂,
            overlap_eq_of_matched hmatched hmatched₂ fun m m' n n' hm hn => hm n n' hn]
      | _ => simp [compatible]

/-! ### Comparing types with matching alternatives -/

theorem compare_of_absent {d f : Ty} (h : d.isDefined = false ∨ f.isDefined = false) :
    compare d f = .none := by
  rcases h with h | h <;> simp [compare, h]

/-- What is reported of types with matching alternatives matches, when partners are alike. -/
theorem compare_matched {d d' f f' : Ty} {r : Ty → Ty → Prop} (hr : ∀ a a', r a a' → Alike a a')
    (hdefined : d.isDefined = d'.isDefined) (hdefined' : f.isDefined = f'.isDefined)
    (hd : d.isDefined = true → Matched r (expand d) (expand d'))
    (hf : f.isDefined = true → Matched r (expand f) (expand f')) :
    Matched r (compare d f).wrong (compare d' f').wrong ∧
      Matched r (compare d f).missing (compare d' f').missing := by
  have hnil : Matched r ([] : List Ty) [] := ⟨by simp, by simp⟩
  by_cases habsent : d.isDefined = false ∨ f.isDefined = false
  · rw [compare_of_absent habsent, compare_of_absent (by rwa [← hdefined, ← hdefined'])]
    exact ⟨hnil, hnil⟩
  · simp only [not_or, Bool.not_eq_false] at habsent
    have hd := hd habsent.1
    have hf := hf habsent.2
    have hcompatible : ∀ a a' b b', r a a' → r b b' → compatible a b = compatible a' b' :=
      fun a a' b b' ha hb => (hr a a' ha).compatible_eq (hr b b' hb)
    have hmixed : (expand d).any isMixed = (expand d').any isMixed :=
      hd.any_eq fun a a' ha => (hr a a' ha).isMixed_eq
    have hmixed' : (expand f).any isMixed = (expand f').any isMixed :=
      hf.any_eq fun b b' hb => (hr b b' hb).isMixed_eq
    unfold compare
    rw [hdefined, hdefined', hmixed, hmixed']
    split
    · exact ⟨hnil, hnil⟩
    · refine ⟨hd.filter fun a a' ha => ?_, hf.filter fun b b' hb => ?_⟩
      · rw [hf.any_eq fun b b' hb => hcompatible a a' b b' ha hb]
      · rw [hd.any_eq fun a a' ha => hcompatible a a' b b' ha hb]

/-! ### Equal types -/

theorem isWildcard_of_same {a b : Ty} (h : same a b = true) : isWildcard a = isWildcard b := by
  cases a <;> cases b <;> simp_all [same, isWildcard]

theorem isDefined_of_same {a b : Ty} (h : same a b = true) : a.isDefined = b.isDefined := by
  cases a <;> cases b <;> simp_all [same, isDefined]

/-- The alternatives of equal types match: partners are equal and alike. -/
theorem matched_of_same {a b : Ty} (ha : Normal a) (hab : same a b = true) :
    Matched (fun m m' => same m m' = true ∧ Alike m m') (expand a) (expand b) := by
  induction a using induct generalizing b with
  | atom k =>
      cases b with
      | atom k' =>
          obtain rfl : k = k' := by simpa [same] using hab
          exact .singleton ⟨hab, .atom k⟩
      | _ => simp [same] at hab
  | named n =>
      cases b with
      | named n' =>
          obtain rfl : n = n' := by simpa [same] using hab
          exact .singleton ⟨hab, .named n⟩
      | _ => simp [same] at hab
  | array e d ih =>
      cases b with
      | array e' d' =>
          obtain ⟨rfl, he⟩ : d = d' ∧ same e e' = true := by simpa [same] using hab
          have helements := (ih ha.2.2 he).imp fun m m' h => h.2
          exact .singleton ⟨hab, .of_matched d (isWildcard_of_same he) helements⟩
      | _ => simp [same] at hab
  | generic n ps =>
      cases b with
      | generic n' ps' =>
          have hname := hab
          rw [same_generic, Bool.and_eq_true, beq_iff_eq] at hname
          obtain ⟨rfl, _⟩ := hname
          exact .singleton ⟨hab, .generic n ps ps'⟩
      | _ => simp [same] at hab
  | union ms ih =>
      cases b with
      | union ms' =>
          obtain ⟨_, hmember, hdiff, hn⟩ := ha.members
          have halike : ∀ m ∈ ms, ∀ m', same m m' = true → Alike m m' := by
            intro m hm m' h
            have hpair := ih m hm (hn m hm) h
            rw [expand_of_isMember (hmember m hm),
              expand_of_isMember (isMember_of_same h (hmember m hm))] at hpair
            exact hpair.of_singleton.2
          have hsymm : ∀ m ∈ ms, ∀ m', same m m' = true → same m' m = true :=
            fun m hm m' h => same_symm (hn m hm).normalOrAbsent.distinctMembers h
          constructor
          · intro m hm
            obtain ⟨m', hm', h⟩ := (same_union_iff.1 hab).2 m hm
            exact ⟨m', hm', h, halike m hm m' h⟩
          · intro m' hm'
            obtain ⟨m, hm, h⟩ := exists_same_of_same_union hdiff hsymm hab m' hm'
            exact ⟨m, hm, h, halike m hm m' h⟩
      | _ => simp [same] at hab
  | optional t ih =>
      cases b with
      | optional t' => exact .cons ⟨same_refl _, .atom .null⟩ (ih ha.2 hab)
      | _ => simp [same] at hab
  | undefined => exact absurd ha (by simp [Normal])

/-- Equal alternatives, tested either way round. -/
def Equal (a b : Ty) : Prop := same a b = true ∧ same b a = true

/-- Of types that are equal to given ones, something equal is reported. -/
theorem matched_compare_of_same {d d' f f' : Ty} (hd : NormalOrAbsent d) (hf : NormalOrAbsent f)
    (hdd : same d d' = true) (hff : same f f' = true) :
    Matched Equal (compare d f).wrong (compare d' f').wrong ∧
      Matched Equal (compare d f).missing (compare d' f').missing := by
  have hpair : ∀ {t u : Ty}, Normal t → same t u = true →
      Matched (fun m m' => Equal m m' ∧ Alike m m') (expand t) (expand u) := by
    intro t u ht htu
    refine (matched_of_same ht htu).imp_of_mem fun m hm m' _ h => ?_
    have hdistinct := ((alternatives_expand ht).normal m hm).normalOrAbsent.distinctMembers
    exact ⟨⟨h.1, same_symm hdistinct h.1⟩, h.2⟩
  obtain ⟨hwrong, hmissing⟩ := compare_matched (fun _ _ h => h.2) (isDefined_of_same hdd)
    (isDefined_of_same hff) (fun h => hpair (hd h) hdd) (fun h => hpair (hf h) hff)
  exact ⟨hwrong.imp fun _ _ h => h.1, hmissing.imp fun _ _ h => h.1⟩

/-- Nothing is reported of equal types. -/
theorem isEmpty_compare_of_same {d f : Ty} (hd : NormalOrAbsent d) (h : same d f = true) :
    (compare d f).isEmpty = true := by
  cases hdefined : d.isDefined with
  | false =>
      rw [compare_of_absent (Or.inl hdefined)]
      rfl
  | true =>
      have hd := hd hdefined
      have hmatched := matched_of_same hd h
      have halternatives := alternatives_expand hd
      have hcompatible : ∀ m ∈ expand d, ∀ m', same m m' = true → compatible m m' = true :=
        fun m hm m' hs =>
          compatible_of_same (halternatives.isMember m hm) (halternatives.normal m hm) hs
      refine isEmpty_compare ?_ ?_
      · intro m hm
        obtain ⟨m', hm', hs, _⟩ := hmatched.forth m hm
        exact ⟨m', hm', hcompatible m hm m' hs⟩
      · intro m' hm'
        obtain ⟨m, hm, hs, _⟩ := hmatched.back m' hm'
        exact ⟨m, hm, hcompatible m hm m' hs⟩

/-- **Comparing respects equality.**  When both types are replaced by equal ones, what is reported
as wrong, and what is reported as missing, matches up to equality; and nothing is reported of equal
types. -/
theorem compare_congr {d d' f f' : Ty} (hd : NormalOrAbsent d) (hf : NormalOrAbsent f)
    (hdd : same d d' = true) (hff : same f f' = true) :
    Matched Equal (compare d f).wrong (compare d' f').wrong ∧
      Matched Equal (compare d f).missing (compare d' f').missing ∧
      (same d f = true → (compare d f).isEmpty = true) := by
  obtain ⟨hwrong, hmissing⟩ := matched_compare_of_same hd hf hdd hff
  exact ⟨hwrong, hmissing, isEmpty_compare_of_same hd⟩

/-- Documented as `(int|A)[]|null` or as `null|(A|int)[]`, and declared as `?string`: the array is
wrong, however it is written.  Between the two ways of writing there is no difference. -/
theorem compare_congr_of_reordered :
    (compare (union [array (union [atom .int, named "A".toList]) 1, atom .null])
      (optional (atom .string))).wrong = [array (union [atom .int, named "A".toList]) 1] ∧
    Matched Equal
      (compare (union [array (union [atom .int, named "A".toList]) 1, atom .null])
        (optional (atom .string))).wrong
      (compare (union [atom .null, array (union [named "A".toList, atom .int]) 1])
        (optional (atom .string))).wrong ∧
    (compare (union [array (union [atom .int, named "A".toList]) 1, atom .null])
      (union [atom .null, array (union [named "A".toList, atom .int]) 1])).isEmpty = true := by
  have hd : Normal (union [array (union [atom .int, named "A".toList]) 1, atom .null]) := by
    simp [Normal, NormalAll, IsMember, IsElement, same]
  have hd' : Normal (union [atom .null, array (union [named "A".toList, atom .int]) 1]) := by
    simp [Normal, NormalAll, IsMember, IsElement, same]
  have hf : Normal (optional (atom .string)) := by simp [Normal, IsOptionable]
  refine ⟨?_, (compare_congr hd.normalOrAbsent hf.normalOrAbsent (by decide) (by decide)).1, ?_⟩
  · simp [compare, compatible, atomFits, arrayFitsAtom, expand, isDefined, isMixed]
  · exact (compare_congr hd.normalOrAbsent hd'.normalOrAbsent (same_refl _) (same_refl _)).2.2
      (by decide)

end Ty

end HintCheck
