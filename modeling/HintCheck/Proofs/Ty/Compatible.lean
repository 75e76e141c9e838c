/-
**What a comparison looks at.**

A comparison goes through the alternatives of two types.  In normal form these can all be members
of a union and are pairwise different, and equal alternatives are compatible.

Main definitions:

* `HintCheck.Ty.Alternatives` — types that can be the members of one normal union.

Main results:

* `HintCheck.Ty.alternatives_expand`, `HintCheck.Ty.expand_ne_nil` — the alternatives of a normal
  type;
* `HintCheck.Ty.expand_unionOf` — the alternatives of a union that is built from alternatives;
* `HintCheck.Ty.compatible_of_same` — **equal alternatives are compatible**;
* `HintCheck.Ty.compare_eq`, `HintCheck.Ty.isEmpty_compare` — what a comparison reports, and when
  it reports nothing;
* `HintCheck.Ty.compare_perm`, `HintCheck.Ty.compare_perm_decl` — the order of the alternatives
  only orders what is reported.
-/

import HintCheck.Ty.Compare
import HintCheck.Proofs.Ty.Union

set_option relaxedAutoImplicit false
set_option autoImplicit false

namespace HintCheck

namespace Ty

/-! ### Alternatives -/

/-- Types that can be the members of one normal union. -/
structure Alternatives (ts : List Ty) : Prop where
  isMember : ∀ t ∈ ts, IsMember t
  normal : ∀ t ∈ ts, Normal t
  different : ts.Pairwise fun a b => same a b = false

theorem expand_of_isMember {t : Ty} (h : IsMember t) : expand t = [t] := by
  cases t <;> first | rfl | exact absurd h (by simp [IsMember])

theorem isMember_of_isOptionable {t : Ty} (h : IsOptionable t) : IsMember t := by
  cases t <;> first | exact trivial | exact absurd h (by simp [IsOptionable])

theorem alternatives_singleton {t : Ty} (hm : IsMember t) (hn : Normal t) : Alternatives [t] where
  isMember := by simpa using hm
  normal := by simpa using hn
  different := List.pairwise_singleton _ t

/-- Null is not what stands behind a question mark. -/
theorem same_null_of_isOptionable {t : Ty} (h : IsOptionable t) :
    same (atom .null) t = false := by
  cases t with
  | atom a => cases a <;> first | rfl | exact absurd h (by simp [IsOptionable])
  | _ => rfl

theorem same_of_isOptionable_null {t : Ty} (h : IsOptionable t) :
    same t (atom .null) = false := by
  cases t with
  | atom a => cases a <;> first | rfl | exact absurd h (by simp [IsOptionable])
  | _ => rfl

/-- What can stand behind a question mark is the other member beside null. -/
theorem unionOf_null {t : Ty} (h : IsOptionable t) :
    unionOf [t, atom .null] = union [t, atom .null] := by
  refine unionOf_of_pairwise ?_ ?_
  · simpa using ⟨isMember_of_isOptionable h, trivial⟩
  · simpa using same_of_isOptionable_null h

/-- Null beside what can stand behind a question mark is a normal union. -/
theorem normal_union_null {t : Ty} (hn : Normal t) (h : IsOptionable t) :
    Normal (union [t, atom .null]) := by
  have hnull : IsMember (atom .null) := trivial
  simp [Normal, NormalAll, hn, isMember_of_isOptionable h, hnull, same_of_isOptionable_null h]

/-- The alternatives of a normal type. -/
theorem alternatives_expand {t : Ty} (h : Normal t) : Alternatives (expand t) := by
  cases t with
  | union ms =>
      obtain ⟨_, hmember, hdiff, hn⟩ := h.members
      exact ⟨hmember, hn, hdiff⟩
  | optional t =>
      obtain ⟨hoption, hn⟩ := h
      have hm := isMember_of_isOptionable hoption
      rw [expand, expand_of_isMember hm]
      refine ⟨?_, ?_, ?_⟩
      · simpa using ⟨trivial, hm⟩
      · simpa using ⟨trivial, hn⟩
      · simpa using same_null_of_isOptionable hoption
  | undefined => exact absurd h (by simp [Normal])
  | atom a => exact alternatives_singleton trivial h
  | named n => exact alternatives_singleton trivial h
  | array e d => exact alternatives_singleton trivial h
  | generic n ps => exact alternatives_singleton trivial h

theorem expand_ne_nil {t : Ty} (h : Normal t) : expand t ≠ [] := by
  cases t with
  | union ms =>
      rintro (hnil : ms = [])
      have hlen := h.members.1
      simp [hnil] at hlen
  | _ => simp [expand]

/-- Flattening a type in normal form gives its alternatives, with null behind `T` for `?T`. -/
theorem flatten_of_normal {t : Ty} (hn : Normal t) :
    IsMember t ∧ flatten t = [t] ∨ (∃ ms, t = union ms ∧ flatten t = ms) ∨
      ∃ u, t = optional u ∧ flatten t = [u, atom .null] := by
  cases t with
  | union ms => exact Or.inr (Or.inl ⟨ms, rfl, flattenAll_of_isMember hn.members.2.1⟩)
  | optional u =>
      refine Or.inr (Or.inr ⟨u, rfl, ?_⟩)
      rw [flatten, flatten_of_isMember (isMember_of_isOptionable hn.1)]
      rfl
  | undefined => exact absurd hn (by simp [Normal])
  | _ => exact Or.inl ⟨trivial, rfl⟩

theorem mem_flatten_iff {t m : Ty} (hn : Normal t) : m ∈ flatten t ↔ m ∈ expand t := by
  rcases flatten_of_normal hn with ⟨hm, h⟩ | ⟨ms, rfl, h⟩ | ⟨u, rfl, h⟩
  · rw [h, expand_of_isMember hm]
  · rw [h]
    rfl
  · rw [h, expand, expand_of_isMember (isMember_of_isOptionable hn.1)]
    simp [or_comm]

theorem flatten_ne_nil {t : Ty} (hn : Normal t) : flatten t ≠ [] := by
  obtain ⟨m, hm⟩ := List.exists_mem_of_ne_nil _ (expand_ne_nil hn)
  exact List.ne_nil_of_mem ((mem_flatten_iff hn).2 hm)

theorem Alternatives.of_cons {t : Ty} {ts : List Ty} (h : Alternatives (t :: ts)) :
    Alternatives ts where
  isMember u hu := h.isMember u (List.mem_cons_of_mem _ hu)
  normal u hu := h.normal u (List.mem_cons_of_mem _ hu)
  different := (List.pairwise_cons.1 h.different).2

/-- Of alternatives, only one and the same are equal. -/
theorem Alternatives.eq_of_same {ts : List Ty} (h : Alternatives ts) {a b : Ty} (ha : a ∈ ts)
    (hb : b ∈ ts) (hab : same a b = true) : a = b := by
  induction ts with
  | nil => simp at ha
  | cons t ts ih =>
      have hfirst := (List.pairwise_cons.1 h.different).1
      have hba := same_symm (h.normal a ha).normalOrAbsent.distinctMembers hab
      rcases List.mem_cons.1 ha with hat | hat <;> rcases List.mem_cons.1 hb with hbt | hbt
      · exact hat.trans hbt.symm
      · rw [hat, hfirst b hbt] at hab
        cases hab
      · rw [hbt, hfirst a hat] at hba
        cases hba
      · exact ih h.of_cons hat hbt

theorem Alternatives.filter {ts : List Ty} (h : Alternatives ts) (p : Ty → Bool) :
    Alternatives (ts.filter p) where
  isMember t ht := h.isMember t (List.mem_filter.1 ht).1
  normal t ht := h.normal t (List.mem_filter.1 ht).1
  different := h.different.filter p

theorem expand_collapse {ts : List Ty} (hne : ts ≠ []) (h : ∀ t ∈ ts, IsMember t) :
    expand (collapse ts) = ts ∧ (collapse ts).isDefined = true := by
  match ts with
  | [] => exact absurd rfl hne
  | [t] =>
      have ht := h t (by simp)
      exact ⟨expand_of_isMember ht, isDefined_of_isMember ht⟩
  | t :: t' :: ts => exact ⟨rfl, rfl⟩

/-- The alternatives of a union are those that its members bring into it, without repetitions. -/
theorem expand_unionOf_flattenAll {ts : List Ty} (hne : flattenAll ts ≠ []) :
    expand (unionOf ts) = dedup (flattenAll ts) ∧ (unionOf ts).isDefined = true := by
  refine expand_collapse ?_ fun t ht => isMember_of_mem_flattenAll (mem_of_mem_dedup ht)
  intro hnil
  obtain ⟨t, ht⟩ := List.exists_mem_of_ne_nil _ hne
  obtain ⟨k, hk, _⟩ := exists_same_of_mem_dedup ht
  simp [hnil] at hk

/-- The alternatives of a union are those that it was built from, without repetitions. -/
theorem expand_unionOf {ts : List Ty} (hne : ts ≠ []) (h : ∀ t ∈ ts, IsMember t) :
    expand (unionOf ts) = dedup ts ∧ (unionOf ts).isDefined = true := by
  have hflatten := flattenAll_of_isMember h
  have hsome : flattenAll ts ≠ [] := by rwa [hflatten]
  have hunion := expand_unionOf_flattenAll hsome
  rwa [hflatten] at hunion

/-! ### Equal alternatives -/

theorem isMember_of_same {a b : Ty} (h : same a b = true) (ha : IsMember a) : IsMember b := by
  cases a <;> cases b <;> simp_all [same, IsMember]

theorem overlap_of_isMember {a b : Ty} (ha : IsMember a) (hb : IsMember b) :
    overlap a b = compatible a b := by
  simp [overlap, expand_of_isMember ha, expand_of_isMember hb]

theorem overlap_of_mem {a b m m' : Ty} (hm : m ∈ expand a) (hm' : m' ∈ expand b)
    (h : compatible m m' = true) : overlap a b = true :=
  List.any_eq_true.2 ⟨m, hm, List.any_eq_true.2 ⟨m', hm', h⟩⟩

theorem atomFits_self (a : Atom) : atomFits a a = true := by cases a <;> rfl

theorem sameClass_self (n : Text) : sameClass n n = true := by simp [sameClass]

/-- Two equal types have alternatives that are compatible. -/
theorem overlap_of_same {a b : Ty} (ha : Normal a) (hab : same a b = true) :
    overlap a b = true := by
  induction a using induct generalizing b with
  | atom k =>
      cases b with
      | atom k' =>
          simp only [same, beq_iff_eq] at hab
          subst hab
          simp [overlap, expand, compatible, atomFits_self]
      | _ => simp [same] at hab
  | named n =>
      cases b with
      | named n' =>
          simp only [same, beq_iff_eq] at hab
          subst hab
          simp [overlap, expand, compatible, sameClass_self]
      | _ => simp [same] at hab
  | array e d ih =>
      cases b with
      | array e' d' =>
          simp only [same, Bool.and_eq_true, beq_iff_eq] at hab
          obtain ⟨rfl, he⟩ := hab
          have hoverlap := ih ha.2.2 he
          rw [overlap_of_isMember (a := array e d) (b := array e' d) trivial trivial,
            compatible_array, hoverlap]
          simp
      | _ => simp [same] at hab
  | generic n ps =>
      cases b with
      | generic n' ps' =>
          simp only [same_generic, Bool.and_eq_true, beq_iff_eq] at hab
          obtain ⟨rfl, _⟩ := hab
          simp [overlap, expand, compatible, sameClass_self]
      | _ => simp [same] at hab
  | union ms ih =>
      cases b with
      | union ms' =>
          obtain ⟨_, hmember, _, hn⟩ := ha.members
          obtain ⟨m, hm⟩ := List.exists_mem_of_ne_nil ms (expand_ne_nil ha)
          obtain ⟨m', hm', h⟩ := (same_union_iff.1 hab).2 m hm
          have hoverlap := ih m hm (hn m hm) h
          rw [overlap_of_isMember (hmember m hm) (isMember_of_same h (hmember m hm))] at hoverlap
          exact overlap_of_mem (a := union ms) (b := union ms') hm hm' hoverlap
      | _ => simp [same] at hab
  | optional t =>
      cases b with
      | optional t' =>
          have hnull : compatible (atom .null) (atom .null) = true := by
            simp [compatible, atomFits_self]
          refine overlap_of_mem ?_ ?_ hnull
          · simp [expand]
          · simp [expand]
      | _ => simp [same] at hab
  | undefined => exact absurd ha (by simp [Normal])

/-- **Equal alternatives are compatible.** -/
theorem compatible_of_same {a b : Ty} (hm : IsMember a) (ha : Normal a)
    (hab : same a b = true) : compatible a b = true := by
  rw [← overlap_of_isMember hm (isMember_of_same hab hm)]
  exact overlap_of_same ha hab

/-! ### What a comparison reports -/

theorem compare_of_isMixed {d f : Ty} (h : (expand f).any isMixed = true) :
    compare d f = .none := by
  simp [compare, h]

/-- Without `mixed` on either side, a comparison reports what is compatible with nothing. -/
theorem compare_eq {d f : Ty} (hd : d.isDefined = true) (hf : f.isDefined = true)
    (hdm : (expand d).any isMixed = false) (hfm : (expand f).any isMixed = false) :
    compare d f =
      { wrong := (expand d).filter fun m => !(expand f).any fun m' => compatible m m'
        missing := (expand f).filter fun m' => !(expand d).any fun m => compatible m m' } := by
  simp [compare, hd, hf, hdm, hfm]

/-- A comparison asks for the documented alternatives only; their order shows in the order of what
it reports. -/
theorem compare_perm {d d' f : Ty} (hdefined : d.isDefined = d'.isDefined)
    (h : (expand d).Perm (expand d')) :
    (compare d f).wrong.Perm (compare d' f).wrong ∧
      (compare d f).missing = (compare d' f).missing := by
  unfold compare
  rw [hdefined]
  split
  · exact ⟨List.Perm.refl _, rfl⟩
  · simp only [h.any_eq]
    exact ⟨h.filter _, trivial⟩

/-- The same of the declared alternatives. -/
theorem compare_perm_decl {d f f' : Ty} (hdefined : f.isDefined = f'.isDefined)
    (h : (expand f).Perm (expand f')) :
    (compare d f).wrong = (compare d f').wrong ∧
      (compare d f).missing.Perm (compare d f').missing := by
  unfold compare
  rw [hdefined, h.any_eq]
  split
  · exact ⟨rfl, List.Perm.refl _⟩
  · simp only [h.any_eq]
    exact ⟨trivial, h.filter _⟩

/-- A comparison reports nothing when every alternative has a compatible one on the other side. -/
theorem isEmpty_compare {d f : Ty}
    (hwrong : ∀ m ∈ expand d, ∃ m' ∈ expand f, compatible m m' = true)
    (hmissing : ∀ m' ∈ expand f, ∃ m ∈ expand d, compatible m m' = true) :
    (compare d f).isEmpty = true := by
  unfold compare
  split
  · rfl
  · simp only [Comparison.isEmpty, Bool.and_eq_true, List.isEmpty_iff, List.filter_eq_nil_iff]
    refine ⟨?_, ?_⟩
    · intro m hm
      simpa using hwrong m hm
    · intro m' hm'
      obtain ⟨m, hm, h⟩ := hmissing m' hm'
      simp only [Bool.not_eq_true', not_and, Bool.not_eq_false]
      intro _
      exact List.any_eq_true.2 ⟨m, hm, h⟩

end Ty

end HintCheck
