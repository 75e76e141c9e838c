/-
**Declarations that leave nothing to say.**

Some declared types tell everything that documentation could: built-in types and classes, without
arrays, `void` and classes with parameters.  This module shows that no check finds anything at such
a declaration, neither without a tag nor with a tag that spells the declared type out.

A tag spells `?T` as the union of `T` and null, so that the documented type and the declared one may
differ.  They have the same alternatives nevertheless, and this is what the checks look at.

Main definitions:

* `HintCheck.Ty.IsExplicit` — the declared types that leave nothing to say;
* `HintCheck.Ty.IsFlat` — the types without parts;
* `HintCheck.Subject.Accepts` — the documented types that suit a subject.

Main results:

* `HintCheck.Ty.IsExplicit.cases` — the shapes of these types;
* `HintCheck.Ty.IsExplicit.mem_expand_denull`, `HintCheck.Ty.IsExplicit.compare_denull` — with one
  spelling of null they keep their alternatives, so that a comparison finds nothing;
* `HintCheck.Check.findings_of_accepts` — with a tag that suits the subject, only a needless `void`
  can be found;
* `HintCheck.Check.findings_of_untagged`, `HintCheck.Check.findings_of_repeated` — **no check finds
  anything**, without a tag and with one.
-/

import HintCheck.Inspect.Check
import HintCheck.Proofs.Ty.DeclText

set_option relaxedAutoImplicit false
set_option autoImplicit false

namespace HintCheck

namespace Ty

/-! ### Explicit types -/

/-- The forms of types about which documentation can say more than a declaration. -/
def vagueKinds : List Kind := [.atom .array, .atom .void, .array, .generic]

/-- A declared type that leaves nothing to say. -/
structure IsExplicit (t : Ty) : Prop where
  normal : Normal t
  names : PlainNames t
  lacks : ∀ k ∈ vagueKinds, t.contains k = false

/-- A type without parts: a built-in type or a class. -/
def IsFlat : Ty → Prop
  | atom _ => True
  | named _ => True
  | _ => False

theorem IsFlat.isMember {t : Ty} (h : IsFlat t) : IsMember t := by
  cases t <;> first | exact trivial | exact absurd h (by simp [IsFlat])

theorem IsFlat.optionalFree {t : Ty} (h : IsFlat t) : OptionalFree t := by
  cases t with
  | atom a => exact .atom a
  | named n => exact .named n
  | _ => exact h.elim

theorem IsFlat.isFakeArray_eq {t : Ty} (h : IsFlat t) : isFakeArray t = false := by
  cases t <;> first | rfl | exact h.elim

/-- A member of a union that is neither an array nor a class with parameters has no parts. -/
theorem isFlat_of_isMember {t : Ty} (hm : IsMember t) (harray : t.contains .array = false)
    (hgeneric : t.contains .generic = false) : IsFlat t := by
  cases t with
  | atom a => trivial
  | named n => trivial
  | array e d => exact absurd harray (by simp [contains, kind])
  | generic n ps => exact absurd hgeneric (by simp [contains, kind])
  | _ => exact hm.elim

/-- What a type does not contain is in none of its alternatives. -/
theorem contains_of_mem_expand {t m : Ty} {k : Kind} (hm : m ∈ expand t)
    (h : t.contains k = false) : m.contains k = false := by
  have hself : ∀ t : Ty, expand t = [t] → m ∈ expand t → t.contains k = false →
      m.contains k = false := by
    intro t ht hm h
    rw [ht] at hm
    rwa [List.mem_singleton.1 hm]
  induction t using induct with
  | union ms =>
      simp only [contains, anyContains_eq, Bool.or_eq_false_iff, List.any_eq_false] at h
      simpa using h.2 m hm
  | optional t ih =>
      simp only [contains, Bool.or_eq_false_iff] at h
      rcases List.mem_cons.1 hm with rfl | hm
      · rw [contains, kind, BEq.comm]
        · exact h.1.2
        · nofun
        · nofun
      · exact ih hm h.2
  | atom a => exact hself _ rfl hm h
  | named n => exact hself _ rfl hm h
  | array e d => exact hself _ rfl hm h
  | generic n ps => exact hself _ rfl hm h
  | undefined => exact hself _ rfl hm h

/-- The alternatives of types without arrays and classes with parameters have no parts. -/
theorem isFlat_of_mem_expand {t m : Ty} (hn : Normal t) (harray : t.contains .array = false)
    (hgeneric : t.contains .generic = false) (hm : m ∈ expand t) : IsFlat m :=
  isFlat_of_isMember ((alternatives_expand hn).isMember m hm) (contains_of_mem_expand hm harray)
    (contains_of_mem_expand hm hgeneric)

/-- The shapes of these types. -/
theorem flat_cases {t : Ty} (hn : Normal t) (harray : t.contains .array = false)
    (hgeneric : t.contains .generic = false) :
    IsFlat t ∨ (∃ ms, t = union ms ∧ ∀ m ∈ ms, IsFlat m) ∨
      ∃ u, t = optional u ∧ IsFlat u ∧ IsOptionable u := by
  have hflat : ∀ m ∈ expand t, IsFlat m := fun m hm =>
    isFlat_of_mem_expand hn harray hgeneric hm
  cases t with
  | union ms => exact Or.inr (Or.inl ⟨ms, rfl, hflat⟩)
  | optional u =>
      refine Or.inr (Or.inr ⟨u, rfl, hflat u ?_, hn.1⟩)
      simp [expand, expand_of_isMember (isMember_of_isOptionable hn.1)]
  | undefined => exact absurd hn (by simp [Normal])
  | _ => exact Or.inl (hflat _ (List.mem_singleton.2 rfl))

/-- The shapes of explicit types. -/
theorem IsExplicit.cases {t : Ty} (h : IsExplicit t) :
    IsFlat t ∨ (∃ ms, t = union ms ∧ ∀ m ∈ ms, IsFlat m) ∨
      ∃ u, t = optional u ∧ IsFlat u ∧ IsOptionable u :=
  flat_cases h.normal (h.lacks _ (by decide)) (h.lacks _ (by decide))

/-- An explicit type with one spelling of null. -/
theorem IsExplicit.denull_cases {t : Ty} (h : IsExplicit t) :
    (denull t = t ∧ (∀ m ∈ t.members, IsFlat m) ∧ ∀ u, t ≠ optional u) ∨
      ∃ u, t = optional u ∧ IsFlat u ∧ denull t = union [u, atom .null] := by
  rcases h.cases with hflat | ⟨ms, rfl, hms⟩ | ⟨u, rfl, hflat, hoption⟩
  · refine Or.inl ⟨denull_of_optionalFree hflat.optionalFree h.normal.normalOrAbsent, ?_, ?_⟩
    · cases t with
      | atom a => simpa [members] using hflat
      | named n => simpa [members] using hflat
      | _ => exact hflat.elim
    · rintro u rfl
      exact hflat
  · refine Or.inl ⟨denull_of_optionalFree ?_ h.normal.normalOrAbsent, hms, nofun⟩
    exact .union fun m hm => (hms m hm).optionalFree
  · refine Or.inr ⟨u, rfl, hflat, ?_⟩
    have hu : denull u = u :=
      denull_of_optionalFree hflat.optionalFree h.normal.2.normalOrAbsent
    rw [denull, hu, unionOf_of_normal (normal_union_null h.normal.2 hoption)]

/-- With one spelling of null, the alternatives stay the same. -/
theorem IsExplicit.mem_expand_denull {t : Ty} (h : IsExplicit t) (m : Ty) :
    m ∈ expand (denull t) ↔ m ∈ expand t := by
  rcases h.denull_cases with ⟨heq, _⟩ | ⟨u, rfl, hflat, heq⟩
  · rw [heq]
  · rw [heq, expand, expand, expand_of_isMember hflat.isMember]
    simp [or_comm]

/-- What documents an explicit type is defined, has no parts and no `?T`. -/
theorem IsExplicit.documented {t : Ty} (h : IsExplicit t) :
    (denull t).isDefined = true ∧ (∀ u, denull t ≠ optional u) ∧
      (∀ m ∈ (denull t).members, IsFlat m) ∧ ∀ k ∈ vagueKinds, (denull t).contains k = false := by
  rcases h.denull_cases with ⟨heq, hflat, hoptional⟩ | ⟨u, rfl, hflat, heq⟩
  · rw [heq]
    exact ⟨h.normal.isDefined, hoptional, hflat, h.lacks⟩
  · rw [heq]
    refine ⟨rfl, nofun, by simpa [members] using ⟨hflat, trivial⟩, fun k hk => ?_⟩
    have hlacks := h.lacks k hk
    simp only [contains, Bool.or_eq_false_iff] at hlacks
    have hunion : ∀ k ∈ vagueKinds, (k == .union) = false ∧ (Kind.atom .null == k) = false := by
      decide
    simp [contains, anyContains, hlacks.2, kind, hunion k hk]

/-- Nothing is found when an explicit type is compared with its documentation. -/
theorem IsExplicit.compare_denull {t : Ty} (h : IsExplicit t) :
    (compare (denull t) t).isEmpty = true := by
  have halternatives := alternatives_expand h.normal
  have hself : ∀ m ∈ expand t, compatible m m = true := fun m hm =>
    compatible_of_same (halternatives.isMember m hm) (halternatives.normal m hm) (same_refl m)
  refine isEmpty_compare (fun m hm => ?_) fun m hm => ?_
  · have hm := (h.mem_expand_denull m).1 hm
    exact ⟨m, hm, hself m hm⟩
  · exact ⟨m, (h.mem_expand_denull m).2 hm, hself m hm⟩

end Ty

/-! ### The checks -/

/-- A subject of a routine: a parameter or a result. -/
def Subject.OfRoutine (s : Subject) : Prop := s.kind = .param ∨ s.kind = .result

/-- A documented type that suits a subject of a routine: null is spelled out, the values of arrays
are told, `void` is no parameter, and the declaration is met. -/
structure Subject.Accepts (s : Subject) (t : Ty) : Prop where
  isDefined : t.isDefined = true
  spelledOut : ∀ u, t ≠ .optional u
  noArray : t.contains (.atom .array) = false
  noFake : t.fakeArray? = none
  noVoid : s.kind = .param → t.contains (.atom .void) = false
  fits : (t.compare s.decl).isEmpty = true

/-- Which types a subject accepts does not depend on its tag. -/
theorem Subject.Accepts.withTag {s : Subject} {t : Ty} (h : s.Accepts t) (tag : Typing) :
    (s.withTag tag).Accepts t :=
  ⟨h.isDefined, h.spelledOut, h.noArray, h.noFake, h.noVoid, h.fits⟩

namespace Check

open Ty

theorem eq_void_of_isVoid {t : Ty} (h : isVoid t = true) : t = atom .void := by
  unfold isVoid at h
  split at h
  · rfl
  · cases h

/-- **Without a tag no check finds anything** at an explicit declaration. -/
theorem findings_of_untagged {s : Subject} (hkind : s.OfRoutine) (hdecl : IsExplicit s.decl)
    (htag : s.tag = none) (c : Check) : c.findings s = [] := by
  have hdefined := hdecl.normal.isDefined
  have harray : s.decl.contains (.atom .array) = false := hdecl.lacks _ (by decide)
  have hdoc : s.doc? = none := by rw [Subject.doc?, htag]; rfl
  have hcontains : ∀ k, s.docContains k = false := fun k => by rw [Subject.docContains, hdoc]; rfl
  have hnodoc : s.definedDoc? = none := by rw [Subject.definedDoc?, hdoc]; rfl
  cases c with
  | declMissing => simp [findings, untyped, hdefined]
  | declSuggested => simp [findings, declarable, hdefined]
  | arrayUndocumented inComment =>
      rcases hkind with hkind | hkind
      · simp [findings, arrays, hkind, harray, when]
      · simp [findings, arrays, hkind, harray, when]
  | typeSuggested => simp [findings, typeless, hdoc]
  | nullShortened => simp [findings, shortened, hdoc]
  | typeNeedless => simp [findings, needless, hdoc, hcontains, when]
  | typeInvalid => simp [findings, invalid, hdoc, hcontains, when]
  | typeMismatch => simp [findings, mismatch, hnodoc]

/-- With a tag of a type that a subject accepts, only a needless `void` can be found. -/
theorem findings_of_accepts {s : Subject} {t : Ty} {line : Nat} (hkind : s.OfRoutine)
    (hdeclared : s.decl.isDefined = true) (htag : s.tag = some ⟨line, t⟩) (h : s.Accepts t)
    (c : Check) :
    c.findings s =
      if c = .typeNeedless then when (s.kind == .result && isVoid t && isVoid s.decl) .needlessVoid
      else [] := by
  have hdoc : s.doc? = some t := by rw [Subject.doc?, htag]; rfl
  have hcontains : ∀ k, s.docContains k = t.contains k := fun k => by
    rw [Subject.docContains, hdoc]
    rfl
  cases c with
  | declMissing => simp [findings, untyped, hdeclared]
  | declSuggested => simp [findings, declarable, hdeclared]
  | arrayUndocumented inComment =>
      rcases hkind with hkind | hkind
      · simp [findings, arrays, hkind, htag, when]
      · simp [findings, arrays, hkind, htag, when]
  | typeSuggested =>
      have hdefined := h.isDefined
      rw [findings, typeless, hdoc]
      split
      · next heq =>
        rw [Option.some_inj.1 heq] at hdefined
        cases hdefined
      · rfl
  | nullShortened =>
      rw [findings, shortened, hdoc]
      split
      · next u heq => exact absurd (Option.some_inj.1 heq) (h.spelledOut u)
      · rfl
  | typeNeedless => simp [findings, needless, hdoc, hcontains, h.noArray, when]
  | typeInvalid =>
      have hvoid : (s.kind != .result && t.contains (.atom .void)) = false := by
        rcases hkind with hkind | hkind
        · simp [h.noVoid hkind]
        · simp [hkind]
      simp [findings, invalid, hdoc, hcontains, h.noArray, h.noFake, hvoid, when]
  | typeMismatch =>
      have hcompare := h.fits
      simp only [Comparison.isEmpty, Bool.and_eq_true] at hcompare
      have htarget : target s = (s.decl, "type declaration".toList, false) := by
        rcases hkind with hkind | hkind
        · simp [target, hkind]
        · simp [target, hkind]
      have hdefinedDoc : s.definedDoc? = some t := by
        simp [Subject.definedDoc?, hdoc, h.isDefined]
      simp [findings, mismatch, hdefinedDoc, htarget, hcompare, when]

theorem accepts_of_isExplicit {s : Subject} (hdecl : IsExplicit s.decl) :
    s.Accepts (denull s.decl) := by
  obtain ⟨hdefined, hoptional, hflat, hlacks⟩ := hdecl.documented
  refine ⟨hdefined, hoptional, hlacks _ (by decide), ?_, fun _ => hlacks _ (by decide),
    hdecl.compare_denull⟩
  refine List.find?_eq_none.2 fun m hm => ?_
  simp [(hflat m hm).isFakeArray_eq]

/-- **With a tag that repeats the declaration no check finds anything** either. -/
theorem findings_of_repeated {s : Subject} (line : Nat) (hkind : s.OfRoutine)
    (hdecl : IsExplicit s.decl) (htag : s.tag = some ⟨line, denull s.decl⟩) (c : Check) :
    c.findings s = [] := by
  have hvoid : isVoid s.decl = false := by
    cases hv : isVoid s.decl with
    | false => rfl
    | true =>
        have hnot := hdecl.lacks (.atom .void) (by decide)
        rw [eq_void_of_isVoid hv] at hnot
        cases hnot
  rw [findings_of_accepts hkind hdecl.normal.isDefined htag (accepts_of_isExplicit hdecl)]
  simp [hvoid, when]

end Check

/-! ### Inspections -/

/-- Checks that find nothing leave an inspection as it is. -/
theorem Inspection.foldl_run_eq_self {i : Inspection} (h : ∀ c : Check, c.findings i.subject = [])
    (cs : List Check) : cs.foldl run i = i := by
  induction cs with
  | nil => rfl
  | cons c cs ih =>
      have hrun : i.run c = i := by
        rw [run, h c]
        cases c.side <;> simp [add]
      rw [List.foldl_cons, hrun, ih]

end HintCheck
