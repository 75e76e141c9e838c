/-
**Two spellings of null.**

Documentation can spell a type together with null as `?T` or as `T|null`.  Both have the same
alternatives, so the short form should cost one remark, which asks for the other spelling, and hide
nothing.  This module shows when it does.  Five of the six checks of a documentation look through
the question mark or ask for the alternatives; the check of what has no place in documentation looks
for an array of plain arrays among the members, and there a `?T` is one member by itself.  So the
short form hides the remark on `array[]`, and nothing else.

Main definitions:

* `HintCheck.Check.documentation` — the checks of a documentation, in order;
* `HintCheck.Inspection.tally` — how much each of several checks adds, one after the other;
* `HintCheck.Inspection.OneMore` — an inspection shows what another does, and the short form.

Main results:

* `HintCheck.Inspection.tally_eq` — a check adds what it finds at the subject, whatever was found
  before;
* `HintCheck.Ty.contains_optional` — what the checks look for is in both spellings, or in neither;
* `HintCheck.Check.length_findings_optional` — how many remarks each check makes on both spellings;
* `HintCheck.oneMore_iff` — **the short form hides nothing exactly when the type is no array of
  plain arrays**; `HintCheck.not_oneMore_of_plain_arrays` is one that is.
-/

import HintCheck.Inspect.Check
import HintCheck.Proofs.Ty.Normal
import Mathlib.Algebra.GroupWithZero.Nat

set_option relaxedAutoImplicit false
set_option autoImplicit false

namespace HintCheck

/-! ### What checks add -/

/-- The checks of a documentation, in order: those of `HintCheck.Check.ofDocumentation`, but where
`inComment` is not set, arrays have to be documented only where there is no comment at all. -/
def Check.documentation (inComment : Bool) : List Check :=
  [.arrayUndocumented inComment, .typeSuggested, .nullShortened, .typeNeedless, .typeInvalid,
    .typeMismatch]

theorem Check.side_of_mem_documentation {inComment : Bool} {c : Check}
    (h : c ∈ Check.documentation inComment) : c.side = .documentation := by
  simp only [Check.documentation, List.mem_cons, List.not_mem_nil, or_false] at h
  rcases h with rfl | rfl | rfl | rfl | rfl | rfl <;> rfl

namespace Inspection

/-- How many warnings each of several checks adds to an inspection, one after the other. -/
def tally : Inspection → List Check → List Nat
  | _, [] => []
  | i, c :: cs => ((i.run c).warnings.length - i.warnings.length) :: (i.run c).tally cs

/-- A check adds what it finds at the subject. -/
theorem length_warnings_run (i : Inspection) (c : Check) :
    (i.run c).warnings.length = i.warnings.length + (c.findings i.subject).length := by
  cases h : c.side with
  | declaration =>
      simp [run, add, h, warnings]
      omega
  | documentation =>
      simp [run, add, h, warnings]
      omega

/-- What a check adds does not depend on what was found before. -/
theorem tally_eq (i : Inspection) (cs : List Check) :
    i.tally cs = cs.map fun c => (c.findings i.subject).length := by
  induction cs generalizing i with
  | nil => rfl
  | cons c cs ih =>
      rw [tally, ih, length_warnings_run, subject_run, List.map_cons, Nat.add_sub_cancel_left]

theorem length_warnings_foldl_run (i : Inspection) (cs : List Check) :
    (cs.foldl run i).warnings.length = i.warnings.length + (i.tally cs).sum := by
  induction cs generalizing i with
  | nil => simp [tally]
  | cons c cs ih =>
      have hstep := length_warnings_run i c
      rw [List.foldl_cons, ih, tally, List.sum_cons]
      omega

/-- Of several checks, made one after the other, each adds to one inspection as many warnings as to
another, but the check of the short form adds one more; so there is one warning more in all. -/
structure OneMore (cs : List Check) (i j : Inspection) : Prop where
  each : i.tally cs =
    List.zipWith (· + ·) (j.tally cs) (cs.map fun c => if c = .nullShortened then 1 else 0)
  total : (cs.foldl run i).warnings.length = (cs.foldl run j).warnings.length + 1

theorem tally_eq_zipWith_iff {cs : List Check} {i j : Inspection} {extra : Check → Nat} :
    i.tally cs = List.zipWith (· + ·) (j.tally cs) (cs.map extra) ↔
      ∀ c ∈ cs, (c.findings i.subject).length = (c.findings j.subject).length + extra c := by
  rw [tally_eq, tally_eq, List.zipWith_map, List.zipWith_self, List.map_inj_left]

end Inspection

/-! ### What the checks look at -/

namespace Ty

/-- A short form contains what the union with null contains. -/
theorem contains_optional {k : Kind} (hunion : k ≠ .union) (hoptional : k ≠ .optional) (t : Ty) :
    contains k (optional t) = contains k (union [t, atom .null]) := by
  have hunion : (k == .union) = false := by simpa using hunion
  have hoptional : (k == .optional) = false := by simpa using hoptional
  have hnull : (Kind.atom .null == k) = (k == .atom .null) := BEq.comm
  simp [contains, anyContains, kind, hunion, hoptional, hnull, Bool.or_comm]

theorem fakeArray?_union_null (t : Ty) :
    fakeArray? (union [t, atom .null]) = if isFakeArray t then some t else none := by
  have hnull : isFakeArray (atom .null) = false := rfl
  cases h : isFakeArray t <;> simp [fakeArray?, members, h, hnull]

end Ty

/-! ### The checks -/

namespace Check

open Ty

@[simp] theorem length_when (b : Bool) (r : Remark) : (when b r).length = if b then 1 else 0 := by
  cases b <;> rfl

variable (s : Subject) (line : Nat) {t : Ty}

/-- How many remarks a check of the documentation makes on the two spellings: one more on the short
form where it is itself remarked on, and one less where an array of plain arrays is. -/
theorem length_findings_optional (hm : IsMember t) {c : Check} (hside : c.side = .documentation) :
    (c.findings (s.withTag ⟨line, optional t⟩)).length +
        (if c = .typeInvalid ∧ isFakeArray t = true then 1 else 0) =
      (c.findings (s.withTag ⟨line, union [t, atom .null]⟩)).length +
        (if c = .nullShortened then 1 else 0) := by
  have hcontains : ∀ k, k ≠ .union → k ≠ .optional →
      (s.withTag ⟨line, optional t⟩).docContains k =
        (s.withTag ⟨line, union [t, atom .null]⟩).docContains k := fun k h h' =>
    contains_optional h h' t
  have harray := hcontains .array (by decide) (by decide)
  have hplain := hcontains (.atom .array) (by decide) (by decide)
  have hvoid := hcontains (.atom .void) (by decide) (by decide)
  cases c with
  | declMissing => cases hside
  | declSuggested => cases hside
  | arrayUndocumented inComment =>
      have hsame : arrays (s.withTag ⟨line, optional t⟩) inComment =
          arrays (s.withTag ⟨line, union [t, atom .null]⟩) inComment := by
        simp only [arrays, harray, hplain]
        rfl
      simp [findings, hsame]
  | typeSuggested => rfl
  | nullShortened => rfl
  | typeNeedless =>
      have hsame : needless (s.withTag ⟨line, optional t⟩) =
          needless (s.withTag ⟨line, union [t, atom .null]⟩) := by
        simp only [needless, harray, hplain]
        rfl
      simp [findings, hsame]
  | typeInvalid =>
      have hshort : (s.withTag ⟨line, optional t⟩).doc?.bind fakeArray? = none := rfl
      have hlong : (s.withTag ⟨line, union [t, atom .null]⟩).doc?.bind fakeArray? =
          if isFakeArray t then some t else none := fakeArray?_union_null t
      simp only [findings, invalid, harray, hplain, hvoid, hshort, hlong]
      cases isFakeArray t with
      | false => simp [Subject.withTag]
      | true =>
          simp [Subject.withTag]
          omega
  | typeMismatch =>
      have hperm : (expand (optional t)).Perm (expand (union [t, atom .null])) := by
        rw [expand, expand_of_isMember hm, expand]
        exact List.Perm.swap ..
      have htarget : target (s.withTag ⟨line, optional t⟩) =
          target (s.withTag ⟨line, union [t, atom .null]⟩) := rfl
      have hshort : (s.withTag ⟨line, optional t⟩).definedDoc? = some (optional t) := rfl
      have hlong : (s.withTag ⟨line, union [t, atom .null]⟩).definedDoc? =
          some (union [t, atom .null]) := rfl
      have hdefined : (optional t).isDefined = (union [t, atom .null]).isDefined := rfl
      obtain ⟨hwrong, hmissing⟩ := compare_perm hdefined hperm
        (f := (target (s.withTag ⟨line, union [t, atom .null]⟩)).1)
      simp only [findings, mismatch, hshort, hlong, htarget, hmissing, List.length_append,
        length_when, hwrong.isEmpty_eq]
      simp

/-- Of an array of plain arrays, what has no place in documentation is found only beside a bar. -/
theorem findings_plain_arrays (h : isFakeArray t = true) :
    typeInvalid.findings (s.withTag ⟨line, optional t⟩) = [] ∧
      typeInvalid.findings (s.withTag ⟨line, union [t, atom .null]⟩) = [.arrayOfArrays t] := by
  obtain ⟨d, rfl⟩ : ∃ d, t = array (atom .array) d := by
    unfold isFakeArray at h
    split at h
    · exact ⟨_, rfl⟩
    · cases h
  have hfake : fakeArray? (union [array (atom .array) d, atom .null]) =
      some (array (atom .array) d) := rfl
  refine ⟨?_, ?_⟩
  · simp [findings, invalid, Subject.docContains, Subject.doc?, Subject.withTag, contains, kind,
      when, fakeArray?, members, isFakeArray]
  · simp [findings, invalid, Subject.docContains, Subject.doc?, Subject.withTag, contains,
      anyContains, kind, when, hfake]

end Check

/-! ### The two spellings -/

open Ty

variable {t : Ty}

/-- **The short form hides nothing exactly when the type is no array of plain arrays.**  It is
remarked on itself, the union with null is not, and every other check makes as many remarks on both;
but on an array of plain arrays only the union is remarked on. -/
theorem oneMore_iff (hn : Normal t) (hopt : nullable t = optional t) (s : Subject) (line : Nat)
    (inComment : Bool) :
    Check.nullShortened.findings (s.withTag ⟨line, optional t⟩) = [.shortForm (optional t)] ∧
    Check.nullShortened.findings (s.withTag ⟨line, unionOf [t, atom .null]⟩) = [] ∧
    (Inspection.OneMore (Check.documentation inComment)
        { subject := s.withTag ⟨line, optional t⟩ }
        { subject := s.withTag ⟨line, unionOf [t, atom .null]⟩ } ↔
      isFakeArray t = false) ∧
    (isFakeArray t = true →
      Check.typeInvalid.findings (s.withTag ⟨line, optional t⟩) = [] ∧
      Check.typeInvalid.findings (s.withTag ⟨line, unionOf [t, atom .null]⟩) =
        [.arrayOfArrays t]) := by
  have hoption := isOptionable_of_nullable hopt
  rw [unionOf_of_normal (normal_union_null hn hoption)]
  have hcount (c : Check) (hc : c ∈ Check.documentation inComment) :=
    Check.length_findings_optional s line (isMember_of_isOptionable hoption)
      (Check.side_of_mem_documentation hc)
  refine ⟨rfl, rfl, ⟨?_, ?_⟩, Check.findings_plain_arrays s line⟩
  · intro h
    have hmem : Check.typeInvalid ∈ Check.documentation inComment := by simp [Check.documentation]
    have heach := Inspection.tally_eq_zipWith_iff.1 h.each _ hmem
    have hinvalid := hcount _ hmem
    cases hfake : isFakeArray t with
    | false => rfl
    | true =>
        simp [hfake] at hinvalid heach
        omega
  · intro hfake
    have heach : ∀ c ∈ Check.documentation inComment,
        (c.findings (s.withTag ⟨line, optional t⟩)).length =
          (c.findings (s.withTag ⟨line, union [t, atom .null]⟩)).length +
            if c = .nullShortened then 1 else 0 := by
      intro c hc
      simpa [hfake] using hcount c hc
    refine ⟨Inspection.tally_eq_zipWith_iff.2 heach, ?_⟩
    rw [Inspection.length_warnings_foldl_run, Inspection.length_warnings_foldl_run,
      Inspection.tally_eq, Inspection.tally_eq, List.map_congr_left heach]
    simp [Check.documentation, Inspection.warnings]
    omega

/-- On a property documented as `?A[][]`, nothing is hidden that is found with `A[][]|null`. -/
theorem oneMore_iff_of_class_arrays :
    Inspection.OneMore (Check.documentation true)
      { subject := (Subject.plain "property $p".toList .property .undefined 9).withTag
          ⟨8, optional (array (named "A".toList) 2)⟩ }
      { subject := (Subject.plain "property $p".toList .property .undefined 9).withTag
          ⟨8, unionOf [array (named "A".toList) 2, atom .null]⟩ } := by
  have hn : Normal (array (named "A".toList) 2) := ⟨by decide, trivial, trivial⟩
  exact (oneMore_iff hn rfl _ 8 true).2.2.1.2 rfl

/-- A parameter documented as `?array[]` is not told of the plain arrays inside, which one that is
documented as `array[]|null` is. -/
theorem not_oneMore_of_plain_arrays :
    Normal (array (atom .array) 1) ∧
    nullable (array (atom .array) 1) = optional (array (atom .array) 1) ∧
    ¬Inspection.OneMore (Check.documentation true)
      { subject := (Subject.plain "parameter $x".toList .param (optional (atom .array)) 5).withTag
          ⟨3, optional (array (atom .array) 1)⟩ }
      { subject := (Subject.plain "parameter $x".toList .param (optional (atom .array)) 5).withTag
          ⟨3, unionOf [array (atom .array) 1, atom .null]⟩ } := by
  refine ⟨⟨by decide, trivial, trivial⟩, rfl, fun h => ?_⟩
  have hinvalid := Inspection.tally_eq_zipWith_iff.1 h.each .typeInvalid (by decide)
  exact absurd hinvalid (by decide)

end HintCheck
