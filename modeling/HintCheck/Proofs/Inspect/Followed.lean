/-
**Following a suggestion.**

Where the tag of a parameter or a result has no type, a check suggests one, from the declaration.
The suggestion is a text, and it should content the checks once it stands in the tag.  This module
shows that it does, for declarations without element types and type parameters.  The one exception
is the result that is declared `void`: the type of its tag is needless, whoever suggested it.

Main definitions:

* `HintCheck.Ty.IsPartless` — the declared types without element types and type parameters.

Main results:

* `HintCheck.Inspection.foldl_run_documentation` — what the checks of a documentation add, one
  after the other;
* `HintCheck.Subject.accepts_suggestedDoc` — a subject accepts the type that is suggested for it;
* `HintCheck.Inspection.foldl_run_of_accepts` — what is found with a type that is accepted;
* `HintCheck.followed_suggestion` — **nothing, but for a result that is declared `void`**;
  `HintCheck.followed_void_is_needless` is one that is.
-/

import HintCheck.Proofs.Inspect.NullSpelling
import HintCheck.Proofs.Inspect.Silent
import HintCheck.Proofs.Ty.ExampleDoc

set_option relaxedAutoImplicit false
set_option autoImplicit false

namespace HintCheck

namespace Ty

/-! ### Types without parts -/

/-- A declared type without element types and type parameters, with plain names of classes. -/
structure IsPartless (t : Ty) : Prop where
  normal : Normal t
  names : PlainNames t
  noElement : t.contains .array = false
  noParams : t.contains .generic = false

variable {t m : Ty}

/-- Without parts, `?T` stands at the outermost place only. -/
theorem IsPartless.optionalAtRoot (h : IsPartless t) : OptionalAtRoot t := by
  rcases flat_cases h.normal h.noElement h.noParams with
    hflat | ⟨ms, rfl, hms⟩ | ⟨u, rfl, hflat, _⟩
  · exact .without hflat.optionalFree
  · exact .without (.union fun m hm => (hms m hm).optionalFree)
  · exact .optional hflat.optionalFree

theorem IsPartless.isFlat (h : IsPartless t) (hm : m ∈ expand t) : IsFlat m :=
  isFlat_of_mem_expand h.normal h.noElement h.noParams hm

/-! ### The members of a suggestion -/

/-- A type that is no `?T` contains only what one of its members contains. -/
theorem contains_of_forall_members {k : Kind} (hunion : k ≠ .union) (ht : ∀ u, t ≠ optional u)
    (h : ∀ m ∈ t.members, m.contains k = false) : t.contains k = false := by
  cases t with
  | union ms =>
      have hunion : (k == .union) = false := by simpa using hunion
      rw [contains, anyContains_eq, hunion, Bool.false_or, List.any_eq_false]
      simpa [members] using h
  | optional u => exact absurd rfl (ht u)
  | _ => exact h _ (List.mem_singleton.2 rfl)

theorem suggestedDoc_ne_optional (u : Ty) : suggestedDoc t ≠ optional u :=
  unionOf_ne_optional _ u

/-- Each member of the suggestion is what is suggested for an alternative of the declaration. -/
theorem exists_specific_of_mem_members (hn : Normal t) (hm : m ∈ (suggestedDoc t).members) :
    ∃ d ∈ expand t, m = specific d := by
  have hexpand : (suggestedDoc t).members = dedup ((flatten t).map specific) := by
    rw [← (expand_suggestedDoc hn).1]
    cases hs : suggestedDoc t with
    | optional u => exact absurd hs (suggestedDoc_ne_optional u)
    | _ => rfl
  rw [hexpand] at hm
  obtain ⟨d, hd, rfl⟩ := List.mem_map.1 (mem_of_mem_dedup hm)
  exact ⟨d, (mem_flatten_iff hn).1 hd, rfl⟩

/-- No plain array is suggested. -/
theorem contains_array_specific (h : IsMember m) :
    (specific m).contains (.atom .array) = false := by
  rcases specific_cases m with ⟨_, hs⟩ | ⟨hne, hs⟩
  · rw [hs]
    rfl
  · rw [hs]
    cases m with
    | atom a =>
        have ha : a ≠ .array := fun ha => hne (by rw [ha])
        simpa [contains, kind] using ha
    | named n => rfl
    | array e d => rfl
    | generic n ps => rfl
    | _ => exact h.elim

end Ty

open Ty

/-! ### The subject -/

/-- A subject accepts the type that is suggested for it. -/
theorem Subject.accepts_suggestedDoc {s : Subject} (hdecl : s.decl.IsPartless)
    (hvoid : s.kind = .param → s.decl.contains (.atom .void) = false) :
    s.Accepts (suggestedDoc s.decl) where
  isDefined := (expand_suggestedDoc hdecl.normal).2
  spelledOut := suggestedDoc_ne_optional
  noArray := by
    refine contains_of_forall_members nofun suggestedDoc_ne_optional fun m hm => ?_
    obtain ⟨d, hd, rfl⟩ := exists_specific_of_mem_members hdecl.normal hm
    exact contains_array_specific (hdecl.isFlat hd).isMember
  noFake := by
    refine List.find?_eq_none.2 fun m hm => ?_
    obtain ⟨d, hd, rfl⟩ := exists_specific_of_mem_members hdecl.normal hm
    simp [specific_of (P := fun m => isFakeArray m = false) rfl (hdecl.isFlat hd).isFakeArray_eq]
  noVoid hkind := by
    refine contains_of_forall_members nofun suggestedDoc_ne_optional fun m hm => ?_
    obtain ⟨d, hd, rfl⟩ := exists_specific_of_mem_members hdecl.normal hm
    exact specific_of (P := fun m => m.contains (.atom .void) = false) rfl
      (contains_of_mem_expand hd (hvoid hkind))
  fits := suggestedDoc_fits hdecl.normal

/-! ### The checks -/

/-- What the checks of a documentation add, one after the other. -/
theorem Inspection.foldl_run_documentation {cs : List Check}
    (h : ∀ c ∈ cs, c.side = .documentation) (i : Inspection) :
    cs.foldl run i = i.add .documentation (cs.flatMap fun c => c.findings i.subject) := by
  induction cs generalizing i with
  | nil => simp [add]
  | cons c cs ih =>
      have hside := h c (by simp)
      rw [List.foldl_cons, ih (fun c hc => h c (by simp [hc])), subject_run, run, hside]
      simp [add]

variable {s : Subject} {line : Nat}

/-- With a tag of a type that its subject accepts, the checks of a documentation add at most that
the tag is needless. -/
theorem Inspection.foldl_run_of_accepts {t : Ty} (hkind : s.OfRoutine)
    (hdeclared : s.decl.isDefined = true) (h : s.Accepts t) {i : Inspection}
    (hi : i.subject = s.withTag ⟨line, t⟩) (inComment : Bool) :
    (Check.documentation inComment).foldl run i =
      i.add .documentation (Check.when
        (s.kind == .result && Check.isVoid t && Check.isVoid s.decl) .needlessVoid) := by
  have hfindings :=
    Check.findings_of_accepts (s := s.withTag ⟨line, t⟩) hkind hdeclared rfl (h.withTag _)
  rw [foldl_run_documentation (fun c hc => Check.side_of_mem_documentation hc), hi]
  simp only [Check.documentation, List.flatMap_cons, List.flatMap_nil, hfindings, reduceCtorEq,
    if_false, if_true, List.nil_append, List.append_nil]
  rfl

/-- The suggestion of a check is a text that is read as the suggested type. -/
theorem findings_typeSuggested (hkind : s.OfRoutine) (htag : s.tag = some ⟨line, .undefined⟩)
    (hdecl : s.decl.IsPartless) :
    ∃ text, Check.typeSuggested.findings s = [.hintWithoutType (some text)] ∧
      read text = suggestedDoc s.decl := by
  obtain ⟨text, htext, hread⟩ := read_exampleDoc? hdecl.normal hdecl.names hdecl.optionalAtRoot
  have hdoc : s.doc? = some .undefined := by rw [Subject.doc?, htag]; rfl
  refine ⟨text, ?_, hread⟩
  rcases hkind with hkind | hkind
  · simp [Check.findings, Check.typeless, hdoc, hkind, htext]
  · simp [Check.findings, Check.typeless, hdoc, hkind, htext]

/-- **Following a suggestion leaves nothing to find**, but for a result that is declared `void`,
where the tag is needless. -/
theorem followed_suggestion (hkind : s.OfRoutine) (htag : s.tag = some ⟨line, .undefined⟩)
    (hdecl : s.decl.IsPartless)
    (hvoid : s.kind = .param → s.decl.contains (.atom .void) = false) :
    ∃ text, Check.typeSuggested.findings s = [.hintWithoutType (some text)] ∧
      ∀ (i : Inspection) (inComment : Bool), i.subject = s.withTag ⟨line, read text⟩ →
        (¬(s.kind = .result ∧ s.decl = atom .void) →
          (Check.documentation inComment).foldl Inspection.run i = i) ∧
        (s.kind = .result ∧ s.decl = atom .void →
          (Check.documentation inComment).foldl Inspection.run i =
            i.add .documentation [.needlessVoid]) := by
  obtain ⟨text, hsuggested, hread⟩ := findings_typeSuggested hkind htag hdecl
  refine ⟨text, hsuggested, fun i inComment hi => ?_⟩
  rw [hread] at hi
  rw [Inspection.foldl_run_of_accepts hkind hdecl.normal.isDefined
    (Subject.accepts_suggestedDoc hdecl hvoid) hi]
  refine ⟨fun hnot => ?_, ?_⟩
  · have hnone : (s.kind == .result && Check.isVoid (suggestedDoc s.decl) &&
        Check.isVoid s.decl) = false := by
      rw [Bool.eq_false_iff]
      intro h
      simp only [Bool.and_eq_true, beq_iff_eq] at h
      exact hnot ⟨h.1.1, Check.eq_void_of_isVoid h.2⟩
    simp [hnone, Check.when, Inspection.add]
  · rintro ⟨hresult, hdecl⟩
    rw [hresult, hdecl]
    rfl

/-- A parameter that is declared `?array` and whose tag has no type. -/
theorem followed_suggestion_of_optional_array :
    ∃ text, Check.typeSuggested.findings
        ((Subject.plain "parameter $x".toList .param (optional (atom .array)) 5).withTag
          ⟨3, .undefined⟩) = [.hintWithoutType (some text)] ∧
      (Check.documentation true).foldl Inspection.run
          { subject := (Subject.plain "parameter $x".toList .param (optional (atom .array))
              5).withTag ⟨3, read text⟩ } =
        { subject := (Subject.plain "parameter $x".toList .param (optional (atom .array))
            5).withTag ⟨3, read text⟩ } := by
  have hdecl : (optional (atom .array)).IsPartless :=
    ⟨⟨trivial, trivial⟩, .optional (.atom _), rfl, rfl⟩
  obtain ⟨text, hsuggested, hsilent⟩ := followed_suggestion
    (s := (Subject.plain "parameter $x".toList .param (optional (atom .array)) 5).withTag
      ⟨3, .undefined⟩) (Or.inl rfl) rfl hdecl (fun _ => rfl)
  exact ⟨text, hsuggested, (hsilent _ true rfl).1 nofun⟩

/-- Of a result that is declared `void`, the tag should have the type `void`; and with it, the tag
should be removed. -/
theorem followed_void_is_needless :
    ((Subject.plain "return value".toList .result (atom .void) 5).withTag
      ⟨3, .undefined⟩).OfRoutine ∧
    (atom .void).IsPartless ∧
    Check.typeSuggested.findings
        ((Subject.plain "return value".toList .result (atom .void) 5).withTag ⟨3, .undefined⟩) =
      [.hintWithoutType (some "void".toList)] ∧
    ((Check.documentation true).foldl Inspection.run
        { subject := (Subject.plain "return value".toList .result (atom .void) 5).withTag
            ⟨3, read "void".toList⟩ }).warnings =
      [(3, "Remove @return void tag, not necessary".toList)] := by
  have hread : read "void".toList = atom .void := read_word (isWord_text .void)
  have hdecl : (atom .void).IsPartless := ⟨trivial, .atom _, rfl, rfl⟩
  refine ⟨Or.inr rfl, hdecl, rfl, ?_⟩
  rw [hread, Inspection.foldl_run_of_accepts (Or.inr rfl) rfl
    (Subject.accepts_suggestedDoc (s := Subject.plain "return value".toList .result (atom .void) 5)
      hdecl nofun) rfl]
  rfl

end HintCheck
