/-
**Rules are local.**

The rule for functions and methods makes one report for a whole file, and it looks at that report
before it calls a comment needless.  All the same no diagnostic depends on what else the file
declares: the diagnostics of a file are those of its functions and classes, each taken by itself,
and those of a class at the rule for functions and methods are those of its methods.  What a rule
learns about other declarations it learns from the class index, and most rules do not ask it.

Main definitions:

* `HintCheck.SourceFile.onlyFunction`, `HintCheck.SourceFile.onlyClass`,
  `HintCheck.ClassDecl.onlyMethod` — a file with one declaration, a class with one method;
* `HintCheck.Search.Indexless` — the searches that do not ask the class index.

Main results:

* `HintCheck.Rule.Reports.run_eq_flatMap` — a rule that reports what a search finds is local;
* `HintCheck.Routine.findings_onlyMethod` — the other methods of its class do not matter to one;
* `HintCheck.run_local` — **rules are local.**
-/

import HintCheck.Proofs.Rule.Findings

set_option relaxedAutoImplicit false
set_option autoImplicit false

namespace HintCheck

/-! ### One declaration -/

/-- The file with one function and no other declaration. -/
def SourceFile.onlyFunction (f : SourceFile) (g : FunctionDecl) : SourceFile :=
  { f with functions := [g], classes := [], failures := [] }

/-- The file with one class and no other declaration. -/
def SourceFile.onlyClass (f : SourceFile) (c : ClassDecl) : SourceFile :=
  { f with functions := [], classes := [c], failures := [] }

/-- The class with one of its methods; its properties and constants are kept. -/
def ClassDecl.onlyMethod (c : ClassDecl) (k : MethodDecl) : ClassDecl := { c with methods := [k] }

variable {r : Rule} {q : Search}

/-! ### The declarations of a file -/

namespace Rule

theorem Reports.run_onlyFunction (h : r.Reports q) (f : SourceFile) (g : FunctionDecl)
    (x : ClassIndex) : r.run (f.onlyFunction g) x = r.diagnostics f (q.atFunction x g) := by
  have hfile : q.ofFile (f.onlyFunction g) x = q.atFunction x g := by
    simp [Search.ofFile, SourceFile.onlyFunction]
  rw [h.run, hfile]
  rfl

theorem Reports.run_onlyClass (h : r.Reports q) (f : SourceFile) (c : ClassDecl)
    (x : ClassIndex) : r.run (f.onlyClass c) x = r.diagnostics f (q.atClass x f.imports c) := by
  have hfile : q.ofFile (f.onlyClass c) x = q.atClass x f.imports c := by
    simp [Search.ofFile, SourceFile.onlyClass]
  rw [h.run, hfile]
  rfl

/-- A rule that reports what a search finds gives the diagnostics of the functions and of the
classes of a file, each taken by itself. -/
theorem Reports.run_eq_flatMap (h : r.Reports q) (f : SourceFile) (x : ClassIndex) :
    r.run f x =
      (f.functions.flatMap fun g => r.run (f.onlyFunction g) x) ++
        f.classes.flatMap fun c => r.run (f.onlyClass c) x := by
  simp only [h.run_onlyFunction, h.run_onlyClass]
  rw [h.run, Search.ofFile, diagnostics_append, diagnostics_flatMap, diagnostics_flatMap]

end Rule

/-! ### The methods of a class -/

namespace Routine

/-- What is found at a method depends on the kind, the name and the properties of its class, and not
on the other methods. -/
theorem findings_onlyMethod (c : ClassDecl) (k : MethodDecl) (m : MethodSettings)
    (useIndex : Bool) (x : ClassIndex) :
    (ofMethod (c.onlyMethod k) k).findings m useIndex x = (ofMethod c k).findings m useIndex x := by
  have hoverride : (ofMethod (c.onlyMethod k) k).isOverride x = (ofMethod c k).isOverride x := rfl
  have hgetter : (ofMethod (c.onlyMethod k) k).nullableGetter? = (ofMethod c k).nullableGetter? :=
    rfl
  have htypes : (ofMethod (c.onlyMethod k) k).typeFindings m = (ofMethod c k).typeFindings m := by
    simp only [typeFindings, getterFindings, hgetter]
    rfl
  have hbody : (ofMethod (c.onlyMethod k) k).bodyFindings m useIndex x =
      (ofMethod c k).bodyFindings m useIndex x := by
    simp only [bodyFindings, hoverride, htypes]
    rfl
  simp only [findings, faults, hbody]
  rfl

end Routine

/-- At the rule for functions and methods a class has the diagnostics of its methods, each taken by
itself. -/
theorem Rule.run_method_onlyClass (m : MethodSettings) (useIndex : Bool) (f : SourceFile)
    (c : ClassDecl) (x : ClassIndex) :
    (Rule.method m useIndex).run (f.onlyClass c) x =
      c.methods.flatMap fun k => (Rule.method m useIndex).run (f.onlyClass (c.onlyMethod k)) x := by
  have hclass := (reports_method m useIndex).run_onlyClass
  have hmethod : ∀ k, (Rule.method m useIndex).run (f.onlyClass (c.onlyMethod k)) x =
      (Rule.method m useIndex).diagnostics f ((Routine.ofMethod c k).findings m useIndex x) := by
    intro k
    rw [hclass, ← Routine.findings_onlyMethod]
    exact congrArg _ (List.append_nil _)
  simp only [hmethod]
  exact (hclass f c x).trans (diagnostics_flatMap _ _ _ _)

/-! ### The class index -/

/-- A search that does not ask the class index. -/
def Search.Indexless (q : Search) : Prop := ∀ f x y, q.ofFile f x = q.ofFile f y

/-- Where methods are not looked up above their classes, the class index does not matter. -/
theorem Search.indexless_method (m : MethodSettings) : (Search.method m false).Indexless := by
  intro f x y
  have hfindings : ∀ r : Routine, r.findings m false x = r.findings m false y := by
    intro r
    have hbody : r.bodyFindings m false x = r.bodyFindings m false y := by
      simp only [Routine.bodyFindings, Bool.false_and]
    have hfaults : r.faults m false x = r.faults m false y := by
      rw [Routine.faults, hbody, Routine.faults]
    rw [Routine.findings, hfaults, Routine.findings]
  simp only [Search.ofFile, Search.method, hfindings]

theorem Rule.Reports.run_congr (h : r.Reports q) (hq : q.Indexless) (f : SourceFile)
    (x y : ClassIndex) : r.run f x = r.run f y := by
  rw [h.run, h.run, hq f x y]

/-! ### All rules -/

/-- **Rules are local.**  Under any settings each rule gives the diagnostics of the functions of a
file and then of its classes, each taken by itself; at the rule for functions and methods a class
gives those of its methods.  The rules for properties, constants and descriptions give the same
diagnostics whatever other classes there are, and so does the rule for functions and methods where
it does not look methods up. -/
theorem run_local (s : Settings) (f : SourceFile) (x : ClassIndex) :
    (∀ r ∈ Rule.all s, r.run f x =
      (f.functions.flatMap fun g => r.run (f.onlyFunction g) x) ++
        f.classes.flatMap fun c => r.run (f.onlyClass c) x) ∧
    (∀ c, (Rule.method s.method s.useIndex).run (f.onlyClass c) x =
      c.methods.flatMap fun k =>
        (Rule.method s.method s.useIndex).run (f.onlyClass (c.onlyMethod k)) x) ∧
    ∀ y, Rule.property.run f x = Rule.property.run f y ∧
      Rule.constant.run f x = Rule.constant.run f y ∧
      (Rule.description s.classTags).run f x = (Rule.description s.classTags).run f y ∧
      (Rule.method s.method false).run f x = (Rule.method s.method false).run f y := by
  refine ⟨?_, ?_, ?_⟩
  · intro r hr
    obtain ⟨q, hq⟩ := Rule.exists_reports_of_mem_all hr
    exact hq.run_eq_flatMap f x
  · intro c
    exact Rule.run_method_onlyClass s.method s.useIndex f c x
  · intro y
    refine ⟨?_, ?_, ?_, ?_⟩
    · exact Rule.reports_property.run_congr (fun _ _ _ => rfl) f x y
    · exact Rule.reports_constant.run_congr (fun _ _ _ => rfl) f x y
    · exact (Rule.reports_description _).run_congr (fun _ _ _ => rfl) f x y
    · exact (Rule.reports_method _ _).run_congr (Search.indexless_method _) f x y

/-- A signature on a line, with an integer as its result. -/
def intSignature (line : Nat) (params : List Param) : Signature :=
  { line, name := "f".toList, params, result := .atom .int, resultLine := line }

/-- A parameter on a line, without a type. -/
def untypedParam (line : Nat) : Param :=
  { line, name := "a".toList, ty := .undefined, default := none, attributes := [], doc := none
    variadic := false, byRef := false, promoted := false }

/-- The comment with a tag on a line that says that the result is an integer. -/
def intComment (line : Nat) : Doc := some ⟨[], [.result ⟨line, .atom .int⟩ none]⟩

/-- A function with an untyped parameter in front of one whose comment repeats its signature, and a
class with two such methods. -/
def mixedFile : SourceFile :=
  { path := "f.php".toList
    source := []
    scope := none
    imports := []
    functions := [⟨3, intSignature 3 [untypedParam 3], none⟩, ⟨7, intSignature 7 [], intComment 6⟩]
    classes :=
      [{ line := 9, kind := .ordinary, name := "A".toList, fullName := "A".toList, scope := none
         doc := none, parent := none, interfaces := []
         methods :=
           [⟨11, intSignature 11 [untypedParam 11], none, none⟩,
             ⟨15, intSignature 15 [], intComment 14, none⟩]
         properties := [], constants := [] }]
    failures := []
    suppressions := .none }

/-- What is found at the first function and at the first method does not hide that the comments of
the others are needless. -/
theorem run_local_of_mixedFile :
    Rule.method {} false ∈ Rule.all {} ∧
    ((Rule.method {} false).run mixedFile .empty).map
        (fun d => (d.line, d.message == "Useless PHPDoc".toList)) =
      [(3, false), (7, true), (11, false), (15, true)] := by
  have hmem : Rule.method {} false ∈ Rule.all {} := List.mem_cons_self
  obtain ⟨hfile, hclass, -⟩ := run_local {} mixedFile .empty
  have hmethods : ∀ c, (Rule.method {} false).run (mixedFile.onlyClass c) .empty =
      c.methods.flatMap fun k =>
        (Rule.method {} false).run (mixedFile.onlyClass (c.onlyMethod k)) .empty := hclass
  refine ⟨hmem, ?_⟩
  rw [hfile _ hmem, funext hmethods]
  decide +kernel

end HintCheck
