/-
**What the rules find.**

A rule is a step of reporting: it takes a report and gives one with more diagnostics, and what it
does may depend on the report that it was given.  This module shows that it does not.  Each rule
looks at the functions and at the classes of a file one by one, and it reports, in order, a list of
findings that is the same for every report.  That is so even for the rule for functions and methods,
which looks at the count of findings before it calls a comment needless: the comment is needless
where nothing else was found at the same function or method.

Main definitions:

* `HintCheck.Routine.findings` — what is found at a function or a method;
* `HintCheck.Search` — what is found at each function and at each class;
* `HintCheck.Rule.Reports` — a rule reports what a search finds;
* `HintCheck.Rule.diagnostics` — the diagnostics for findings, less the silenced ones.

Main results:

* `HintCheck.Report.addAll_eq` — what reporting several findings does to a report;
* `HintCheck.Routine.check_eq_addAll` — the check of a function or a method reports its findings;
* `HintCheck.Rule.exists_reports_of_mem_all` — every rule reports what a search finds;
* `HintCheck.Rule.Reports.run` — and these are its diagnostics.
-/

import HintCheck.Analysis

set_option relaxedAutoImplicit false
set_option autoImplicit false

namespace HintCheck

/-! ### Reporting a list of findings -/

/-- Going through the members of a class is going through all and passing over the others. -/
theorem flatMap_filter {α β : Type} (p : α → Bool) (g : α → List β) (l : List α) :
    (l.filter p).flatMap g = l.flatMap fun a => if p a then g a else [] := by
  induction l with
  | nil => rfl
  | cons a l ih => cases h : p a <;> simp [h, ih]

namespace Report

/-- The findings that no comment silences. -/
def heard (r : Report) (findings : List Finding) : List Finding :=
  findings.filter fun finding => !r.suppressions.silences r.code finding.1

theorem add_eq (r : Report) (finding : Finding) :
    r.add finding =
      { r with
        raised := r.raised + 1
        diagnostics := r.diagnostics ++ (r.heard [finding]).map r.diagnostic } := by
  unfold add
  cases hs : r.suppressions.silences r.code finding.1 with
  | true => simp [heard, hs]
  | false => simp [heard, hs]

theorem heard_cons (r : Report) (finding : Finding) (findings : List Finding) :
    r.heard (finding :: findings) = r.heard [finding] ++ r.heard findings :=
  List.filter_append [finding] findings

/-- Reporting findings counts all of them and adds the diagnostics of those that are heard. -/
theorem addAll_eq (r : Report) (findings : List Finding) :
    r.addAll findings =
      { r with
        raised := r.raised + findings.length
        diagnostics := r.diagnostics ++ (r.heard findings).map r.diagnostic } := by
  induction findings generalizing r with
  | nil => simp [heard]
  | cons finding findings ih =>
      -- neither what is heard nor a diagnostic depends on what was reported before
      have hheard : (r.add finding).heard findings = r.heard findings := by rw [add_eq]; rfl
      have hsame : (r.add finding).diagnostic = r.diagnostic := by rw [add_eq]; rfl
      rw [addAll_cons, ih, hheard, hsame, heard_cons, List.map_append, ← List.append_assoc,
        List.length_cons, Nat.add_comm findings.length 1, ← Nat.add_assoc, add_eq]

theorem addAll_append (r : Report) (as bs : List Finding) :
    r.addAll (as ++ bs) = (r.addAll as).addAll bs := List.foldl_append

/-- Steps that each report a list report these lists one behind the other. -/
theorem foldl_eq_addAll {α : Type} {step : Report → α → Report} {found : α → List Finding}
    (h : ∀ r a, step r a = r.addAll (found a)) (r : Report) (as : List α) :
    as.foldl step r = r.addAll (as.flatMap found) := by
  induction as generalizing r with
  | nil => rfl
  | cons a as ih => rw [List.foldl_cons, ih, h, List.flatMap_cons, addAll_append]

end Report

/-! ### Functions and methods -/

namespace Routine

/-- What is found at the tags, the types and the lines of a comment. -/
def faults (r : Routine) (m : MethodSettings) (useIndex : Bool) (x : ClassIndex) : List Finding :=
  needlessTags r.doc m.invalidTags ++ r.bodyFindings m useIndex x

/-- What is found at a function or a method.  A comment that repeats the signature is a finding only
where there is no other. -/
def findings (r : Routine) (m : MethodSettings) (useIndex : Bool) (x : ClassIndex) :
    List Finding :=
  r.faults m useIndex x ++
    if (r.faults m useIndex x).isEmpty && r.isNeedless then
      [(r.line, "Useless PHPDoc".toList)]
    else []

/-- The check of a function or a method reports its findings, whatever was reported before. -/
theorem check_eq_addAll (r : Routine) (m : MethodSettings) (useIndex : Bool) (x : ClassIndex)
    (report : Report) : r.check m useIndex x report = report.addAll (r.findings m useIndex x) := by
  have hfaults : (report.addAll (needlessTags r.doc m.invalidTags)).addAll
      (r.bodyFindings m useIndex x) = report.addAll (r.faults m useIndex x) :=
    (report.addAll_append _ _).symm
  -- the count stays the same just where nothing was found
  have hraised : (report.addAll (r.faults m useIndex x)).raised = report.raised ↔
      (r.faults m useIndex x).isEmpty = true := by
    rw [Report.raised_addAll, Nat.add_eq_left, List.length_eq_zero_iff, List.isEmpty_iff]
  unfold check
  simp only [hfaults, hraised]
  rw [findings, Report.addAll_append]
  by_cases h : (r.faults m useIndex x).isEmpty = true ∧ r.isNeedless = true
  · rw [if_pos h, if_pos (by simpa using h)]
    rfl
  · rw [if_neg h, if_neg (by simpa using h)]
    rfl

end Routine

/-! ### Searches -/

/-- What is found at each function of a file and at each class, given the imports of the file. -/
structure Search where
  atFunction : ClassIndex → FunctionDecl → List Finding
  atClass : ClassIndex → List (Text × Text) → ClassDecl → List Finding

/-- What a search finds in a file: at the functions first, then at the classes. -/
def Search.ofFile (q : Search) (f : SourceFile) (x : ClassIndex) : List Finding :=
  f.functions.flatMap (q.atFunction x) ++ f.classes.flatMap (q.atClass x f.imports)

/-- A search that looks at classes only. -/
def Search.classesOnly (atClass : ClassIndex → List (Text × Text) → ClassDecl → List Finding) :
    Search :=
  ⟨fun _ _ => [], atClass⟩

theorem Search.ofFile_classesOnly
    (atClass : ClassIndex → List (Text × Text) → ClassDecl → List Finding) (f : SourceFile)
    (x : ClassIndex) :
    (classesOnly atClass).ofFile f x = f.classes.flatMap (atClass x f.imports) := by
  simp [ofFile, classesOnly]

/-- The search of the rule for functions and methods. -/
def Search.method (m : MethodSettings) (useIndex : Bool) : Search where
  atFunction x g := (Routine.ofFunction g).findings m useIndex x
  atClass x _ c := c.methods.flatMap fun k => (Routine.ofMethod c k).findings m useIndex x

theorem Search.ofFile_method (m : MethodSettings) (useIndex : Bool) (f : SourceFile)
    (x : ClassIndex) :
    (Search.method m useIndex).ofFile f x =
      (Routine.ofFile f).flatMap fun r => r.findings m useIndex x := by
  simp [Routine.ofFile, Search.ofFile, Search.method, List.flatMap_map, List.flatMap_assoc]

/-- The search of the rule for properties. -/
def Search.property : Search :=
  classesOnly fun _ _ c => c.properties.flatMap PropertyDecl.findings

/-- The search of the rule for constants. -/
def Search.constant : Search :=
  classesOnly fun _ _ c => c.constants.flatMap ConstantDecl.findings

/-- The search of the rule for descriptions of classes. -/
def Search.description (invalid : List Text) : Search :=
  classesOnly fun _ _ c => c.descriptionFindings invalid

/-- The search of the rule for classes that can be iterated. -/
def Search.iterator : Search :=
  classesOnly fun x imports c =>
    if c.needsItemType imports x then [(c.line, itemTypeMessage)] else []

/-! ### The rules -/

namespace Rule

/-- A rule reports what a search finds, in order and whatever was reported before. -/
def Reports (r : Rule) (q : Search) : Prop :=
  ∀ f x report, r.check f x report = report.addAll (q.ofFile f x)

theorem reports_method (m : MethodSettings) (useIndex : Bool) :
    (Rule.method m useIndex).Reports (.method m useIndex) := by
  intro f x report
  rw [Search.ofFile_method]
  exact Report.foldl_eq_addAll (fun report r => r.check_eq_addAll m useIndex x report) report _

theorem reports_property : Rule.property.Reports .property := by
  intro f x report
  rw [Search.property, Search.ofFile_classesOnly]
  rfl

theorem reports_constant : Rule.constant.Reports .constant := by
  intro f x report
  rw [Search.constant, Search.ofFile_classesOnly]
  rfl

theorem reports_description (invalid : List Text) :
    (Rule.description invalid).Reports (.description invalid) := by
  intro f x report
  rw [Search.description, Search.ofFile_classesOnly]
  rfl

theorem reports_iterator (severity : Severity) : (Rule.iterator severity).Reports .iterator := by
  intro f x report
  rw [Search.iterator, Search.ofFile_classesOnly, ← flatMap_filter, ← List.map_eq_flatMap]
  rfl

/-- Every rule reports what a search finds. -/
theorem exists_reports_of_mem_all {s : Settings} {r : Rule} (h : r ∈ Rule.all s) :
    ∃ q, r.Reports q := by
  simp only [Rule.all, List.mem_cons, List.not_mem_nil, or_false] at h
  rcases h with rfl | rfl | rfl | rfl | rfl
  · exact ⟨_, reports_method _ _⟩
  · exact ⟨_, reports_property⟩
  · exact ⟨_, reports_constant⟩
  · exact ⟨_, reports_description _⟩
  · exact ⟨_, reports_iterator _⟩

/-! ### Diagnostics -/

/-- The diagnostics of a rule for findings in a file: those of the findings that are heard. -/
def diagnostics (r : Rule) (f : SourceFile) (findings : List Finding) : List Diagnostic :=
  let report := Report.start f r.name r.severity
  (report.heard findings).map report.diagnostic

@[simp] theorem diagnostics_append (r : Rule) (f : SourceFile) (as bs : List Finding) :
    r.diagnostics f (as ++ bs) = r.diagnostics f as ++ r.diagnostics f bs := by
  simp [diagnostics, Report.heard]

theorem diagnostics_flatMap {α : Type} (r : Rule) (f : SourceFile) (as : List α)
    (found : α → List Finding) :
    r.diagnostics f (as.flatMap found) = as.flatMap fun a => r.diagnostics f (found a) := by
  induction as with
  | nil => rfl
  | cons a as ih => simp [ih]

/-- A diagnostic carries the name of its rule. -/
theorem code_of_mem_diagnostics {r : Rule} {f : SourceFile} {findings : List Finding}
    {d : Diagnostic} (h : d ∈ r.diagnostics f findings) : d.code = r.name := by
  obtain ⟨finding, -, rfl⟩ := List.mem_map.1 h
  rfl

variable {r : Rule} {q : Search}

/-- The diagnostics of a rule are those for what its search finds. -/
theorem Reports.run (h : r.Reports q) (f : SourceFile) (x : ClassIndex) :
    r.run f x = r.diagnostics f (q.ofFile f x) := by
  rw [Rule.run, h, Report.addAll_eq]
  rfl

theorem Reports.code (h : r.Reports q) {f : SourceFile} {x : ClassIndex} {d : Diagnostic}
    (hd : d ∈ r.run f x) : d.code = r.name := by
  rw [h.run] at hd
  exact code_of_mem_diagnostics hd

end Rule

end HintCheck
