/-
**Silencing is a filter.**

A report counts what a rule finds and leaves out, as it goes, what a comment of the file silences.
The rule for functions and methods looks at the count before it calls a comment needless.  This
module shows that silencing nevertheless only takes diagnostics away: the same diagnostics remain
when a report is made without any silencing comment and thinned out afterwards.

The argument compares the two reports step by step.  A step of reporting is *blind* when it gives
the same result before and after thinning out; reporting a finding is blind because the finding is
counted in both cases, and a decision that depends on the count alone is blind too.

Main definitions:

* `HintCheck.Report.silenced` — a report without the diagnostics that comments silence;
* `HintCheck.Report.Blind` — the steps that silencing makes no difference to;
* `HintCheck.Rule.Blind` — the rules whose checks are such steps.

Main results:

* `HintCheck.Report.blind_add`, `HintCheck.Report.blind_addAll`, `HintCheck.Report.Blind.foldl` —
  reporting is blind;
* `HintCheck.Routine.blind_check` — so is the check of a function or a method;
* `HintCheck.Rule.blind_of_mem_all` — so is every rule;
* `HintCheck.run_silenced` — **silencing is a filter**, for each rule and for a whole file.
-/

import HintCheck.Analysis

set_option relaxedAutoImplicit false
set_option autoImplicit false

namespace HintCheck

namespace Report

/-! ### Blind steps -/

/-- A report without the diagnostics that comments silence. -/
def silenced (s : Suppressions) (r : Report) : Report :=
  { r with
    suppressions := s
    diagnostics := r.diagnostics.filter fun d => !s.silences r.code d.line }

/-- A step of reporting to which silencing makes no difference: it may be done before the step or
after it. -/
structure Blind (step : Report → Report) : Prop where
  code : ∀ r, (step r).code = r.code
  suppressions : ∀ r, (step r).suppressions = r.suppressions
  silenced : ∀ s r, r.suppressions = .none → (step r).silenced s = step (r.silenced s)

theorem blind_id : Blind fun r => r where
  code _ := rfl
  suppressions _ := rfl
  silenced _ _ _ := rfl

theorem Blind.comp {step next : Report → Report} (h : Blind step) (h' : Blind next) :
    Blind fun r => next (step r) where
  code r := (h'.code _).trans (h.code r)
  suppressions r := (h'.suppressions _).trans (h.suppressions r)
  silenced s r hr := by
    rw [h'.silenced s _ ((h.suppressions r).trans hr), h.silenced s r hr]

theorem Blind.foldl {α : Type} {step : Report → α → Report} (h : ∀ a, Blind fun r => step r a)
    (as : List α) : Blind fun r => as.foldl step r := by
  induction as with
  | nil => exact blind_id
  | cons a as ih => exact (h a).comp ih

/-- Reporting a finding is blind: the diagnostic is left out at once, or afterwards. -/
theorem blind_add (finding : Finding) : Blind fun r => r.add finding where
  code r := by
    unfold add
    split <;> rfl
  suppressions r := by
    unfold add
    split <;> rfl
  silenced s r hr := by
    rw [add_of_none hr]
    cases hs : s.silences r.code finding.1 with
    | true => simp [silenced, add, diagnostic, List.filter_append, hs]
    | false => simp [silenced, add, diagnostic, List.filter_append, hs]

theorem blind_addAll (findings : List Finding) : Blind fun r => r.addAll findings :=
  Blind.foldl blind_add findings

@[simp] theorem raised_silenced (s : Suppressions) (r : Report) :
    (r.silenced s).raised = r.raised := rfl

/-- A blind step counts as many findings whatever is silenced. -/
theorem Blind.raised {step : Report → Report} (h : Blind step) {s : Suppressions} {r : Report}
    (hr : r.suppressions = .none) : (step (r.silenced s)).raised = (step r).raised := by
  rw [← h.silenced s r hr, raised_silenced]

/-- A decision that looks only at the count of findings is blind. -/
theorem Blind.ite_raised {step yes no : Report → Report} (hstep : Blind step) (hyes : Blind yes)
    (hno : Blind no) (p : Prop) [Decidable p] :
    Blind fun r => if (step r).raised = r.raised ∧ p then yes (step r) else no (step r) where
  code r := by
    split
    · exact (hstep.comp hyes).code r
    · exact (hstep.comp hno).code r
  suppressions r := by
    split
    · exact (hstep.comp hyes).suppressions r
    · exact (hstep.comp hno).suppressions r
  silenced s r hr := by
    rw [hstep.raised hr, raised_silenced]
    split
    · exact (hstep.comp hyes).silenced s r hr
    · exact (hstep.comp hno).silenced s r hr

end Report

/-! ### The rules -/

/-- The check of a function or a method is blind.  A comment is called needless where nothing was
found, and not where nothing is left of what was found. -/
theorem Routine.blind_check (r : Routine) (m : MethodSettings) (useIndex : Bool) (x : ClassIndex) :
    Report.Blind fun report => r.check m useIndex x report :=
  ((Report.blind_addAll _).comp (Report.blind_addAll _)).ite_raised (Report.blind_add _)
    Report.blind_id _

namespace Rule

/-- A rule that does not look at the silencing comments of a file and reports in blind steps. -/
structure Blind (r : Rule) : Prop where
  check : ∀ f x, Report.Blind fun report => r.check f x report
  suppressions : ∀ s f x, r.check { f with suppressions := s } x = r.check f x

theorem blind_method (m : MethodSettings) (useIndex : Bool) : (Rule.method m useIndex).Blind where
  check f x := .foldl (fun r => r.blind_check m useIndex x) (Routine.ofFile f)
  suppressions _ _ _ := rfl

theorem blind_property : Rule.property.Blind where
  check _ _ := Report.blind_addAll _
  suppressions _ _ _ := rfl

theorem blind_constant : Rule.constant.Blind where
  check _ _ := Report.blind_addAll _
  suppressions _ _ _ := rfl

theorem blind_description (invalid : List Text) : (Rule.description invalid).Blind where
  check _ _ := Report.blind_addAll _
  suppressions _ _ _ := rfl

theorem blind_iterator (severity : Severity) : (Rule.iterator severity).Blind where
  check _ _ := Report.blind_addAll _
  suppressions _ _ _ := rfl

theorem blind_of_mem_all {s : Settings} {r : Rule} (h : r ∈ Rule.all s) : r.Blind := by
  simp only [Rule.all, List.mem_cons, List.not_mem_nil, or_false] at h
  rcases h with rfl | rfl | rfl | rfl | rfl
  · exact blind_method _ _
  · exact blind_property
  · exact blind_constant
  · exact blind_description _
  · exact blind_iterator _

/-- A blind rule gives the diagnostics of a file without silencing comments, less the silenced
ones. -/
theorem Blind.run {r : Rule} (h : r.Blind) (f : SourceFile) (x : ClassIndex) :
    r.run f x = (r.run { f with suppressions := .none } x).filter
      fun d => !f.suppressions.silences r.name d.line := by
  -- both runs begin with an empty report, and they make the same check
  let start := Report.start { f with suppressions := .none } r.name r.severity
  have hstart : Report.start f r.name r.severity = start.silenced f.suppressions := rfl
  have hcode : (r.check f x start).code = r.name := (h.check f x).code start
  calc r.run f x = (r.check f x (start.silenced f.suppressions)).diagnostics := by
        rw [Rule.run, hstart]
    _ = ((r.check f x start).silenced f.suppressions).diagnostics := by
        rw [(h.check f x).silenced f.suppressions start rfl]
    _ = _ := by
        rw [Report.silenced, hcode, Rule.run, h.suppressions .none f]

end Rule

/-! ### Whole files -/

theorem silences_of_silencesEverything {s : Suppressions} (h : s.silencesEverything = true)
    (rule : Text) (line : Nat) : s.silences rule line = true := by
  have hmem : Directive.everything ∈ s.file := by simpa [Suppressions.silencesEverything] using h
  rw [Suppressions.silences, List.any_eq_true.2 ⟨_, hmem, Directive.covers_everything rule⟩,
    Bool.true_or]

/-- Where a comment silences everything in the file, no blind rule has a diagnostic. -/
theorem Rule.Blind.run_eq_nil {r : Rule} (hr : r.Blind) {f : SourceFile}
    (h : f.suppressions.silencesEverything = true) (x : ClassIndex) : r.run f x = [] := by
  rw [hr.run, List.filter_eq_nil_iff]
  intro d _
  simp [silences_of_silencesEverything h]

/-- **Silencing is a filter.**  Under any settings each rule gives the diagnostics that it gives
without silencing comments, in the same order, less the silenced ones; and a file whose comments
silence everything may be passed over without running the rules. -/
theorem run_silenced (s : Settings) (x : ClassIndex) (f : SourceFile) :
    (∀ r ∈ Rule.all s, r.run f x = (r.run { f with suppressions := .none } x).filter
      fun d => !f.suppressions.silences r.name d.line) ∧
    checkFile s x f =
      sortByLine (((Rule.all s).filter fun r => s.enabled r.name).flatMap fun r => r.run f x) := by
  refine ⟨fun r hr => (Rule.blind_of_mem_all hr).run f x, ?_⟩
  cases h : f.suppressions.silencesEverything with
  | false => simp [checkFile, h]
  | true =>
      have hnil : ∀ r ∈ (Rule.all s).filter fun r => s.enabled r.name, r.run f x = [] :=
        fun r hr => (Rule.blind_of_mem_all (List.mem_filter.1 hr).1).run_eq_nil h x
      rw [checkFile_of_silenced s x f h, List.flatMap_eq_nil_iff.2 hnil]
      exact List.mergeSort_nil.symm

/-- A function on line 3 whose comment, on line 2, only repeats that its parameter has no type.  A
comment silences lines 1 and 2. -/
def untypedTag : SourceFile :=
  { path := "f.php".toList
    source := []
    scope := none
    imports := []
    functions :=
      [{ line := 3
         signature :=
           { line := 3, name := "f".toList, result := .atom .int, resultLine := 3
             params :=
               [{ line := 3, name := "a".toList, ty := .undefined, default := none
                  attributes := [], doc := none, variadic := false, byRef := false
                  promoted := false }] }
         doc := some ⟨[], [.param ⟨2, .undefined⟩ "a".toList none]⟩ }]
    classes := []
    failures := []
    suppressions := ⟨[], [(1, .everything)]⟩ }

/-- What is found at the tag is silenced, and the comment is not called needless instead. -/
theorem run_silenced_of_untypedTag :
    Rule.method {} false ∈ Rule.all {} ∧
    ((Rule.method {} false).run { untypedTag with suppressions := .none } .empty).map (·.line) =
      [2] ∧
    (Rule.method {} false).run untypedTag .empty = [] := by
  have hmem : Rule.method {} false ∈ Rule.all {} := List.mem_cons_self
  have hlines : ((Rule.method {} false).run { untypedTag with suppressions := .none } .empty).map
      (·.line) = [2] := by decide +kernel
  refine ⟨hmem, hlines, ?_⟩
  rw [(run_silenced {} .empty untypedTag).1 _ hmem, List.filter_eq_nil_iff]
  intro d hd
  have hline : d.line = 2 := by simpa [hlines] using List.mem_map_of_mem (f := (·.line)) hd
  rw [hline]
  decide

end HintCheck
