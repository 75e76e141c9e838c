/-
**The counts of a run.**

A run that checks files prints how many errors and how many warnings were found.  A third severity
has no count of its own: what is found for information only.  The rules have fixed severities,
except for the one about classes that can be iterated, which takes its severity from the settings.
So the counts leave out the findings of this rule when the settings make them information, and such
a run fails without an error or a warning when it finds nothing else.  All other runs count
everything, and fail exactly when a count is not zero.

Main definitions:

* `HintCheck.Run.diagnostics`, `HintCheck.Run.summary?` — what a run finds and what it counts;
* `HintCheck.Run.CountsAll` — the errors and the warnings are all that is found;
* `HintCheck.Run.FailsAsCounted` — the run fails exactly when an error or a warning is counted.

Main results:

* `HintCheck.severity_eq_info_iff_of_mem` — what is found for information;
* `HintCheck.Request.run_counts_iff` — **which runs count all that they find**;
* `HintCheck.Run.not_countsAll_of_infoDisk` — one that does not.
-/

import HintCheck.Proofs.Rule.Findings
import HintCheck.Run

set_option relaxedAutoImplicit false
set_option autoImplicit false

namespace HintCheck

/-! ### Counts -/

namespace Summary

/-- The counts of the three severities are the number of diagnostics. -/
theorem countOf_add_countOf (ds : List Diagnostic) :
    countOf .error ds + countOf .warning ds + countOf .info ds = ds.length := by
  induction ds with
  | nil => rfl
  | cons d ds ih =>
      rw [List.length_cons, ← ih]
      cases h : d.severity <;> simp [countOf, h] <;> omega

theorem countOf_eq_zero_iff (severity : Severity) (ds : List Diagnostic) :
    countOf severity ds = 0 ↔ ∀ d ∈ ds, d.severity ≠ severity := by
  simp [countOf, List.countP_eq_zero]

theorem countOf_eq_length_iff (severity : Severity) (ds : List Diagnostic) :
    countOf severity ds = ds.length ↔ ∀ d ∈ ds, d.severity = severity := by
  simp [countOf, List.countP_eq_length]

end Summary

namespace Run

/-- What a run finds. -/
def diagnostics : Run → List Diagnostic
  | checked _ _ ds => ds
  | _ => []

/-- The counts that a run prints, if any. -/
def summary? : Run → Option Summary
  | checked _ files ds => some (Summary.ofDiagnostics ds files)
  | _ => none

/-- The errors and the warnings that a run counts are all that it finds. -/
def CountsAll (r : Run) : Prop := ∀ s ∈ r.summary?, s.errors + s.warnings = r.diagnostics.length

/-- A run that prints counts fails exactly when it counts an error or a warning. -/
def FailsAsCounted (r : Run) : Prop :=
  ∀ s ∈ r.summary?, r.exitCode ≠ 0 ↔ 0 < s.errors + s.warnings

/-- What is found for information only is not counted. -/
theorem countsAll_iff (r : Run) : r.CountsAll ↔ ∀ x ∈ r.diagnostics, x.severity ≠ .info := by
  cases r with
  | checked format files ds =>
      have hsum := Summary.countOf_add_countOf ds
      have hzero := Summary.countOf_eq_zero_iff .info ds
      simp only [CountsAll, summary?, diagnostics, Option.mem_some_iff, forall_eq',
        Summary.ofDiagnostics, ← hzero]
      omega
  | _ => simp [CountsAll, summary?, diagnostics]

/-- A run that finds nothing but information fails although nothing is counted. -/
theorem failsAsCounted_iff (r : Run) :
    r.FailsAsCounted ↔ ((∀ x ∈ r.diagnostics, x.severity = .info) → r.diagnostics = []) := by
  cases r with
  | checked format files ds =>
      have hsum := Summary.countOf_add_countOf ds
      have hall := Summary.countOf_eq_length_iff .info ds
      have hfails : (checked format files ds).exitCode = 0 ↔ ds.length = 0 := by
        rw [exitCode_checked, List.length_eq_zero_iff]
      simp only [FailsAsCounted, summary?, diagnostics, Option.mem_some_iff, forall_eq',
        Summary.ofDiagnostics, ne_eq, hfails, ← hall, ← List.length_eq_zero_iff]
      omega
  | _ => simp [FailsAsCounted, summary?, diagnostics]

end Run

/-! ### Severities -/

/-- Whether the rule for classes that can be iterated found it. -/
def Diagnostic.IsItemType (x : Diagnostic) : Prop :=
  x.code = "type_sniff/iterator_item_type".toList

theorem Rule.Reports.severity {r : Rule} {q : Search} (h : r.Reports q) {f : SourceFile}
    {x : ClassIndex} {d : Diagnostic} (hd : d ∈ r.run f x) : d.severity = r.severity := by
  rw [h.run] at hd
  obtain ⟨finding, -, rfl⟩ := List.mem_map.1 hd
  rfl

/-- Each diagnostic comes from one of the rules. -/
theorem exists_rule_of_mem_checkFiles {s : Settings} {fs : List SourceFile} {x : Diagnostic}
    (h : x ∈ checkFiles s fs) : ∃ r ∈ Rule.all s, x.code = r.name ∧ x.severity = r.severity := by
  obtain ⟨f, -, hf⟩ := List.mem_flatMap.1 h
  unfold checkFile at hf
  split at hf
  · cases hf
  · obtain ⟨r, hr, hx⟩ := List.mem_flatMap.1 (List.mem_mergeSort.1 hf)
    have hall : r ∈ Rule.all s := (List.mem_filter.1 hr).1
    obtain ⟨q, hq⟩ := Rule.exists_reports_of_mem_all hall
    exact ⟨r, hall, hq.code hx, hq.severity hx⟩

/-- All rules but one warn, whatever the settings are. -/
theorem Rule.cases_of_mem_all {s : Settings} {r : Rule} (h : r ∈ Rule.all s) :
    r = .iterator s.iteratorSeverity ∨
      r.severity = .warning ∧ r.name ≠ "type_sniff/iterator_item_type".toList := by
  have hother : ∀ name : String, name ≠ "type_sniff/iterator_item_type" →
      name.toList ≠ "type_sniff/iterator_item_type".toList :=
    fun name hname htext => hname (String.toList_injective htext)
  simp only [Rule.all, List.mem_cons, List.not_mem_nil, or_false] at h
  rcases h with rfl | rfl | rfl | rfl | rfl
  · exact .inr ⟨rfl, hother "type_sniff/method" (by decide)⟩
  · exact .inr ⟨rfl, hother "type_sniff/property" (by decide)⟩
  · exact .inr ⟨rfl, hother "type_sniff/constant" (by decide)⟩
  · exact .inr ⟨rfl, hother "type_sniff/description" (by decide)⟩
  · exact .inl rfl

/-- **What is found for information** is found by the rule for classes that can be iterated, under
settings that say so. -/
theorem severity_eq_info_iff_of_mem {s : Settings} {fs : List SourceFile} {x : Diagnostic}
    (h : x ∈ checkFiles s fs) :
    x.severity = .info ↔ s.iteratorSeverity = .info ∧ x.IsItemType := by
  obtain ⟨r, hr, hcode, hseverity⟩ := exists_rule_of_mem_checkFiles h
  rw [hseverity, Diagnostic.IsItemType, hcode]
  rcases Rule.cases_of_mem_all hr with rfl | ⟨hwarning, hname⟩
  · exact ⟨fun hinfo => ⟨hinfo, rfl⟩, fun hinfo => hinfo.1⟩
  · rw [hwarning]
    exact ⟨fun hinfo => (by cases hinfo), fun hinfo => absurd hinfo.2 hname⟩

/-! ### Runs -/

/-- Files that can be checked are read first. -/
theorem Disk.exists_of_check_eq_ok {d : Disk} {s : Settings} {ps : List Path}
    {ds : List Diagnostic} (h : d.check s ps = .ok ds) : ∃ fs, ds = checkFiles s fs := by
  unfold check at h
  cases hread : ps.mapM d.readSource with
  | error e =>
      rw [hread] at h
      cases h
  | ok files =>
      rw [hread] at h
      exact ⟨_, (Except.ok.inj h).symm⟩

namespace Request

/-- What a run finds is found in files, under the settings of its session. -/
theorem diagnostics_run (r : Request) (d : Disk) :
    (r.run d).diagnostics = [] ∨
      ∃ session, r.session d = .ok session ∧
        ∃ fs, (r.run d).diagnostics = checkFiles session.settings fs := by
  unfold run
  cases r.session d with
  | error e => exact .inl rfl
  | ok session =>
      simp only [Session.run]
      cases d.codeFilesOf session.targets with
      | nil => exact .inl rfl
      | cons p ps =>
          cases hcheck : d.check session.settings (p :: ps) with
          | error e => exact .inl (by simp [hcheck, Run.diagnostics])
          | ok ds =>
              refine .inr ⟨session, rfl, ?_⟩
              simpa [hcheck, Run.diagnostics] using Disk.exists_of_check_eq_ok hcheck

/-- Whether the settings make a missing item type information. -/
def InformsOfItemTypes (r : Request) (d : Disk) : Prop :=
  ∃ session, r.session d = .ok session ∧ session.settings.iteratorSeverity = .info

theorem severity_eq_info_iff {r : Request} {d : Disk} {x : Diagnostic}
    (h : x ∈ (r.run d).diagnostics) :
    x.severity = .info ↔ r.InformsOfItemTypes d ∧ x.IsItemType := by
  rcases r.diagnostics_run d with hnil | ⟨session, hsession, fs, hfs⟩
  · rw [hnil] at h
    cases h
  · have hinforms : r.InformsOfItemTypes d ↔ session.settings.iteratorSeverity = .info := by
      simp [InformsOfItemTypes, hsession]
    rw [hinforms]
    exact severity_eq_info_iff_of_mem (hfs ▸ h)

/-- **Which runs count all that they find.**  Errors and warnings are all that is found, except
where the settings make missing item types information and some are found.  And a run fails exactly
when it counts an error or a warning, except where they are information and nothing else is
found. -/
theorem run_counts_iff (r : Request) (d : Disk) :
    ((r.run d).CountsAll ↔
      (r.InformsOfItemTypes d → ∀ x ∈ (r.run d).diagnostics, ¬x.IsItemType)) ∧
    ((r.run d).FailsAsCounted ↔
      (r.InformsOfItemTypes d → (∀ x ∈ (r.run d).diagnostics, x.IsItemType) →
        (r.run d).diagnostics = [])) := by
  rw [Run.countsAll_iff, Run.failsAsCounted_iff]
  refine ⟨⟨?_, ?_⟩, ⟨?_, ?_⟩⟩
  · intro h hinforms x hx hitem
    exact h x hx ((severity_eq_info_iff hx).2 ⟨hinforms, hitem⟩)
  · intro h x hx hinfo
    obtain ⟨hinforms, hitem⟩ := (severity_eq_info_iff hx).1 hinfo
    exact h hinforms x hx hitem
  · intro h hinforms hall
    exact h fun x hx => (severity_eq_info_iff hx).2 ⟨hinforms, hall x hx⟩
  · intro h hall
    refine Classical.byContradiction fun hne => ?_
    -- something is found, so the settings make it information
    obtain ⟨x, hx⟩ := List.exists_mem_of_ne_nil _ hne
    obtain ⟨hinforms, -⟩ := (severity_eq_info_iff hx).1 (hall x hx)
    exact hne (h hinforms fun y hy => ((severity_eq_info_iff hy).1 (hall y hy)).2)

end Request

namespace Run

/-- A disk with a class that can be iterated and does not tell the type of its items, and with
settings that make this information. -/
def infoDisk : Disk :=
  { files :=
      [(["srv", "I.php"].map String.toList,
          some "<?php\nclass I implements \\IteratorAggregate \x7b\x7d\n".toList),
        (["srv", "type_sniff.yaml"].map String.toList,
          some "iterator:\n  report_type: info\n".toList)]
    folders := []
    current := ["srv".toList] }

/-- A run can fail without an error or a warning: what it finds is not counted. -/
theorem not_countsAll_of_infoDisk :
    let r := ofArguments infoDisk (["analyse", "."].map String.toList)
    r.summary? = some { files := 1, errors := 0, warnings := 0, total := 1 } ∧ r.exitCode = 1 ∧
      ¬r.CountsAll ∧ ¬r.FailsAsCounted := by
  intro r
  have hseen : (r.summary?, r.exitCode, r.diagnostics.length) =
      (some { files := 1, errors := 0, warnings := 0, total := 1 }, 1, 1) := by decide +kernel
  obtain ⟨hsummary, hrest⟩ := Prod.mk.inj hseen
  obtain ⟨hexit, hlength⟩ := Prod.mk.inj hrest
  refine ⟨hsummary, hexit, fun hcounts => ?_, fun hfails => ?_⟩
  · have hsum := hcounts _ hsummary
    rw [hlength] at hsum
    cases hsum
  · have hfails' := (hfails _ hsummary).1 (by rw [hexit]; decide)
    cases hfails'

end Run

end HintCheck
