/-
**Switches are a filter.**

A switch turns a rule off, or a group of rules, before any file is looked at.  This module shows
that nothing else changes: the diagnostics are those that are found with every rule on, in the same
order, less those of the rules that are off.  The diagnostics of a file are sorted by line after all
rules have been run, so the argument is about sorting.  A list that is sorted by line is known by
what it has on each line, in order, and the sort keeps that.

Main definitions:

* `HintCheck.onLine` — the diagnostics on a line, in order;
* `HintCheck.SortedByLine` — the lists that are sorted by line.

Main results:

* `HintCheck.onLine_sortByLine` — sorting keeps what is on a line;
* `HintCheck.SortedByLine.eq_of_onLine` — a sorted list is known by its lines;
* `HintCheck.filter_sortByLine` — sorting before or after leaving diagnostics out is the same;
* `HintCheck.checkFiles_switched` — **switches are a filter.**
-/

import HintCheck.Proofs.Rule.Findings
import HintCheck.Proofs.Rule.Silencing

set_option relaxedAutoImplicit false
set_option autoImplicit false

namespace HintCheck

/-! ### Lists that are sorted by line -/

/-- The diagnostics on a line, in order. -/
def onLine (n : Nat) (ds : List Diagnostic) : List Diagnostic := ds.filter fun d => d.line == n

/-- The lines of the diagnostics do not go down. -/
def SortedByLine (ds : List Diagnostic) : Prop := ds.Pairwise fun a b => a.line ≤ b.line

theorem onLine_flatMap {α : Type} (n : Nat) (as : List α) (ds : α → List Diagnostic) :
    onLine n (as.flatMap ds) = as.flatMap fun a => onLine n (ds a) := List.filter_flatMap

theorem line_of_mem_onLine {n : Nat} {ds : List Diagnostic} {d : Diagnostic}
    (h : d ∈ onLine n ds) : d.line = n := by simpa using (List.mem_filter.1 h).2

theorem sortedByLine_onLine (n : Nat) (ds : List Diagnostic) : SortedByLine (onLine n ds) := by
  refine List.pairwise_iff_forall_sublist.2 fun hab => Nat.le_of_eq ?_
  rw [line_of_mem_onLine (hab.subset (by simp)), line_of_mem_onLine (hab.subset (by simp))]

/-- Leaving diagnostics out keeps the order on each line. -/
theorem onLine_filter (n : Nat) (p : Diagnostic → Bool) (ds : List Diagnostic) :
    onLine n (ds.filter p) = (onLine n ds).filter p := by
  simp only [onLine, List.filter_filter, Bool.and_comm]

/-- The first diagnostic of a sorted list has the least line. -/
theorem SortedByLine.line_le {a d : Diagnostic} {as : List Diagnostic} (h : SortedByLine (a :: as))
    (hd : d ∈ a :: as) : a.line ≤ d.line := by
  rcases List.mem_cons.1 hd with rfl | hd
  · exact Nat.le_refl _
  · exact (List.pairwise_cons.1 h).1 d hd

/-- Two lists that agree on each line have the same members. -/
theorem mem_of_onLine {as bs : List Diagnostic} (h : ∀ n, onLine n as = onLine n bs)
    {d : Diagnostic} (hd : d ∈ as) : d ∈ bs := by
  have hline : d ∈ onLine d.line as := List.mem_filter.2 ⟨hd, by simp⟩
  rw [h] at hline
  exact (List.mem_filter.1 hline).1

/-- A list that is sorted by line is known by what it has on each line. -/
theorem SortedByLine.eq_of_onLine {as bs : List Diagnostic} (ha : SortedByLine as)
    (hb : SortedByLine bs) (h : ∀ n, onLine n as = onLine n bs) : as = bs := by
  induction as generalizing bs with
  | nil =>
      cases bs with
      | nil => rfl
      | cons b bs => exact absurd (mem_of_onLine (fun n => (h n).symm) List.mem_cons_self) (by simp)
  | cons a as ih =>
      cases bs with
      | nil => exact absurd (mem_of_onLine h List.mem_cons_self) (by simp)
      | cons b bs =>
          -- both lists begin with the least line, so with the first diagnostic on it
          have hline : a.line = b.line := Nat.le_antisymm
            (ha.line_le (mem_of_onLine (fun n => (h n).symm) List.mem_cons_self))
            (hb.line_le (mem_of_onLine h List.mem_cons_self))
          have hfirst := h a.line
          simp only [onLine, List.filter_cons, beq_self_eq_true, if_true, hline.symm] at hfirst
          obtain ⟨rfl, -⟩ := List.cons.inj hfirst
          have hrest : ∀ n, onLine n as = onLine n bs := by
            intro n
            have hn := h n
            simp only [onLine, List.filter_cons] at hn
            split at hn
            · exact (List.cons.inj hn).2
            · exact hn
          rw [ih (List.pairwise_cons.1 ha).2 (List.pairwise_cons.1 hb).2 hrest]

/-! ### Sorting -/

theorem sortedByLine_sortByLine (ds : List Diagnostic) : SortedByLine (sortByLine ds) := by
  have hsorted : (sortByLine ds).Pairwise fun a b => decide (a.line ≤ b.line) = true :=
    List.pairwise_mergeSort (fun a b c hab hbc => by simp at hab hbc ⊢; omega)
      (fun a b => by simp; omega) ds
  exact hsorted.imp fun h => by simpa using h

/-- Sorting keeps what is on a line, in order. -/
theorem onLine_sortByLine (n : Nat) (ds : List Diagnostic) :
    onLine n (sortByLine ds) = onLine n ds := by
  -- the diagnostics on one line are in order before the sort, so it leaves them as they are
  have hordered : (onLine n ds).Pairwise fun a b => decide (a.line ≤ b.line) = true :=
    (sortedByLine_onLine n ds).imp fun h => by simpa using h
  have hsub : (onLine n ds).Sublist (sortByLine ds) :=
    List.sublist_mergeSort (fun a b c hab hbc => by simp at hab hbc ⊢; omega)
      (fun a b => by simp; omega) hordered List.filter_sublist
  have hkept : (onLine n ds).Sublist (onLine n (sortByLine ds)) := by
    have hagain : onLine n (onLine n ds) = onLine n ds := by
      simp only [onLine, List.filter_filter, Bool.and_self]
    rw [← hagain]
    exact hsub.filter _
  have hperm : (onLine n (sortByLine ds)).Perm (onLine n ds) := (List.mergeSort_perm _ _).filter _
  exact (hkept.eq_of_length hperm.length_eq.symm).symm

/-- Leaving diagnostics out before the sort or after it is the same. -/
theorem filter_sortByLine (p : Diagnostic → Bool) (ds : List Diagnostic) :
    (sortByLine ds).filter p = sortByLine (ds.filter p) := by
  have hsorted : SortedByLine ((sortByLine ds).filter p) :=
    (sortedByLine_sortByLine ds).sublist List.filter_sublist
  refine hsorted.eq_of_onLine (sortedByLine_sortByLine _) fun n => ?_
  rw [onLine_filter, onLine_sortByLine, onLine_sortByLine, onLine_filter]

/-! ### Files -/

/-- The diagnostics of a file are sorted, whether its comments silence everything or not. -/
theorem checkFile_eq_sortByLine (s : Settings) (x : ClassIndex) (f : SourceFile) :
    checkFile s x f =
      sortByLine (((Rule.all s).filter fun r => s.enabled r.name).flatMap fun r => r.run f x) := by
  cases h : f.suppressions.silencesEverything with
  | false => simp [checkFile, h]
  | true =>
      have hnil : ∀ r ∈ (Rule.all s).filter fun r => s.enabled r.name, r.run f x = [] :=
        fun r hr => (Rule.blind_of_mem_all (List.mem_filter.1 hr).1).run_eq_nil h x
      rw [checkFile_of_silenced s x f h, List.flatMap_eq_nil_iff.2 hnil]
      exact List.mergeSort_nil.symm

/-- A condition on the rule keeps all diagnostics of a rule or none. -/
theorem filter_run {s : Settings} {r : Rule} (hr : r ∈ Rule.all s) (on : Text → Bool)
    (f : SourceFile) (x : ClassIndex) :
    (r.run f x).filter (fun d => on d.code) = if on r.name then r.run f x else [] := by
  obtain ⟨q, hq⟩ := Rule.exists_reports_of_mem_all hr
  have hcode : ∀ d ∈ r.run f x, on d.code = on r.name := fun d hd => by rw [hq.code hd]
  rw [List.filter_congr hcode]
  cases on r.name <;> simp

/-- Leaving out the diagnostics of some rules is leaving out the rules. -/
theorem filter_flatMap_run {s : Settings} {rs : List Rule} (h : ∀ r ∈ rs, r ∈ Rule.all s)
    (on : Text → Bool) (f : SourceFile) (x : ClassIndex) :
    (rs.flatMap fun r => r.run f x).filter (fun d => on d.code) =
      (rs.filter fun r => on r.name).flatMap fun r => r.run f x := by
  induction rs with
  | nil => rfl
  | cons r rs ih =>
      rw [List.flatMap_cons, List.filter_append, filter_run (h r List.mem_cons_self),
        ih fun r hr => h r (List.mem_cons_of_mem _ hr), List.filter_cons]
      cases on r.name <;> rfl

/-- The switches of a file's rules are a filter on its diagnostics. -/
theorem checkFile_switched (s : Settings) (x : ClassIndex) (f : SourceFile) :
    checkFile s x f =
      (checkFile { s with switches := [] } x f).filter fun d => s.enabled d.code := by
  have hall : ((Rule.all { s with switches := [] }).filter
      fun r => Settings.enabled { s with switches := [] } r.name) = Rule.all s :=
    List.filter_eq_self.2 fun r _ => Settings.enabled_of_no_switch _ rfl r.name
  rw [checkFile_eq_sortByLine, checkFile_eq_sortByLine, hall, filter_sortByLine,
    filter_flatMap_run fun _ hr => hr]

/-- **Switches are a filter.**  The diagnostics of files are those under the same settings without
switches, in the same order, less those of the rules that are off.  File by file they are sorted by
line, and on each line the diagnostics of the rules follow one another, those of each rule in the
order in which it reports them. -/
theorem checkFiles_switched (s : Settings) (fs : List SourceFile) :
    (checkFiles s fs =
      (checkFiles { s with switches := [] } fs).filter fun d => s.enabled d.code) ∧
    checkFiles s fs = fs.flatMap (checkFile s (.ofFiles fs)) ∧
    ∀ x f, SortedByLine (checkFile s x f) ∧
      ∀ n, onLine n (checkFile s x f) =
        ([.method s.method s.useIndex, .property, .constant, .description s.classTags,
          .iterator s.iteratorSeverity] : List Rule).flatMap fun r =>
            if s.enabled r.name then onLine n (r.run f x) else [] := by
  refine ⟨?_, rfl, ?_⟩
  · rw [checkFiles, checkFiles, List.filter_flatMap]
    exact congrArg (fs.flatMap ·) (funext fun f => checkFile_switched s _ f)
  · intro x f
    rw [checkFile_eq_sortByLine]
    refine ⟨sortedByLine_sortByLine _, fun n => ?_⟩
    rw [onLine_sortByLine, onLine_flatMap, flatMap_filter, Rule.all]

end HintCheck
