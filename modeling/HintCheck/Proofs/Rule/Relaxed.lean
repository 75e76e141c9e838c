/-
**Relaxed settings report less.**

Three of the settings for functions and methods demand reports: one at comments without the tag of
an array, and two at getters that leave out the null of their property.  Without the first one,
other checks are made of a subject that has no tag; without the others, findings at a getter are
left out.  This module shows that waiving demands only takes diagnostics away, and leaves the others
in their order.  Needless comments are an exception, because they are reported where nothing else
was found.

Main definitions:

* `HintCheck.MethodSettings.Demand` — the three demands;
* `HintCheck.MethodSettings.waive` — the settings with some demands waived;
* `HintCheck.MethodSettings.Relaxes` — settings that demand no report that others do not demand;
* `HintCheck.Routine.tellsNeedless` — the words for a needless comment.

Main results:

* `HintCheck.Check.arrays_sublist` — less is found at arrays when those with a comment are passed
  over;
* `HintCheck.Routine.inspect_sublist` — less is found at a parameter or a result;
* `HintCheck.Routine.getterFindings_sublist` — less is found at a getter;
* `HintCheck.Routine.faults_sublist` — less is found at a function or a method;
* `HintCheck.run_waived` — **waiving demands takes diagnostics away and adds none.**
-/

import HintCheck.Proofs.Inspect.Taken
import HintCheck.Proofs.Rule.Findings
import Mathlib.Data.List.Flatten

set_option relaxedAutoImplicit false
set_option autoImplicit false

namespace HintCheck

/-! ### Demands -/

namespace MethodSettings

/-- A report that the settings can demand. -/
inductive Demand where
  /-- At a comment that lacks the tag of an array. -/
  | missingTags
  /-- At the documented result of a getter. -/
  | getterDoc
  /-- At the declared result of a getter. -/
  | getterDecl
  deriving DecidableEq, Repr

/-- The settings without a demand. -/
def without (m : MethodSettings) : Demand → MethodSettings
  | .missingTags => { m with reportMissingTags := false }
  | .getterDoc => { m with reportGetterDoc := false }
  | .getterDecl => { m with reportGetterDecl := false }

/-- The settings without several demands. -/
def waive (m : MethodSettings) (waived : List Demand) : MethodSettings := waived.foldl without m

/-- Settings that demand no report that others do not demand. -/
structure Relaxes (m strict : MethodSettings) : Prop where
  invalidTags : m.invalidTags = strict.invalidTags
  missingTags : m.reportMissingTags = true → strict.reportMissingTags = true
  getterDoc : m.reportGetterDoc = true → strict.reportGetterDoc = true
  getterDecl : m.reportGetterDecl = true → strict.reportGetterDecl = true

theorem relaxes_refl (m : MethodSettings) : m.Relaxes m := ⟨rfl, id, id, id⟩

theorem Relaxes.trans {m m' strict : MethodSettings} (h : m.Relaxes m') (h' : m'.Relaxes strict) :
    m.Relaxes strict where
  invalidTags := h.invalidTags.trans h'.invalidTags
  missingTags hm := h'.missingTags (h.missingTags hm)
  getterDoc hm := h'.getterDoc (h.getterDoc hm)
  getterDecl hm := h'.getterDecl (h.getterDecl hm)

theorem relaxes_without (m : MethodSettings) (demand : Demand) : (m.without demand).Relaxes m := by
  cases demand with
  | missingTags => exact ⟨rfl, nofun, id, id⟩
  | getterDoc => exact ⟨rfl, id, nofun, id⟩
  | getterDecl => exact ⟨rfl, id, id, nofun⟩

theorem relaxes_waive (m : MethodSettings) (waived : List Demand) :
    (m.waive waived).Relaxes m := by
  induction waived generalizing m with
  | nil => exact relaxes_refl m
  | cons demand waived ih => exact (ih (m.without demand)).trans (relaxes_without m demand)

end MethodSettings

/-! ### The checks of a subject -/

namespace Check

theorem when_sublist {a b : Bool} (h : a = true → b = true) (r : Remark) :
    (when a r).Sublist (when b r) := by
  cases a with
  | false => exact List.nil_sublist _
  | true => rw [h rfl]

/-- Less is found at arrays when those with a comment are passed over. -/
theorem arrays_sublist (s : Subject) : (arrays s false).Sublist (arrays s true) := by
  cases hkind : s.kind with
  | param | result =>
      simp only [arrays, hkind]
      refine when_sublist (fun h => ?_) _
      simp only [Bool.and_eq_true, Bool.true_or, and_true] at h ⊢
      exact h.1
  | property | constant =>
      simp only [arrays, hkind]
      exact List.Sublist.refl _

end Check

theorem Subject.placed_sublist (s : Subject) {d d' c c' : List Remark} (hd : d.Sublist d')
    (hc : c.Sublist c') : (s.placed d c).Sublist (s.placed d' c') :=
  (hd.map _).append (hc.map _)

namespace Routine

open Inspection

variable {m strict : MethodSettings}

/-- What the checks that settings ask for find on a side of a subject. -/
def found (m : MethodSettings) (s : Subject) (side : Side) : List Remark :=
  (checks m s).flatMap fun c => Step.found s side (.check c)

theorem inspect_eq_placed (m : MethodSettings) (s : Subject) :
    inspect m s = s.placed (found m s .declaration) (found m s .documentation) := by
  rw [inspect, foldl_run_eq_gather, warnings_gather, List.flatMap_map, List.flatMap_map]
  rfl

/-- Less is found on each side.  Where the demand is waived, a subject without a tag is only asked
whether it is an array without any comment, and not whether its comment lacks a tag. -/
theorem found_sublist (h : m.Relaxes strict) (s : Subject) (side : Side) :
    (found m s side).Sublist (found strict s side) := by
  have harrays : (Step.found s side (.check (.arrayUndocumented false))).Sublist
      (Step.found s side (.check (.arrayUndocumented true))) := by
    cases side with
    | declaration => exact List.Sublist.refl _
    | documentation => exact Check.arrays_sublist s
  simp only [found, checks, List.flatMap_append]
  refine (List.Sublist.refl _).append ?_
  cases hm : m.reportMissingTags || s.tag.isSome with
  | true =>
      have hstrict : (strict.reportMissingTags || s.tag.isSome) = true := by
        rw [Bool.or_eq_true] at hm ⊢
        exact hm.imp_left h.missingTags
      rw [hstrict]
  | false =>
      cases hstrict : strict.reportMissingTags || s.tag.isSome with
      | true =>
          simp only [Bool.false_eq_true, if_false, if_true, List.flatMap_singleton]
          exact harrays.trans (List.sublist_append_left _ _)
      | false => exact List.Sublist.refl _

/-- Less is found at a parameter or a result. -/
theorem inspect_sublist (h : m.Relaxes strict) (s : Subject) :
    (inspect m s).Sublist (inspect strict s) := by
  rw [inspect_eq_placed, inspect_eq_placed]
  exact s.placed_sublist (found_sublist h s .declaration) (found_sublist h s .documentation)

/-! ### Functions and methods -/

/-- Less is found at a getter. -/
theorem getterFindings_sublist (h : m.Relaxes strict) (r : Routine) :
    (r.getterFindings m).Sublist (r.getterFindings strict) := by
  unfold getterFindings
  cases r.nullableGetter? with
  | none => exact List.Sublist.refl _
  | some getter =>
      obtain ⟨property, documented⟩ := getter
      simp only [warnings_eq]
      refine Subject.placed_sublist _ (Check.when_sublist (fun hdecl => ?_) _)
        (Check.when_sublist (fun hdoc => ?_) _)
      · simp only [Bool.and_eq_true] at hdecl ⊢
        exact ⟨⟨h.getterDecl hdecl.1.1, hdecl.1.2⟩, hdecl.2⟩
      · simp only [Bool.and_eq_true] at hdoc ⊢
        exact ⟨⟨h.getterDoc hdoc.1.1, hdoc.1.2⟩, hdoc.2⟩

theorem typeFindings_sublist (h : m.Relaxes strict) (r : Routine) :
    (r.typeFindings m).Sublist (r.typeFindings strict) := by
  have hparams : (r.signature.params.flatMap fun p => inspect m (r.paramSubject p)).Sublist
      (r.signature.params.flatMap fun p => inspect strict (r.paramSubject p)) :=
    List.Sublist.flatMap_right _ fun p _ => inspect_sublist h (r.paramSubject p)
  simp only [typeFindings]
  split
  · exact hparams.append (List.Sublist.refl _)
  · exact (hparams.append (inspect_sublist h r.resultSubject)).append (getterFindings_sublist h r)

theorem bodyFindings_sublist (h : m.Relaxes strict) (r : Routine) (useIndex : Bool)
    (x : ClassIndex) :
    (r.bodyFindings m useIndex x).Sublist (r.bodyFindings strict useIndex x) := by
  unfold bodyFindings
  split
  · exact typeFindings_sublist h r
  · split
    · exact List.Sublist.refl _
    · split
      · exact List.Sublist.refl _
      · exact typeFindings_sublist h r

/-- Less is found at a function or a method, except that its comment may be needless. -/
theorem faults_sublist (h : m.Relaxes strict) (r : Routine) (useIndex : Bool) (x : ClassIndex) :
    (r.faults m useIndex x).Sublist (r.faults strict useIndex x) := by
  rw [faults, faults, h.invalidTags]
  exact (List.Sublist.refl _).append (bodyFindings_sublist h r useIndex x)

/-- Whether words say that a comment is needless. -/
def tellsNeedless (words : Text) : Bool := words == "Useless PHPDoc".toList

/-- But for needless comments, what is found at a function or a method are its faults. -/
theorem filter_findings (r : Routine) (m : MethodSettings) (useIndex : Bool) (x : ClassIndex) :
    (r.findings m useIndex x).filter (fun finding => !tellsNeedless finding.2) =
      (r.faults m useIndex x).filter fun finding => !tellsNeedless finding.2 := by
  rw [findings, List.filter_append]
  split
  · simp [tellsNeedless]
  · simp

end Routine

/-! ### The rule -/

/-- Leaving out diagnostics with certain words is leaving out the findings. -/
theorem Rule.filter_diagnostics (r : Rule) (f : SourceFile) (findings : List Finding)
    (p : Text → Bool) :
    (r.diagnostics f findings).filter (fun d => p d.message) =
      r.diagnostics f (findings.filter fun finding => p finding.2) := by
  simp only [diagnostics, Report.heard, List.filter_map, List.filter_filter]
  congr 1
  exact List.filter_congr fun finding _ => Bool.and_comm _ _

theorem Rule.diagnostics_sublist (r : Rule) (f : SourceFile) {as bs : List Finding}
    (h : as.Sublist bs) : (r.diagnostics f as).Sublist (r.diagnostics f bs) :=
  (h.filter _).map _

/-- **Waiving demands takes diagnostics away and adds none.**  But for the needless comments, what
is reported of a file with some demands waived is reported without that too, in the same order. -/
theorem run_waived (m : MethodSettings) (waived : List MethodSettings.Demand) (useIndex : Bool)
    (f : SourceFile) (x : ClassIndex) :
    (((Rule.method (m.waive waived) useIndex).run f x).filter
        fun d => d.message != "Useless PHPDoc".toList).Sublist
      (((Rule.method m useIndex).run f x).filter
        fun d => d.message != "Useless PHPDoc".toList) := by
  have hrelaxes := m.relaxes_waive waived
  have hrun : ∀ m : MethodSettings, ((Rule.method m useIndex).run f x).filter
      (fun d => d.message != "Useless PHPDoc".toList) =
        (Rule.method m useIndex).diagnostics f ((Routine.ofFile f).flatMap fun r =>
          (r.faults m useIndex x).filter fun finding => !Routine.tellsNeedless finding.2) := by
    intro m
    rw [(Rule.reports_method m useIndex).run, Search.ofFile_method]
    refine (Rule.filter_diagnostics _ _ _ fun words => !Routine.tellsNeedless words).trans ?_
    simp only [List.filter_flatMap, Routine.filter_findings]
  rw [hrun, hrun]
  refine Rule.diagnostics_sublist (Rule.method m useIndex) f (List.Sublist.flatMap_right _ ?_)
  intro r _
  exact (Routine.faults_sublist hrelaxes r useIndex x).filter _

/-- Without the demand for a tag, an empty comment at a function that gives an array is needless. -/
example :
    let signature : Signature :=
      { line := 2, name := "all".toList, params := [], result := .atom .array, resultLine := 2 }
    let f : SourceFile :=
      { path := "f.php".toList, source := [], scope := none, imports := []
        functions := [{ line := 2, signature, doc := some ⟨[], []⟩ }]
        classes := [], failures := [], suppressions := .none }
    let messages (m : MethodSettings) : List Text :=
      ((Rule.method m false).run f .empty).map fun d => d.message
    messages {} = [("Create PHPDoc with typed array type hint for return value, .e.g.: " ++
        "\"string[]\" or \"SomeClass[]\"").toList] ∧
      messages (MethodSettings.waive {} [.missingTags]) = ["Useless PHPDoc".toList] := by
  decide +kernel

end HintCheck
