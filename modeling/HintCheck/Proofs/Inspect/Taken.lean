/-
**The findings of a subject are taken once.**

An inspection collects findings on both sides of a subject until they are taken, and goes on with
the same subject afterwards.  This module follows it over any number of steps: checks, findings that
are added from outside, and takings.  What is found in a stretch of steps is taken at its end, in
order and on its lines, and never again; and no step changes anything of the subject.

Main definitions:

* `HintCheck.Inspection.Step` — a check, an added finding or a taking;
* `HintCheck.Inspection.follow` — the inspection after some steps, and what was taken at each
  taking;
* `HintCheck.Inspection.Cut` — steps in stretches, each of which ends at a taking;
* `HintCheck.Subject.placed` — findings with their lines and their words.

Main results:

* `HintCheck.Inspection.subject_follow` — no step changes the subject;
* `HintCheck.Inspection.follow_of_no_taking` — what is found until the next taking;
* `HintCheck.Inspection.follow_of_cut` — what is taken at the end of each stretch;
* `HintCheck.Inspection.taken_once` — **each finding is taken once, at the first taking behind it.**
-/

import HintCheck.Rule.Method
import Mathlib.Data.List.Basic

set_option relaxedAutoImplicit false
set_option autoImplicit false

namespace HintCheck

/-- Findings on the two sides of a subject, with their lines and their words: those of the
declaration on its line, then those of the documentation on the line of the tag, or of the
declaration without one. -/
def Subject.placed (s : Subject) (declaration documentation : List Remark) : List (Nat × Text) :=
  declaration.map (fun r => (s.line, Text.replaceAll ":subject:".toList s.name r.words)) ++
    documentation.map fun r =>
      (match s.tag with
        | some tag => tag.line
        | none => s.line,
      Text.replaceAll ":subject:".toList s.name r.words)

namespace Inspection

/-! ### Steps -/

/-- What is done with an inspection. -/
inductive Step where
  | check (c : Check)
  /-- A finding is added on a side. -/
  | add (side : Side) (remark : Remark)
  /-- The findings are taken. -/
  | take

/-- What a step finds on a side of a subject. -/
def Step.found (s : Subject) (side : Side) : Step → List Remark
  | check c => if c.side = side then c.findings s else []
  | add other remark => if other = side then [remark] else []
  | take => []

/-- The inspection once its findings have been taken. -/
def clear (i : Inspection) : Inspection := { subject := i.subject }

@[simp] theorem subject_clear (i : Inspection) : i.clear.subject = i.subject := rfl

/-- The inspection after some steps, and what was taken at each taking. -/
def follow (i : Inspection) : List Step → Inspection × List (List (Nat × Text))
  | [] => (i, [])
  | .check c :: steps => (i.run c).follow steps
  | .add side remark :: steps => (i.add side [remark]).follow steps
  | .take :: steps =>
    let r := i.clear.follow steps
    (r.1, i.warnings :: r.2)

/-- The inspection with what steps find on both sides. -/
def gather (i : Inspection) (steps : List Step) : Inspection :=
  { i with
    declaration := i.declaration ++ steps.flatMap (Step.found i.subject .declaration)
    documentation := i.documentation ++ steps.flatMap (Step.found i.subject .documentation) }

variable {i : Inspection} {steps : List Step}

@[simp] theorem gather_nil (i : Inspection) : i.gather [] = i := by simp [gather]

theorem gather_gather (i : Inspection) (a b : List Step) :
    (i.gather a).gather b = i.gather (a ++ b) := by
  simp [gather]

theorem run_eq_gather (i : Inspection) (c : Check) : i.run c = i.gather [.check c] := by
  unfold run
  cases hside : c.side <;> simp [Inspection.add, gather, Step.found, hside]

/-- A step other than a taking adds what it finds. -/
theorem follow_cons {step : Step} (h : step ≠ .take) (steps : List Step) :
    i.follow (step :: steps) = (i.gather [step]).follow steps := by
  cases step with
  | check c => rw [follow, run_eq_gather]
  | add side remark =>
      have hadd : i.add side [remark] = i.gather [.add side remark] := by
        cases side <;> simp [Inspection.add, gather, Step.found]
      rw [follow, hadd]
  | take => exact absurd rfl h

/-- No step changes anything of the subject. -/
@[simp] theorem subject_follow (i : Inspection) (steps : List Step) :
    (i.follow steps).1.subject = i.subject := by
  induction steps generalizing i with
  | nil => rfl
  | cons step steps ih =>
      cases step with
      | take => exact ih i.clear
      | check c => rw [follow, ih, subject_run]
      | add side remark => rw [follow, ih, subject_add]

/-- Until the next taking everything that is found is kept, and nothing is taken. -/
theorem follow_append_of_no_taking (h : Step.take ∉ steps) (rest : List Step) :
    i.follow (steps ++ rest) = (i.gather steps).follow rest := by
  induction steps generalizing i with
  | nil => simp
  | cons step steps ih =>
      rw [List.mem_cons, not_or] at h
      rw [List.cons_append, follow_cons (Ne.symm h.1), ih h.2, gather_gather,
        List.singleton_append]

/-- At a taking everything is taken that was found until then, and the inspection begins anew. -/
theorem follow_append_take (h : Step.take ∉ steps) (rest : List Step) :
    i.follow (steps ++ .take :: rest) =
      ((i.clear.follow rest).1, (i.gather steps).warnings :: (i.clear.follow rest).2) := by
  rw [follow_append_of_no_taking h, follow]
  rfl

theorem follow_of_no_taking (h : Step.take ∉ steps) : i.follow steps = (i.gather steps, []) := by
  have happend := follow_append_of_no_taking (i := i) h []
  rw [List.append_nil] at happend
  rw [happend, follow]

/-! ### Stretches of steps -/

/-- Steps in stretches that each end at a taking, and the rest behind the last taking. -/
structure Cut (steps : List Step) (stretches : List (List Step)) (rest : List Step) : Prop where
  eq : steps = stretches.flatMap (fun stretch => stretch ++ [.take]) ++ rest
  no_taking : ∀ stretch ∈ stretches, Step.take ∉ stretch
  no_taking_behind : Step.take ∉ rest

theorem exists_cut (steps : List Step) : ∃ stretches rest, Cut steps stretches rest := by
  induction steps with
  | nil => exact ⟨[], [], rfl, by simp, by simp⟩
  | cons step steps ih =>
      obtain ⟨stretches, rest, rfl, hstretches, hrest⟩ := ih
      by_cases h : step = .take
      · subst h
        refine ⟨[] :: stretches, rest, by simp, ?_, hrest⟩
        simpa using hstretches
      · cases stretches with
        | nil =>
            refine ⟨[], step :: rest, by simp, by simp, ?_⟩
            simpa [Ne.symm h] using hrest
        | cons stretch stretches =>
            refine ⟨(step :: stretch) :: stretches, rest, by simp, ?_, hrest⟩
            simpa [Ne.symm h] using hstretches

theorem warnings_gather (i : Inspection) (steps : List Step) :
    (i.gather steps).warnings =
      i.subject.placed (i.declaration ++ steps.flatMap (Step.found i.subject .declaration))
        (i.documentation ++ steps.flatMap (Step.found i.subject .documentation)) := by
  have hline : i.subject.docLine = match i.subject.tag with
      | some tag => tag.line
      | none => i.subject.line := by
    unfold Subject.docLine
    cases i.subject.tag <;> rfl
  simp only [warnings, gather, Subject.placed, hline]
  rfl

/-- What is taken at the end of each stretch: what was found in it, and at the end of the first
stretch also what was found before. -/
theorem follow_of_cut {stretches : List (List Step)} {rest : List Step}
    (h : Cut steps stretches rest) :
    i.follow steps =
      ((if stretches = [] then i else i.clear).gather rest,
        stretches.mapIdx fun k stretch => i.subject.placed
          ((if k = 0 then i.declaration else []) ++
            stretch.flatMap (Step.found i.subject .declaration))
          ((if k = 0 then i.documentation else []) ++
            stretch.flatMap (Step.found i.subject .documentation))) := by
  obtain ⟨rfl, hstretches, hrest⟩ := h
  induction stretches generalizing i with
  | nil => simpa using follow_of_no_taking hrest
  | cons stretch stretches ih =>
      have hih := ih (i := i.clear) fun s hs => hstretches s (List.mem_cons_of_mem _ hs)
      have hclear : (if stretches = [] then i.clear else i.clear.clear) = i.clear := by
        split <;> rfl
      rw [hclear] at hih
      rw [List.flatMap_cons, List.append_assoc, List.append_assoc, List.singleton_append,
        follow_append_take (hstretches stretch List.mem_cons_self), hih, warnings_gather,
        List.mapIdx_cons, if_neg (List.cons_ne_nil stretch stretches)]
      simp [clear]

/-! ### Nothing is lost -/

theorem placed_append_perm (s : Subject) (d d' c c' : List Remark) :
    (s.placed (d ++ d') (c ++ c')).Perm (s.placed d c ++ s.placed d' c') := by
  simp only [Subject.placed, List.map_append, List.append_assoc]
  refine List.Perm.append_left _ ?_
  rw [← List.append_assoc, ← List.append_assoc]
  exact List.perm_append_comm.append_right _

theorem warnings_eq (i : Inspection) :
    i.warnings = i.subject.placed i.declaration i.documentation := by
  have h := warnings_gather i []
  simpa using h

/-- What was taken and what is left is what was there and what was found, each as often. -/
theorem follow_perm (i : Inspection) (steps : List Step) :
    ((i.follow steps).2.flatten ++ (i.follow steps).1.warnings).Perm
      (i.warnings ++ steps.flatMap fun step => i.subject.placed
        (step.found i.subject .declaration) (step.found i.subject .documentation)) := by
  induction steps generalizing i with
  | nil => simp [follow]
  | cons step steps ih =>
      by_cases h : step = .take
      · subst h
        have hcleared : i.clear.warnings = [] := rfl
        have htake : i.subject.placed (Step.take.found i.subject .declaration)
            (Step.take.found i.subject .documentation) = [] := rfl
        have hperm := (ih i.clear).append_left i.warnings
        rw [hcleared, List.nil_append, subject_clear] at hperm
        rw [follow, List.flatten_cons, List.append_assoc, List.flatMap_cons, htake, List.nil_append]
        exact hperm
      · rw [follow_cons h, List.flatMap_cons, ← List.append_assoc]
        refine (ih (i.gather [step])).trans (List.Perm.append_right _ ?_)
        rw [warnings_gather, warnings_eq]
        simpa using placed_append_perm i.subject i.declaration
          (step.found i.subject .declaration) i.documentation
          (step.found i.subject .documentation)

/-- **Each finding is taken once, at the first taking behind it.**  Any steps are stretches that
end at a taking, and a rest.  At the end of a stretch exactly what was found in it is taken, and at
the end of the first one also what was there before: what was found at the declaration, in order, on
its line, and then what was found at the documentation, in order, on the line of the tag or of the
declaration without one, with the name of the subject in place of the mark.  What is found behind
the last taking is kept.  So what is taken or left is what was there or found, each as often.  And
no step changes anything of the subject. -/
theorem taken_once (i : Inspection) (steps : List Step) :
    (∃ stretches rest, Cut steps stretches rest ∧
      ((i.follow steps).2 = stretches.mapIdx fun k stretch => i.subject.placed
        ((if k = 0 then i.declaration else []) ++
          stretch.flatMap (Step.found i.subject .declaration))
        ((if k = 0 then i.documentation else []) ++
          stretch.flatMap (Step.found i.subject .documentation))) ∧
      (i.follow steps).1 = (if stretches = [] then i else i.clear).gather rest) ∧
    ((i.follow steps).2.flatten ++ (i.follow steps).1.warnings).Perm
      (i.warnings ++ steps.flatMap fun step => i.subject.placed
        (step.found i.subject .declaration) (step.found i.subject .documentation)) ∧
    (i.follow steps).1.subject = i.subject := by
  obtain ⟨stretches, rest, hcut⟩ := exists_cut steps
  have hfollow := follow_of_cut (i := i) hcut
  refine ⟨⟨stretches, rest, hcut, ?_, ?_⟩, follow_perm i steps, subject_follow i steps⟩
  · rw [hfollow]
  · rw [hfollow]

/-! ### The result of a getter -/

theorem foldl_run_eq_gather (i : Inspection) (cs : List Check) :
    cs.foldl run i = i.gather (cs.map Step.check) := by
  induction cs generalizing i with
  | nil => simp
  | cons c cs ih => rw [List.foldl_cons, ih, run_eq_gather, gather_gather]; rfl

theorem flatMap_found_add (s : Subject) (side other : Side) (rs : List Remark) :
    (rs.map (Step.add other)).flatMap (Step.found s side) = if other = side then rs else [] := by
  rw [List.flatMap_map]
  by_cases h : other = side <;> simp [Step.found, h]

/-- The result of a getter is inspected twice, by the checks and for its property.  One inspection
does for both: where the findings of the checks are taken first, those for the property are taken by
themselves. -/
theorem follow_getter (m : MethodSettings) (s : Subject) (property : Text) (documented : Ty)
    {g : Inspection} (hg : g = Routine.getterInspection m s property documented) :
    (follow { subject := s } ((Routine.checks m s).map Step.check ++ .take ::
      ((g.documentation.map (Step.add .documentation) ++
        g.declaration.map (Step.add .declaration)) ++ [.take]))).2 =
      [Routine.inspect m s, g.warnings] := by
  have hchecks : Step.take ∉ (Routine.checks m s).map Step.check := by simp
  have hadds : Step.take ∉ g.documentation.map (Step.add .documentation) ++
      g.declaration.map (Step.add .declaration) := by simp
  have hsubject : g.subject = s := by rw [hg]; rfl
  have hgather : gather { subject := s } (g.documentation.map (Step.add .documentation) ++
      g.declaration.map (Step.add .declaration)) = g := by
    simp [gather, flatMap_found_add, ← hsubject]
  have hclear : clear { subject := s } = { subject := s } := rfl
  rw [follow_append_take hchecks, hclear, follow_append_take hadds, hgather, Routine.inspect,
    foldl_run_eq_gather, follow]

end Inspection

end HintCheck
