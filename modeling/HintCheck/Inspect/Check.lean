/-
**The checks of a subject.**

Eight checks look at a subject: two at its declaration and six at its documentation.  A check does
not depend on what the others found; an inspection collects what they find until it is taken.

Main definitions:

* `HintCheck.Check` — the checks;
* `HintCheck.Check.findings` — what a check finds;
* `HintCheck.Inspection` — a subject with what was found;
* `HintCheck.Inspection.run`, `HintCheck.Inspection.warnings` — a check is made, and its findings
  are placed on lines.

Main results:

* `HintCheck.Inspection.subject_run` — a check changes nothing of its subject.
-/

import HintCheck.Inspect.Remark
import HintCheck.Inspect.Subject
import HintCheck.Ty.Compare
import HintCheck.Ty.Suggest

set_option relaxedAutoImplicit false
set_option autoImplicit false

namespace HintCheck

/-! ### The checks -/

/-- A check of a subject. -/
inductive Check where
  /-- A missing declaration has to be made up for by a tag. -/
  | declMissing
  /-- A documented type could be declared. -/
  | declSuggested
  /-- The values of arrays have to be documented, `inComment` also where there is a comment
  already. -/
  | arrayUndocumented (inComment : Bool)
  /-- A tag should have a type. -/
  | typeSuggested
  /-- Null should be spelled out. -/
  | nullShortened
  /-- Some types say nothing. -/
  | typeNeedless
  /-- Some types have no place in documentation. -/
  | typeInvalid
  /-- The documented type has to fit the declared type or the value. -/
  | typeMismatch
  deriving DecidableEq, Repr

/-- The two sides of a subject. -/
inductive Side where
  | declaration
  | documentation
  deriving DecidableEq, Repr

namespace Check

/-- The side that a check looks at. -/
def side : Check → Side
  | declMissing => .declaration
  | declSuggested => .declaration
  | _ => .documentation

/-- One finding under a condition. -/
def when (b : Bool) (r : Remark) : List Remark := if b then [r] else []

/-- What is found where neither a declaration nor a tag gives a type. -/
def untyped (s : Subject) : List Remark :=
  if s.decl.isDefined || s.tag.isSome then []
  else match s.kind with
    | .result => [.untypedResult]
    | .param => [.untypedParam]
    | _ => []

/-- What is found where a documented type could be declared. -/
def declarable (s : Subject) : List Remark :=
  if s.decl.isDefined then []
  else match s.definedDoc? with
    | none => []
    | some t => ((t.exampleDecl? (s.kind == .result)).map Remark.declarable).toList

/-- What is found where an array has no documented element. -/
def arrays (s : Subject) (inComment : Bool) : List Remark :=
  let declared := s.decl.contains (.atom .array)
  let held := declared || s.value.any (·.contains (.atom .array))
  match s.kind with
  | .param => when (s.tag.isNone && declared && (inComment || !s.documented)) .undocumentedArray
  | .result => when (s.tag.isNone && declared && (inComment || !s.documented)) .undocumentedArray
  | _ => when (held && !s.docContains .array && !s.docContains (.atom .array)) .unmarkedArray

/-- What is found where a tag has no type. -/
def typeless (s : Subject) : List Remark :=
  match s.doc? with
  | some .undefined =>
    match s.kind with
    | .property => [.tagWithoutType]
    | .constant => [.tagWithoutType]
    | _ => [.hintWithoutType s.decl.exampleDoc?]
  | _ => []

/-- What is found where null is not spelled out. -/
def shortened (s : Subject) : List Remark :=
  match s.doc? with
  | some (.optional t) => [.shortForm (.optional t)]
  | _ => []

/-- Whether a type is `void`. -/
def isVoid : Ty → Bool
  | .atom .void => true
  | _ => false

/-- What is found where a type says nothing. -/
def needless (s : Subject) : List Remark :=
  when (s.kind == .result && s.doc?.any isVoid && isVoid s.decl) .needlessVoid ++
    when (s.docContains (.atom .array) && s.docContains .array) .needlessArray

/-- What is found where a type has no place. -/
def invalid (s : Subject) : List Remark :=
  when (s.docContains (.atom .array) && !s.docContains .array) .plainArray ++
    ((s.doc?.bind Ty.fakeArray?).map Remark.arrayOfArrays).toList ++
    when (s.kind != .result && s.docContains (.atom .void)) .misplacedVoid

/-- The type that the documentation is compared with, the words for it, and whether only missing
alternatives are found. -/
def target (s : Subject) : Ty × Text × Bool :=
  let value := s.value.getD .undefined
  match s.kind with
  | .param => (s.decl, "type declaration".toList, false)
  | .result => (s.decl, "type declaration".toList, false)
  | .constant => (value, "value type".toList, false)
  | .property =>
    if s.decl.isDefined then (s.decl, "type declaration".toList, false)
    else (value, "value type".toList, true)

/-- What is found where the documented type does not fit. -/
def mismatch (s : Subject) : List Remark :=
  match s.definedDoc? with
  | none => []
  | some t =>
    let against := target s
    let c := Ty.compare t against.1
    when (!against.2.2 && !c.wrong.isEmpty) (.impossible c.wrong against.2.1) ++
      when (!c.missing.isEmpty) (.missing c.missing)

/-- What a check finds. -/
def findings (c : Check) (s : Subject) : List Remark :=
  match c with
  | declMissing => untyped s
  | declSuggested => declarable s
  | arrayUndocumented inComment => arrays s inComment
  | typeSuggested => typeless s
  | nullShortened => shortened s
  | typeNeedless => needless s
  | typeInvalid => invalid s
  | typeMismatch => mismatch s

/-- The checks of a documentation, in order. -/
def ofDocumentation : List Check :=
  [arrayUndocumented true, typeSuggested, nullShortened, typeNeedless, typeInvalid, typeMismatch]

end Check

/-! ### Inspections -/

/-- A subject with what was found on its two sides. -/
structure Inspection where
  subject : Subject
  declaration : List Remark := []
  documentation : List Remark := []

namespace Inspection

/-- Adds findings on a side. -/
def add (i : Inspection) (side : Side) (rs : List Remark) : Inspection :=
  match side with
  | .declaration => { i with declaration := i.declaration ++ rs }
  | .documentation => { i with documentation := i.documentation ++ rs }

/-- Makes a check. -/
def run (i : Inspection) (c : Check) : Inspection := i.add c.side (c.findings i.subject)

/-- The findings with their lines: those of the declaration on its line, then those of the
documentation on the line of the tag. -/
def warnings (i : Inspection) : List (Nat × Text) :=
  i.declaration.map (fun r => (i.subject.line, r.message i.subject.name)) ++
    i.documentation.map (fun r => (i.subject.docLine, r.message i.subject.name))

@[simp] theorem subject_add (i : Inspection) (side : Side) (rs : List Remark) :
    (i.add side rs).subject = i.subject := by
  cases side <;> rfl

@[simp] theorem subject_run (i : Inspection) (c : Check) : (i.run c).subject = i.subject :=
  subject_add i _ _

end Inspection

end HintCheck
