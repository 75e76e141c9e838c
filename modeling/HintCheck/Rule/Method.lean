/-
**The rule for functions and methods.**

The types of parameters and results are compared with their tags.  A method that takes its comment
over from a class above is left alone, a getter has to admit the null of its property, and a comment
that only repeats the signature is needless.

Main definitions:

* `HintCheck.Routine` — a function or a method;
* `HintCheck.Routine.isNeedless` — whether a comment repeats the signature;
* `HintCheck.Routine.check` — what the rule reports of a routine;
* `HintCheck.Rule.method` — the rule.
-/

import HintCheck.Inspect.Check
import HintCheck.Rule.Basic
import HintCheck.Settings

set_option relaxedAutoImplicit false
set_option autoImplicit false

namespace HintCheck

/-- A function, or a method with its class. -/
structure Routine where
  line : Nat
  signature : Signature
  doc : Doc
  owner : Option ClassDecl
  /-- The property that a getter returns. -/
  getter : Option Text

namespace Routine

/-- A function. -/
def ofFunction (f : FunctionDecl) : Routine := ⟨f.line, f.signature, f.doc, none, none⟩

/-- A method of a class. -/
def ofMethod (c : ClassDecl) (m : MethodDecl) : Routine :=
  ⟨m.line, m.signature, m.doc, some c, m.getter⟩

/-- The functions and methods of a file. -/
def ofFile (f : SourceFile) : List Routine :=
  f.functions.map ofFunction ++ f.classes.flatMap fun c => c.methods.map (ofMethod c)

/-! ### Needless comments -/

/-- How the documentation of a declared type is spelled when it only repeats it. -/
def repeated (t : Ty) : Text :=
  match t with
  | .optional _ => t.docText
  | _ => t.declText

/-- Whether a tag without words only repeats a declared type. -/
def repeats (tag : Option (Typing × Option Text)) (declared : Ty) : Bool :=
  match tag with
  | some (typing, none) => typing.ty.declText == repeated declared
  | _ => false

/-- Whether the comment says nothing but what the signature says. -/
def isNeedless (r : Routine) : Bool :=
  r.doc.isSome && !r.doc.hasDescription &&
    (r.doc.tags.all fun tag => tag.name == "param".toList || tag.name == "return".toList) &&
    (r.signature.params.all fun p => repeats (r.doc.paramTag? p.name) p.ty) &&
    (r.doc.resultTag?.isNone || repeats r.doc.resultTag? r.signature.result)

/-! ### Inspection -/

/-- Whether a routine is a constructor. -/
def isConstructor (r : Routine) : Bool :=
  Text.sameLetters r.signature.name "__construct".toList

/-- Whether a routine is called by the language itself. -/
def isMagic (r : Routine) : Bool := "__".toList.isPrefixOf r.signature.name

/-- Whether a method is declared above its class too. -/
def isOverride (r : Routine) (x : ClassIndex) : Bool :=
  r.owner.any fun c => x.overrides c.fullName r.signature.name == .yes

/-- The checks of a parameter or a result. -/
def checks (m : MethodSettings) (s : Subject) : List Check :=
  [.declMissing, .declSuggested] ++
    if m.reportMissingTags || s.tag.isSome then Check.ofDocumentation
    else [.arrayUndocumented false]

/-- What the checks of a subject find. -/
def inspect (m : MethodSettings) (s : Subject) : List Finding :=
  ((checks m s).foldl Inspection.run { subject := s }).warnings

/-- The subject of a parameter: its type is documented in the comment of the routine, or, when it
declares a property, in its own. -/
def paramSubject (r : Routine) (p : Param) : Subject :=
  let s := { Subject.ofParam p with documented := r.doc.isSome }
  match r.doc.paramTag? p.name with
  | some (typing, _) => s.withTag typing
  | none =>
    match p.doc.varTag? with
    | some (typing, _) => if p.promoted then { s.withTag typing with documented := true } else s
    | none => s

/-- The subject of the result. -/
def resultSubject (r : Routine) : Subject :=
  let s := { Subject.ofResult r.signature with documented := r.doc.isSome }
  match r.doc.resultTag? with
  | some (typing, _) => s.withTag typing
  | none => s

/-- Whether a line only says that there is a constructor. -/
def describesConstructor (line : Text) : Bool :=
  match (word? line).bind fun r => afterBlanks? r.2 with
  | some rest => rest == "constructor".toList || rest == "constructor.".toList
  | none => false

/-- The lines of a constructor's comment that say nothing. -/
def needlessLines (r : Routine) : List Finding :=
  (r.doc.description.filter fun l => describesConstructor l.1).map fun l =>
    (l.2, "Useless description.".toList)

/-! ### Getters -/

/-- A type without its members that are null. -/
def withoutNull (t : Ty) : Ty := Ty.unionOf (t.members.filter (!isNull ·))
where
  isNull : Ty → Bool
    | .atom .null => true
    | _ => false

/-- The type that the comment of a property of a class gives to it. -/
def propertyDoc? (c : ClassDecl) (property : Text) : Option Ty :=
  ((c.property? property).bind fun p => p.doc.varTag?).map (·.1.ty)

/-- What is found where a getter leaves out the null of its property. -/
def getterInspection (m : MethodSettings) (s : Subject) (property : Text) (documented : Ty) :
    Inspection :=
  let doc := Check.when (m.reportGetterDoc && s.documented && !s.docContains (.atom .null))
    (.getterDocWithoutNull property (s.definedDoc?.getD (withoutNull documented)))
  let decl := Check.when (m.reportGetterDecl && s.decl.isDefined && !s.decl.admitsNull)
    (.getterDeclWithoutNull property s.decl)
  { subject := s, declaration := decl, documentation := doc }

/-- The property that a getter of an ordinary class returns, with its documented type, when that
admits null. -/
def nullableGetter? (r : Routine) : Option (Text × Ty) := do
  let c ← r.owner
  let property ← r.getter
  let documented ← propertyDoc? c property
  if c.kind = .ordinary ∧ documented.admitsNull then some (property, documented) else none

/-- What is found at a getter. -/
def getterFindings (r : Routine) (m : MethodSettings) : List Finding :=
  match r.nullableGetter? with
  | some (property, documented) =>
    (getterInspection m r.resultSubject property documented).warnings
  | none => []

/-! ### The rule -/

/-- What is found at the parameters, and at the result of all but constructors. -/
def typeFindings (r : Routine) (m : MethodSettings) : List Finding :=
  let params := r.signature.params.flatMap fun p => inspect m (r.paramSubject p)
  if r.isConstructor then params ++ r.needlessLines
  else params ++ inspect m r.resultSubject ++ r.getterFindings m

/-- What is found at the types and the comment.  Of a method that overrides another one the comment
should say so, and nothing else is looked at then; constructors are looked at in any case. -/
def bodyFindings (r : Routine) (m : MethodSettings) (useIndex : Bool) (x : ClassIndex) :
    List Finding :=
  if r.isConstructor then r.typeFindings m
  else if r.isMagic || r.doc.hasTag "inheritdoc".toList then []
  else if useIndex && r.isOverride x then
    [(r.line, "Missing @inheritDoc tag. Remove duplicated parent PHPDoc content.".toList)]
  else r.typeFindings m

/-- Reports what is found at a routine.  Only where nothing else is wrong, a comment that repeats
the signature is. -/
def check (r : Routine) (m : MethodSettings) (useIndex : Bool) (x : ClassIndex)
    (report : Report) : Report :=
  let found := (report.addAll (needlessTags r.doc m.invalidTags)).addAll
    (r.bodyFindings m useIndex x)
  -- findings count here even where a comment silences them
  if found.raised = report.raised ∧ r.isNeedless then
    found.add (r.line, "Useless PHPDoc".toList)
  else found

end Routine

/-- The rule for functions and methods. -/
def Rule.method (m : MethodSettings) (useIndex : Bool) : Rule :=
  { name := "type_sniff/method".toList
    severity := .warning
    check := fun f x report =>
      (Routine.ofFile f).foldl (fun report r => r.check m useIndex x report) report }

end HintCheck
