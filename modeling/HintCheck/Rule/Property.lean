/-
**The rule for properties.**

A property without a declared type needs a comment, and the tag in the comment of a property has to
fit its declaration and its default value.

Main definitions:

* `HintCheck.PropertyDecl.findings` — what the rule finds at a property;
* `HintCheck.Rule.property` — the rule.
-/

import HintCheck.Inspect.Check
import HintCheck.Rule.Basic

set_option relaxedAutoImplicit false
set_option autoImplicit false

namespace HintCheck

namespace PropertyDecl

/-- What is found at a property without a comment. -/
def bareFindings (p : PropertyDecl) : List Finding :=
  if p.ty.isDefined then
    (({ subject := Subject.ofProperty p } : Inspection).run (.arrayUndocumented true)).warnings
  else [(p.line, "Add PHPDoc for property $".toList ++ p.name)]

/-- What is found at the tag of a property. -/
def tagFindings (p : PropertyDecl) (typing : Typing) (name : Option Text) : List Finding :=
  let named := name.toList.map fun n =>
    (typing.line, "Remove property name $".toList ++ n ++ " from @var tag".toList)
  let s := { (Subject.ofProperty p).withTag typing with documented := true }
  named ++ (Check.ofDocumentation.foldl Inspection.run { subject := s }).warnings

/-- What is found at a property. -/
def findings (p : PropertyDecl) : List Finding :=
  match p.doc with
  | none => p.bareFindings
  | some _ =>
    match p.doc.varTag? with
    | none => [(p.line, "Add @var tag for property $".toList ++ p.name)]
    | some (typing, name) => p.tagFindings typing name

end PropertyDecl

/-- The rule for properties. -/
def Rule.property : Rule :=
  { name := "type_sniff/property".toList
    severity := .warning
    check := fun f _ report =>
      report.addAll (f.classes.flatMap fun c => c.properties.flatMap PropertyDecl.findings) }

end HintCheck
