/-
**The rule for constants.**

The tag in the comment of a constant has to fit its value.  All findings stand on the line of the
constant.

Main definitions:

* `HintCheck.ConstantDecl.findings` — what the rule finds at a constant;
* `HintCheck.Rule.constant` — the rule.
-/

import HintCheck.Inspect.Check
import HintCheck.Rule.Basic

set_option relaxedAutoImplicit false
set_option autoImplicit false

namespace HintCheck

namespace ConstantDecl

/-- The subject of a constant. -/
def subject (c : ConstantDecl) : Subject :=
  let s := { Subject.ofConstant c with documented := c.doc.isSome }
  match c.doc.varTag? with
  | some (typing, _) => s.withTag ⟨c.line, typing.ty⟩
  | none => s

/-- What is found at a constant. -/
def findings (c : ConstantDecl) : List Finding :=
  (Check.ofDocumentation.foldl Inspection.run { subject := c.subject }).warnings

end ConstantDecl

/-- The rule for constants. -/
def Rule.constant : Rule :=
  { name := "type_sniff/constant".toList
    severity := .warning
    check := fun f _ report =>
      report.addAll (f.classes.flatMap fun c => c.constants.flatMap ConstantDecl.findings) }

end HintCheck
