/-
**The rule for descriptions of classes.**

The comment of a class should not only say that it is a class of a name, and some tags do not belong
there.

Main definitions:

* `HintCheck.restatesKind` — whether a line only names what is declared;
* `HintCheck.Rule.description` — the rule.
-/

import HintCheck.Rule.Basic

set_option relaxedAutoImplicit false
set_option autoImplicit false

namespace HintCheck

/-- Whether a text is one word, perhaps with a full stop. -/
def isLoneWord (cs : Text) : Bool :=
  match word? cs with
  | some (_, rest) => rest.isEmpty || rest == ['.']
  | none => false

/-- Whether a line only names the kind of a declaration and a name. -/
def restatesKind (line : Text) : Bool :=
  ["Class", "Interface", "Trait", "Enum"].any fun kind =>
    match (Text.dropPrefix? kind.toList line).bind afterBlanks? with
    | some rest => isLoneWord rest
    | none => false

/-- What is found at the comment of a class. -/
def ClassDecl.descriptionFindings (invalid : List Text) (c : ClassDecl) : List Finding :=
  (c.doc.description.filter fun l => restatesKind l.1).map (fun l =>
    (l.2, "Useless description".toList)) ++ needlessTags c.doc invalid

/-- The rule for descriptions of classes. -/
def Rule.description (invalid : List Text) : Rule :=
  { name := "type_sniff/description".toList
    severity := .warning
    check := fun f _ report =>
      report.addAll (f.classes.flatMap (ClassDecl.descriptionFindings invalid)) }

end HintCheck
