/-
**The rule for classes that can be iterated.**

A class that implements `IteratorAggregate` has to tell the type of its items in a tag.  Where
some class above implements it already, that one has to.

Main definitions:

* `HintCheck.ClassDecl.needsItemType` — whether a class lacks the tag;
* `HintCheck.Rule.iterator` — the rule.
-/

import HintCheck.Rule.Basic

set_option relaxedAutoImplicit false
set_option autoImplicit false

namespace HintCheck

/-- The interface of the classes that can be iterated. -/
def iteratorInterface : Text := "IteratorAggregate".toList

namespace ClassDecl

/-- Whether the class that is extended is known to implement the interface. -/
def inheritsIteration (c : ClassDecl) (imports : List (Text × Text)) (x : ClassIndex) : Bool :=
  c.parent.any fun p =>
    x.implements? (ClassName.resolve c.scope imports p) iteratorInterface == some true

/-- Whether a class implements the interface, by its own words or by what stands above it. -/
def isIterable (c : ClassDecl) (imports : List (Text × Text)) (x : ClassIndex) : Bool :=
  (c.interfaces.any fun n =>
    ClassIndex.sameShortName (ClassName.resolve c.scope imports n) iteratorInterface) ||
    x.implements? c.fullName iteratorInterface == some true

/-- Whether the comment of a class tells the type of its items. -/
def tellsItemType (c : ClassDecl) : Bool :=
  ["template-implements", "template-extends", "implements"].any fun tag => c.doc.hasTag tag.toList

/-- Whether a class has to tell the type of its items and does not. -/
def needsItemType (c : ClassDecl) (imports : List (Text × Text)) (x : ClassIndex) : Bool :=
  c.kind == .ordinary && !c.inheritsIteration imports x && c.isIterable imports x &&
    !c.tellsItemType

end ClassDecl

/-- The words for a class that does not tell the type of its items. -/
def itemTypeMessage : Text :=
  ("Classes which implement IteratorAggregate must have \"@template-implements " ++
    "IteratorAggregate<?>\" doc tag with a specified item type or template type").toList

/-- The rule for classes that can be iterated. -/
def Rule.iterator (severity : Severity) : Rule :=
  { name := "type_sniff/iterator_item_type".toList
    severity
    check := fun f x report =>
      report.addAll ((f.classes.filter fun c => c.needsItemType f.imports x).map fun c =>
        (c.line, itemTypeMessage)) }

end HintCheck
